import TagTree.Proofs.Documents
import TagTree.Proofs.SExprText

/-!
# S-expressions are unambiguous

A script is a node whose names are names of JavaScript and whose operators are its operators, and
which holds no number and no regular expression.  A printed script can be read: the head of a list
says which construct it is, and the parts stand in a fixed order.  Only whether a function is a
declaration is not printed.

* `Construct.IsScript`              what is asked of the names and operators of one construct;
* `Construct.clear_toSExpr`         the words in the tree of a script are words;
* `Construct.ofSExpr?`              the construct that an s-expression stands for;
* `Construct.ofSExpr?_toSExpr`      one layer is read back, but for the form of a function;
* `Node.withForm_eq_of_toSExpr`     so is a whole script;
* `Node.sexpr_unambiguous`          scripts are printed alike iff they only differ in such forms.
-/

namespace TagTree

/-! ## scripts -/

/-- a name: letters, digits, `_` and `$`, without a digit in front; `_` alone is none -/
def IsIdentifier (s : String) : Prop :=
  s ≠ "" ∧ s ≠ "_" ∧ (∀ c ∈ s.toList, c.isAlphanum ∨ c = '_' ∨ c = '$') ∧
    ∀ c ∈ s.toList.head?, c.isDigit = false

instance (s : String) : Decidable (IsIdentifier s) :=
  @instDecidableAnd _ _ inferInstance <| @instDecidableAnd _ _ inferInstance <|
    @instDecidableAnd _ _ (List.decidableBAll _ _) (Option.decidableForallMem _)

def binaryOperators : List String :=
  ["+", "-", "*", "/", "%", "**", "==", "!=", "===", "!==", "<", "<=", ">", ">=", "<<", ">>", ">>>",
    "&", "|", "^", "&&", "||", "??", "in", "instanceof", ","]

def assignmentOperators : List String :=
  ["=", "+=", "-=", "*=", "/=", "%=", "<<=", ">>=", ">>>=", "&=", "|=", "^="]

def unaryOperators : List String :=
  ["+", "-", "!", "~", "++", "--", "typeof", "void", "delete", "await"]

/-- names are names, operators are operators, and there is no number or regular expression -/
def Construct.IsScript {α : Type} : Construct α → Prop
  | .function _ name params _ => (∀ x ∈ name, IsIdentifier x) ∧ ∀ x ∈ params, IsIdentifier x
  | .vars bindings => ∀ b ∈ bindings, IsIdentifier b.name
  | .literal (.number _) => False
  | .identifier name => IsIdentifier name
  | .binary op _ _ => op ∈ binaryOperators
  | .regex _ _ => False
  | .object properties => ∀ p ∈ properties, IsIdentifier p.key
  | .assignment op _ _ => op ∈ assignmentOperators
  | .unaryPrefix op _ | .unaryPostfix op _ => op ∈ unaryOperators
  | .member _ name => IsIdentifier name
  | .tryCatch _ h _ => ∀ x ∈ h, IsIdentifier x.param
  | .breaks label | .continues label => ∀ x ∈ label, IsIdentifier x
  | .labeled label _ => IsIdentifier label
  | _ => True

/-- every construct in the node is one of a script -/
def Node.IsScript (n : Node) : Prop :=
  ∀ c, .node (.mk c) ∈ (Item.node n).preorder → c.IsScript

theorem Node.isScript_mk (c : Construct Node) :
    (Node.mk c).IsScript ↔ c.IsScript ∧ ∀ m ∈ c.children, m.IsScript := by
  simp only [Node.IsScript, Item.node_mem_preorder_mk]
  constructor
  · intro h
    exact ⟨h c (.inl rfl), fun m hm d hd => h d (.inr ⟨m, hm, hd⟩)⟩
  · rintro ⟨hc, hm⟩ d hd
    rcases hd with hd | ⟨m, hmc, hd⟩
    · cases hd
      exact hc
    · exact hm m hmc d hd

theorem Construct.isScript_map {α β : Type} (f : α → β) (c : Construct α) :
    (c.map f).IsScript ↔ c.IsScript := by
  cases c with
  | literal value => cases value <;> exact Iff.rfl
  | vars bindings => exact List.forall_mem_map
  | object properties => exact List.forall_mem_map
  | tryCatch body h fin => cases h <;> simp [map, IsScript, Handler.map]
  | _ => exact Iff.rfl

/-! ### words -/

theorem IsIdentifier.isWord {s : String} (h : IsIdentifier s) : SExpr.IsWord s := by
  have hother : ∀ c ∈ [' ', '(', ')', '"'], ¬ (c.isAlphanum ∨ c = '_' ∨ c = '$') := by
    intro c hc
    simp only [List.mem_cons, List.not_mem_nil, or_false] at hc
    rcases hc with rfl | rfl | rfl | rfl <;> decide
  exact ⟨h.1, fun c hc hmem => hother c hmem (h.2.2.1 c hc)⟩

theorem isWord_operator {op : String}
    (h : op ∈ binaryOperators ++ assignmentOperators ++ unaryOperators) : SExpr.IsWord op := by
  have hall : ∀ op ∈ binaryOperators ++ assignmentOperators ++ unaryOperators,
      SExpr.IsWord op := by decide
  exact hall op h

section
open SExpr

theorem SExpr.clear_list {head : String} {xs : List SExpr} (hh : IsWord head)
    (h : ∀ x ∈ xs, x.Clear) : (list (.word head :: xs)).Clear :=
  .list (List.forall_mem_cons.2 ⟨.word hh, h⟩)

theorem Binding.clear_toSExpr {b : Binding SExpr} (hb : IsIdentifier b.name)
    (h : ∀ x ∈ b.init, x.Clear) : b.toSExpr.Clear :=
  clear_list hb.isWord fun x hx => h x (Option.mem_toList.1 hx)

theorem Property.clear_toSExpr {p : Property SExpr} (hp : IsIdentifier p.key) (h : p.value.Clear) :
    p.toSExpr.Clear := by
  have hkey := hp.isWord
  obtain ⟨key, value, accessor⟩ := p
  cases accessor with
  | none => exact clear_list hkey (by simpa using h)
  | some a =>
    have hname : IsWord a.name := by cases a <;> decide
    exact clear_list hname (by simpa using ⟨.word hkey, h⟩)

theorem Case.clear_toSExpr {c : Case SExpr} (ht : ∀ x ∈ c.test, x.Clear) (hb : ∀ x ∈ c.body, x.Clear) :
    c.toSExpr.Clear := by
  obtain ⟨test, body⟩ := c
  cases test with
  | none => exact clear_list (by decide) hb
  | some x => exact clear_list (by decide) (List.forall_mem_cons.2 ⟨ht x rfl, hb⟩)

theorem Handler.clear_toSExpr {h : Handler SExpr} (hp : IsIdentifier h.param)
    (hb : ∀ x ∈ h.body, x.Clear) : h.toSExpr.Clear :=
  clear_list (by decide) (List.forall_mem_cons.2 ⟨.word hp.isWord, hb⟩)

/-- the words in the tree of a script are words -/
theorem Construct.clear_toSExpr {c : Construct SExpr} (hc : c.IsScript)
    (h : ∀ x ∈ c.children, x.Clear) : c.toSExpr.Clear := by
  have getD {x : Option SExpr} (hx : ∀ y ∈ x, y ∈ c.children) : (x.getD .absent).Clear := by
    cases x with
    | none => exact .word (by decide)
    | some y => exact h y (hx y rfl)
  have words {xs : List String} (hxs : ∀ x ∈ xs, IsIdentifier x) :
      ∀ x ∈ xs.map word, x.Clear := List.forall_mem_map.2 fun x hx => .word (hxs x hx).isWord
  cases c with
  | function form name params body =>
    have hname : IsWord (name.getD "_") := by
      cases name with
      | none => decide
      | some x => exact (hc.1 x rfl).isWord
    refine clear_list (by decide) ?_
    exact List.forall_mem_cons.2 ⟨.word hname,
      List.forall_mem_cons.2 ⟨.list (words hc.2), h⟩⟩
  | vars bindings =>
    exact clear_list (by decide) (List.forall_mem_map.2 fun b hb =>
      Binding.clear_toSExpr (hc b hb) fun x hx => h x (mem_children_vars hb hx))
  | literal value =>
    cases value with
    | number x => exact hc.elim
    | string s => exact .quoted
  | identifier name => exact .word (IsIdentifier.isWord hc)
  | binary op l r =>
    have hop : op ∈ binaryOperators := hc
    exact clear_list (isWord_operator (by simp [hop])) h
  | regex pattern flags => exact hc.elim
  | object properties =>
    exact clear_list (by decide) (List.forall_mem_map.2 fun p hp =>
      Property.clear_toSExpr (hc p hp) (h _ (mem_children_object hp)))
  | assignment op t v =>
    have hop : op ∈ assignmentOperators := hc
    exact clear_list (isWord_operator (by simp [hop])) h
  | unaryPrefix op x =>
    have hop : op ∈ unaryOperators := hc
    exact clear_list (by decide)
      (List.forall_mem_cons.2 ⟨.word (isWord_operator (by simp [hop])), h⟩)
  | unaryPostfix op x =>
    have hop : op ∈ unaryOperators := hc
    exact clear_list (by decide)
      (List.forall_mem_cons.2 ⟨.word (isWord_operator (by simp [hop])), h⟩)
  | member o name =>
    refine clear_list (by decide) (List.forall_mem_cons.2 ⟨h o List.mem_cons_self, ?_⟩)
    exact List.forall_mem_singleton.2 (.word (IsIdentifier.isWord hc))
  | tryCatch body handler fin =>
    refine clear_list (by decide) (List.forall_mem_cons.2 ⟨?_, List.forall_mem_append.2 ⟨?_, ?_⟩⟩)
    · exact clear_list (by decide) fun x hx => h x (List.mem_append_left _ hx)
    · refine List.forall_mem_map.2 fun i hi => ?_
      have hi := Option.mem_toList.1 hi
      exact Handler.clear_toSExpr (hc i hi) fun x hx => h x (mem_children_handler hi hx)
    · refine List.forall_mem_map.2 fun l hl => clear_list (by decide) fun x hx => ?_
      exact h x (mem_children_finalizer (Option.mem_toList.1 hl) hx)
  | switch d cases =>
    refine clear_list (by decide) (List.forall_mem_cons.2 ⟨h d List.mem_cons_self, ?_⟩)
    exact List.forall_mem_map.2 fun c hc => Case.clear_toSExpr
      (fun x hx => h x (mem_children_switch hc (.inl hx)))
      (fun x hx => h x (mem_children_switch hc (.inr hx)))
  | forLoop i c u b =>
    have hi : (i.getD .absent).Clear := getD fun y hy => mem_children_init hy
    have hc : (c.getD .absent).Clear := getD fun y hy => mem_children_condition hy
    have hu : (u.getD .absent).Clear := getD fun y hy => mem_children_update hy
    have hb : b.Clear := h b (mem_children_loopBody i c u b)
    exact clear_list (by decide) (by simpa using ⟨hi, hc, hu, hb⟩)
  | breaks label =>
    exact clear_list (by decide) (words fun x hx => hc x (Option.mem_toList.1 hx))
  | continues label =>
    exact clear_list (by decide) (words fun x hx => hc x (Option.mem_toList.1 hx))
  | labeled label b =>
    exact clear_list (by decide)
      (List.forall_mem_cons.2 ⟨.word (IsIdentifier.isWord hc), h⟩)
  | _ => exact clear_list (by decide) h

end

theorem Node.clear_toSExpr {n : Node} (h : n.IsScript) : n.toSExpr.Clear := by
  induction n using induct with
  | h c ih =>
    obtain ⟨hc, hchildren⟩ := (isScript_mk c).1 h
    rw [toSExpr_mk]
    refine Construct.clear_toSExpr ((Construct.isScript_map _ c).2 hc) fun x hx => ?_
    rw [Construct.children_map] at hx
    obtain ⟨m, hm, rfl⟩ := List.mem_map.1 hx
    exact ih m hm (hchildren m hm)

/-! ## reading -/

namespace SExpr

def items : SExpr → List SExpr
  | .list xs => xs
  | _ => []

def item (t : SExpr) (i : Nat) : SExpr := t.items.getD i .absent

/-- the items of a list from number `i` on -/
def itemsFrom (t : SExpr) (i : Nat) : List SExpr := t.items.drop i

def name : SExpr → String
  | .word s => s
  | _ => ""

def present? : SExpr → Option SExpr
  | .word "_" => none
  | t => some t

theorem present?_of_ne {t : SExpr} (h : t ≠ .absent) : t.present? = some t := by
  unfold present?
  split
  · exact absurd rfl h
  · rfl

theorem present?_getD {t : Option SExpr} (h : ∀ x ∈ t, x ≠ .absent) :
    (t.getD .absent).present? = t := by
  cases t with
  | none => rfl
  | some x => exact present?_of_ne (h x rfl)

theorem name_getD {x : Option String} (h : ∀ y ∈ x, IsIdentifier y) :
    (word (x.getD "_")).present?.map name = x := by
  cases x with
  | none => rfl
  | some y =>
    have hne : word y ≠ .absent := fun he => (h y rfl).2.1 (SExpr.word.inj he)
    show (word y).present?.map name = some y
    rw [present?_of_ne hne]
    rfl

end SExpr

/-- the words that start lists, operators apart -/
def Kind.heads : List (String × Kind) :=
  [("program", .program), ("function", .function), ("return", .returns), ("var", .vars),
    ("stat", .statement), ("array", .array), ("call", .call), ("object", .object),
    ("block", .block), ("if", .ifElse), ("prefix", .unaryPrefix), ("postfix", .unaryPostfix),
    ("new", .new), (".", .member), ("[]", .member), ("try", .tryCatch), ("throw", .throws),
    ("while", .whileLoop), ("do-while", .doWhile), ("switch", .switch), ("for", .forLoop),
    ("for-in", .forIn), ("seq", .sequence), ("?:", .ternary), ("break", .breaks),
    ("continue", .continues), ("label", .labeled)]

/-- the kind of node whose list starts with a word -/
def Kind.ofHead? (head : String) : Option Kind :=
  if head ∈ binaryOperators then some .binary
  else if head ∈ assignmentOperators then some .assignment
  else Kind.heads.lookup head

theorem Kind.ofHead?_binary {op : String} (h : op ∈ binaryOperators) :
    Kind.ofHead? op = some .binary := if_pos h

theorem Kind.ofHead?_assignment {op : String} (h : op ∈ assignmentOperators) :
    Kind.ofHead? op = some .assignment := by
  have hother : ∀ op ∈ assignmentOperators, op ∉ binaryOperators := by decide
  rw [Kind.ofHead?, if_neg (hother op h), if_pos h]

def Binding.ofSExpr (t : SExpr) : Binding SExpr := ⟨(t.item 0).name, (t.itemsFrom 1).head?⟩

/-- an accessor stands before the key -/
def Property.ofSExpr (t : SExpr) : Property SExpr :=
  if t.items.length = 2 then ⟨(t.item 0).name, t.item 1, none⟩
  else ⟨(t.item 1).name, t.item 2, some (.ofName (t.item 0).name)⟩

def Case.ofSExpr (t : SExpr) : Case SExpr :=
  if (t.item 0).name = "case" then ⟨some (t.item 1), t.itemsFrom 2⟩ else ⟨none, t.itemsFrom 1⟩

def Handler.ofSExpr? (t : SExpr) : Option (Handler SExpr) :=
  if (t.item 0).name = "catch" then some ⟨(t.item 1).name, t.itemsFrom 2⟩ else none

/-- the statements behind `finally` -/
def SExpr.finalizer? (t : SExpr) : Option (List SExpr) :=
  if (t.item 0).name = "finally" then some (t.itemsFrom 1) else none

namespace Construct
open SExpr

/-- the construct of a kind whose parts are the items 1, 2, … of a list; every function is taken for
an expression -/
def ofItems? (t : SExpr) : Kind → Option (Construct SExpr)
  | .program => some (.program (t.itemsFrom 1))
  | .function =>
    some (.function .expression ((t.item 1).present?.map name) ((t.item 2).items.map name)
      (t.itemsFrom 3))
  | .returns => some (.returns (t.itemsFrom 1).head?)
  | .vars => some (.vars ((t.itemsFrom 1).map Binding.ofSExpr))
  | .statement => some (.statement (t.item 1))
  | .binary => some (.binary (t.item 0).name (t.item 1) (t.item 2))
  | .array => some (.array (t.itemsFrom 1))
  | .call => some (.call (t.item 1) (t.itemsFrom 2))
  | .object => some (.object ((t.itemsFrom 1).map Property.ofSExpr))
  | .block => some (.block (t.itemsFrom 1))
  | .ifElse => some (.ifElse (t.item 1) (t.item 2) (t.itemsFrom 3).head?)
  | .assignment => some (.assignment (t.item 0).name (t.item 1) (t.item 2))
  | .unaryPrefix => some (.unaryPrefix (t.item 1).name (t.item 2))
  | .unaryPostfix => some (.unaryPostfix (t.item 1).name (t.item 2))
  | .new => some (.new (t.item 1) (t.itemsFrom 2))
  | .member =>
    if (t.item 0).name = "." then some (.member (t.item 1) (t.item 2).name)
    else some (.index (t.item 1) (t.item 2))
  | .tryCatch =>
    some (.tryCatch ((t.item 1).itemsFrom 1) ((t.itemsFrom 2).findSome? Handler.ofSExpr?)
      ((t.itemsFrom 2).findSome? finalizer?))
  | .throws => some (.throws (t.item 1))
  | .whileLoop => some (.whileLoop (t.item 1) (t.item 2))
  | .doWhile => some (.doWhile (t.item 1) (t.item 2))
  | .switch => some (.switch (t.item 1) ((t.itemsFrom 2).map Case.ofSExpr))
  | .forLoop =>
    some (.forLoop (t.item 1).present? (t.item 2).present? (t.item 3).present? (t.item 4))
  | .forIn => some (.forIn (t.item 1) (t.item 2) (t.item 3) (t.item 4))
  | .sequence => some (.sequence (t.itemsFrom 1))
  | .ternary => some (.ternary (t.item 1) (t.item 2) (t.item 3))
  | .breaks => some (.breaks ((t.itemsFrom 1).head?.map name))
  | .continues => some (.continues ((t.itemsFrom 1).head?.map name))
  | .labeled => some (.labeled (t.item 1).name (t.item 2))
  | .literal | .identifier | .regex | .binding | .property | .switchCase | .handler => none

def ofSExpr? : SExpr → Option (Construct SExpr)
  | .word s => some (.identifier s)
  | .quoted s => some (.literal (.string s))
  | .list xs => (Kind.ofHead? ((SExpr.list xs).item 0).name).bind (ofItems? (.list xs))

/-- the same construct, but a function has the given form -/
def withForm {α : Type} (form : FunctionForm) : Construct α → Construct α
  | .function _ name params body => .function form name params body
  | c => c

end Construct

/-! ## reading back -/

theorem Binding.ofSExpr_toSExpr (b : Binding SExpr) : Binding.ofSExpr b.toSExpr = b := by
  obtain ⟨name, init⟩ := b
  cases init <;> rfl

theorem Property.ofSExpr_toSExpr (p : Property SExpr) : Property.ofSExpr p.toSExpr = p := by
  obtain ⟨key, value, accessor⟩ := p
  cases accessor with
  | none => rfl
  | some a => cases a <;> rfl

theorem Case.ofSExpr_toSExpr (c : Case SExpr) : Case.ofSExpr c.toSExpr = c := by
  obtain ⟨test, body⟩ := c
  cases test <;> rfl

namespace Construct
open SExpr

/-- one layer is read back, but for the form of a function -/
theorem ofSExpr?_toSExpr {c : Construct SExpr} (hc : c.IsScript)
    (h : ∀ x ∈ c.children, x ≠ .absent) : ofSExpr? c.toSExpr = some (c.withForm .expression) := by
  have option {x : Option SExpr} (hx : ∀ y ∈ x, y ∈ c.children) : (x.getD .absent).present? = x :=
    present?_getD fun y hy => h y (hx y hy)
  have head? {α : Type} (x : Option α) : x.toList.head? = x := by cases x <;> rfl
  have label (x : Option String) : (x.toList.map word).head?.map name = x := by cases x <;> rfl
  cases c with
  | function form name params body =>
    have hparams : (params.map word).map SExpr.name = params :=
      TagTree.map_map_eq_self fun _ _ => rfl
    show some (function .expression ((word (name.getD "_")).present?.map SExpr.name)
      ((params.map word).map SExpr.name) body) = _
    rw [name_getD hc.1, hparams]
    rfl
  | returns value => exact congrArg (some ∘ returns) (head? value)
  | vars bindings =>
    exact congrArg (some ∘ vars) (TagTree.map_map_eq_self fun b _ => b.ofSExpr_toSExpr)
  | literal value =>
    cases value with
    | number x => exact hc.elim
    | string s => rfl
  | binary op l r =>
    show (Kind.ofHead? op).bind _ = _
    rw [Kind.ofHead?_binary hc]
    rfl
  | regex pattern flags => exact hc.elim
  | object properties =>
    exact congrArg (some ∘ object) (TagTree.map_map_eq_self fun p _ => p.ofSExpr_toSExpr)
  | ifElse c t e => exact congrArg (some ∘ ifElse c t) (head? e)
  | assignment op t v =>
    show (Kind.ofHead? op).bind _ = _
    rw [Kind.ofHead?_assignment hc]
    rfl
  | tryCatch body handler fin => cases handler <;> cases fin <;> rfl
  | switch d cases =>
    exact congrArg (some ∘ switch d) (TagTree.map_map_eq_self fun c _ => c.ofSExpr_toSExpr)
  | forLoop i c u b =>
    have hi : (i.getD .absent).present? = i := option fun y hy => mem_children_init hy
    have hc : (c.getD .absent).present? = c := option fun y hy => mem_children_condition hy
    have hu : (u.getD .absent).present? = u := option fun y hy => mem_children_update hy
    show some (forLoop (i.getD .absent).present? (c.getD .absent).present?
      (u.getD .absent).present? b) = _
    rw [hi, hc, hu]
    rfl
  | breaks x => exact congrArg (some ∘ breaks) (label x)
  | continues x => exact congrArg (some ∘ continues) (label x)
  | _ => rfl

section
variable {α β : Type} (form : FunctionForm)

theorem withForm_map (f : α → β) (c : Construct α) :
    (c.map f).withForm form = (c.withForm form).map f := by
  cases c <;> rfl

theorem children_withForm (c : Construct α) : (c.withForm form).children = c.children := by
  cases c <;> rfl

theorem toSExpr_withForm (c : Construct SExpr) : (c.withForm form).toSExpr = c.toSExpr := by
  cases c <;> rfl

theorem isScript_withForm (c : Construct α) : (c.withForm form).IsScript ↔ c.IsScript := by
  cases c <;> exact Iff.rfl

theorem withForm_withForm (form' : FunctionForm) (c : Construct α) :
    (c.withForm form').withForm form = c.withForm form := by
  cases c <;> rfl

end
end Construct

namespace Node

def withForm (form : FunctionForm) : Node → Node := Node.fold fun c => .mk (c.withForm form)

theorem withForm_mk (form : FunctionForm) (c : Construct Node) :
    (mk c).withForm form = mk ((c.map (Node.withForm form)).withForm form) :=
  Node.fold_mk _ c

/-- the form of functions is not printed -/
theorem toSExpr_withForm (form : FunctionForm) (n : Node) :
    (n.withForm form).toSExpr = n.toSExpr := by
  induction n using induct with
  | h c ih =>
    rw [withForm_mk, toSExpr_mk, ← Construct.withForm_map, Construct.toSExpr_withForm,
      Construct.map_map, toSExpr_mk]
    exact congrArg _ (Construct.map_congr ih)

theorem isScript_withForm {form : FunctionForm} {n : Node} (h : n.IsScript) :
    (n.withForm form).IsScript := by
  induction n using induct with
  | h c ih =>
    obtain ⟨hc, hchildren⟩ := (isScript_mk c).1 h
    rw [withForm_mk, isScript_mk, Construct.isScript_withForm, Construct.isScript_map,
      Construct.children_withForm, Construct.children_map]
    refine ⟨hc, fun m hm => ?_⟩
    obtain ⟨x, hx, rfl⟩ := List.mem_map.1 hm
    exact ih x hx (hchildren x hx)

theorem withForm_withForm (form form' : FunctionForm) (n : Node) :
    (n.withForm form').withForm form = n.withForm form := by
  induction n using induct with
  | h c ih =>
    rw [withForm_mk, withForm_mk, withForm_mk, ← Construct.withForm_map, Construct.map_map,
      Construct.withForm_withForm]
    exact congrArg (fun d => mk (Construct.withForm form d)) (Construct.map_congr ih)

/-- no node of a script is printed as what is absent -/
theorem toSExpr_ne_absent {n : Node} (h : n.IsScript) : n.toSExpr ≠ .absent := by
  obtain ⟨c⟩ := n
  have hc := ((isScript_mk c).1 h).1
  rw [toSExpr_mk]
  cases c with
  | literal value =>
    cases value with
    | number x => exact hc.elim
    | string s => exact nofun
  | identifier name => exact fun he => hc.2.1 (SExpr.word.inj he)
  | regex pattern flags => exact hc.elim
  | _ => exact nofun

theorem withForm_eq_of_toSExpr {a b : Node} (ha : a.IsScript) (hb : b.IsScript)
    (h : a.toSExpr = b.toSExpr) : a.withForm .expression = b.withForm .expression := by
  induction a using induct generalizing b with
  | h c ih =>
    obtain ⟨d⟩ := b
    obtain ⟨hc, hcs⟩ := (isScript_mk c).1 ha
    obtain ⟨hd, hds⟩ := (isScript_mk d).1 hb
    have read {c : Construct Node} (hc : c.IsScript) (hcs : ∀ m ∈ c.children, m.IsScript) :
        Construct.ofSExpr? (c.map toSExpr).toSExpr =
          some ((c.map toSExpr).withForm .expression) := by
      refine Construct.ofSExpr?_toSExpr ((Construct.isScript_map _ c).2 hc) fun x hx => ?_
      rw [Construct.children_map] at hx
      obtain ⟨n, hn, rfl⟩ := List.mem_map.1 hx
      exact toSExpr_ne_absent (hcs n hn)
    -- the children are compared with their own functions set to one form
    have trees (c : Construct Node) :
        ((c.map (withForm .expression)).withForm .expression).map toSExpr =
          (c.map toSExpr).withForm .expression := by
      rw [← Construct.withForm_map, Construct.map_map]
      exact congrArg _ (Construct.map_congr fun n _ => toSExpr_withForm .expression n)
    rw [toSExpr_mk, toSExpr_mk] at h
    have he : (c.map toSExpr).withForm .expression = (d.map toSExpr).withForm .expression := by
      have hread := congrArg Construct.ofSExpr? h
      rw [read hc hcs, read hd hds] at hread
      exact Option.some.inj hread
    rw [← trees, ← trees] at he
    rw [withForm_mk, withForm_mk]
    refine congrArg mk (Construct.eq_of_map_eq he fun x hx y hy hxy => ?_)
    rw [Construct.children_withForm, Construct.children_map] at hx hy
    obtain ⟨m, hm, rfl⟩ := List.mem_map.1 hx
    obtain ⟨n, hn, rfl⟩ := List.mem_map.1 hy
    rw [toSExpr_withForm, toSExpr_withForm] at hxy
    exact ih m hm (hcs m hm) (hds n hn) hxy

/-! ## unambiguity -/

theorem sexpr_eq_iff {a b : Node} (ha : a.IsScript) (hb : b.IsScript) (form : FunctionForm) :
    a.sexpr = b.sexpr ↔ a.withForm form = b.withForm form := by
  rw [← text_toSExpr, ← text_toSExpr]
  constructor
  · intro h
    have htree := (clear_toSExpr ha).eq_of_text (clear_toSExpr hb) h
    rw [← withForm_withForm form .expression a, ← withForm_withForm form .expression b,
      withForm_eq_of_toSExpr ha hb htree]
  · intro h
    rw [← toSExpr_withForm form a, ← toSExpr_withForm form b, h]

/-- a script has no zeros, so that scripts agree iff they are equal -/
theorem agrees_iff_eq {a b : Node} (ha : a.IsScript) (hb : b.IsScript) :
    a.agrees b = true ↔ a = b := by
  have regular {n : Node} (h : n.IsScript) : n.Regular := by
    have hstem : ∀ op ∈ assignmentOperators,
        Encoding.stem op ++ "=" = op := by decide
    rw [regular_iff]
    intro c hmem
    have hc := h c hmem
    cases c with
    | literal value =>
      cases value with
      | number x => exact hc.elim
      | string s => trivial
    | assignment op t v => exact ⟨_, (hstem op hc).symm⟩
    | _ => trivial
  have unsigned {n : Node} (h : n.IsScript) : n.unsignZeros = n := by
    induction n using induct with
    | h c ih =>
      obtain ⟨hc, hchildren⟩ := (isScript_mk c).1 h
      have hsame : c.map unsignZeros = c :=
        (Construct.map_congr fun m hm => ih m hm (hchildren m hm)).trans (Construct.map_id c)
      rw [unsignZeros_mk, hsame]
      cases c with
      | literal value =>
        cases value with
        | number x => exact hc.elim
        | string s => rfl
      | _ => rfl
  rw [agrees_iff_unsignZeros (regular ha) (regular hb), unsigned ha, unsigned hb]

/-- **S-expressions of scripts are unambiguous.**  Two scripts are printed alike iff they are equal,
once all functions in them have the same form; and to be equal is to agree. -/
theorem sexpr_unambiguous {a b : Node} (ha : a.IsScript) (hb : b.IsScript) (form : FunctionForm) :
    (a.sexpr = b.sexpr ↔ a.withForm form = b.withForm form) ∧
    (a.sexpr = b.sexpr ↔ (a.withForm form).agrees (b.withForm form) = true) := by
  refine ⟨sexpr_eq_iff ha hb form, ?_⟩
  rw [sexpr_eq_iff ha hb form, agrees_iff_eq (isScript_withForm ha) (isScript_withForm hb)]

/-- a function that returns its own head as a text, with a quote in it -/
def quotedHead (form : FunctionForm) : Node :=
  .mk (.function form (some "f") ["a"] [.mk (.returns (some (.mk (.literal (.string "f\" (a)")))))])

theorem isScript_quotedHead (form : FunctionForm) : (quotedHead form).IsScript := by
  have hname : ∀ x ∈ some "f", IsIdentifier x := by
    rintro x ⟨⟩
    decide
  have hparams : ∀ x ∈ ["a"], IsIdentifier x := by decide
  have htext : (mk (.literal (.string "f\" (a)"))).IsScript :=
    (isScript_mk _).2 ⟨trivial, List.forall_mem_nil _⟩
  have hreturn : (mk (.returns (some (mk (.literal (.string "f\" (a)")))))).IsScript :=
    (isScript_mk _).2 ⟨trivial, List.forall_mem_singleton.2 htext⟩
  exact (isScript_mk _).2 ⟨⟨hname, hparams⟩, List.forall_mem_singleton.2 hreturn⟩

/-- a declaration and an expression are printed alike, and agree in one form only -/
theorem sexpr_unambiguous_quotedHead :
    (quotedHead .declaration).IsScript ∧ (quotedHead .expression).IsScript ∧
    (quotedHead .declaration).sexpr = "(function f (a) (return \"f\\\" (a)\"))" ∧
    (quotedHead .expression).sexpr = (quotedHead .declaration).sexpr ∧
    ((quotedHead .expression).withForm .declaration).agrees
      ((quotedHead .declaration).withForm .declaration) = true ∧
    (quotedHead .expression).agrees (quotedHead .declaration) = false := by
  have hd := isScript_quotedHead .declaration
  have he := isScript_quotedHead .expression
  obtain ⟨hequal, hagrees⟩ := sexpr_unambiguous he hd .declaration
  have hprinted := hequal.2 rfl
  exact ⟨hd, he, by decide +kernel, hprinted, hagrees.1 hprinted, rfl⟩

end Node
end TagTree
