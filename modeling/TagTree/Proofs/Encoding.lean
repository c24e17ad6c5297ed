import TagTree.Json.Finite
import TagTree.Proofs.Decoding
import TagTree.Proofs.Preorder

/-!
# Encoding nodes as tagged trees

Every node has a canonical tree: the tag of its construct, then every slot of the layout, with
`null` for what is absent.  The tree decodes to the node again, unless the node holds a number that Json
does not have or an assignment operator that is none.

* `Node.encode`             the canonical tree;
* `Node.Regular`            numbers are finite and assignment operators end in `=`;
* `row_encode`              the slots of an encoded construct are those of its row;
* `regular_of_decodes`      only regular nodes are decoded;
* `decode_encode_regular`   decoding inverts encoding, and its image is the regular nodes.
-/

namespace TagTree

/-! ## canonical trees -/

namespace Encoding

def tagged (tag : Tag) (slots : List Json) : Json := .array (.string tag.spelling :: slots)

/-- an absent value is `null` -/
def optional (t : Option Json) : Json := t.getD .null

def text? (x : Option String) : Json := optional (x.map .string)

/-- a number that Json does not have is `null` -/
def number (x : Binary64) : Json :=
  if h : x.isFinite = true then .number (.double x h) else .null

def stem (op : String) : String := .ofList op.toList.dropLast

/-- plain assignment is `true`, any other operator the text before its `=` -/
def operator (op : String) : Json := if op = "=" then .bool true else .string (stem op)

def accessor : Accessor → Json
  | .get => .string "get"
  | .set => .string "set"

def binding (b : Binding Json) : Json := .array [.string b.name, optional b.init]

def property (p : Property Json) : Json :=
  .array [.string p.key, p.value, optional (p.accessor.map accessor)]

def switchCase (c : Case Json) : Json := .array [optional c.test, .array c.body]

def handler (h : Handler Json) : Json := .array [.string h.param, .array h.body]

def construct : Construct Json → Json
  | .program body => tagged .toplevel [.array body]
  | .function .declaration name params body =>
    tagged .defun [text? name, .array (params.map .string), .array body]
  | .function .expression name params body =>
    tagged .function [text? name, .array (params.map .string), .array body]
  | .returns value => tagged .returns [optional value]
  | .vars bindings => tagged .vars [.array (bindings.map binding)]
  | .statement e => tagged .stat [e]
  | .literal (.number x) => tagged .num [number x]
  | .literal (.string x) => tagged .string [.string x]
  | .identifier name => tagged .name [.string name]
  | .binary op l r => tagged .binary [.string op, l, r]
  | .array elements => tagged .array [.array elements]
  | .call callee args => tagged .call [callee, .array args]
  | .regex pattern flags => tagged .regexp [.string pattern, .string flags]
  | .object properties => tagged .object [.array (properties.map property)]
  | .block body => tagged .block [.array body]
  | .ifElse c t e => tagged .ifElse [c, t, optional e]
  | .assignment op t v => tagged .assign [operator op, t, v]
  | .unaryPrefix op x => tagged .unaryPrefix [.string op, x]
  | .unaryPostfix op x => tagged .unaryPostfix [.string op, x]
  | .new c args => tagged .new [c, .array args]
  | .member o name => tagged .dot [o, .string name]
  | .index o i => tagged .sub [o, i]
  | .tryCatch body h fin =>
    tagged .tryCatch [.array body, optional (h.map handler), optional (fin.map .array)]
  | .throws v => tagged .throws [v]
  | .whileLoop c b => tagged .whileLoop [c, b]
  | .doWhile c b => tagged .doWhile [c, b]
  | .switch d cases => tagged .switch [d, .array (cases.map switchCase)]
  | .forLoop i c u b => tagged .forLoop [optional i, optional c, optional u, b]
  | .forIn i l o b => tagged .forIn [i, l, o, b]
  | .sequence es => tagged .seq es
  | .ternary c t e => tagged .conditional [c, t, e]
  | .breaks label => tagged .breaks [text? label]
  | .continues label => tagged .continues [text? label]
  | .labeled label b => tagged .label [.string label, b]

end Encoding

def Node.encode : Node → Json := Node.fold Encoding.construct

theorem Node.encode_mk (c : Construct Node) :
    (Node.mk c).encode = Encoding.construct (c.map Node.encode) := by
  rw [Node.encode, Node.fold_mk]

theorem Node.encode_ne_null (n : Node) : n.encode ≠ .null := by
  obtain ⟨c⟩ := n
  rw [encode_mk]
  cases c with
  | function form name params body => cases form <;> exact nofun
  | literal value => cases value <;> exact nofun
  | _ => exact nofun

/-! ## regular nodes -/

/-- every number in the node is finite, and every assignment operator ends in `=` -/
def Node.Regular (n : Node) : Prop :=
  (∀ x : Binary64, .node (.mk (.literal (.number x))) ∈ (Item.node n).preorder →
    x.isFinite = true) ∧
  (∀ (op : String) (t v : Node), .node (.mk (.assignment op t v)) ∈ (Item.node n).preorder →
    ∃ stem, op = stem ++ "=")

/-- what regularity asks of one construct -/
def Construct.IsProper {α : Type} : Construct α → Prop
  | .literal (.number x) => x.isFinite = true
  | .assignment op _ _ => ∃ stem, op = stem ++ "="
  | _ => True

theorem Node.regular_iff (n : Node) :
    n.Regular ↔ ∀ c, .node (.mk c) ∈ (Item.node n).preorder → c.IsProper := by
  constructor
  · rintro ⟨hx, hop⟩ c hc
    cases c with
    | literal value =>
      cases value with
      | number x => exact hx x hc
      | string s => trivial
    | assignment op t v => exact hop op t v hc
    | _ => trivial
  · intro h
    exact ⟨fun x hx => h _ hx, fun op t v hop => h _ hop⟩

theorem Node.regular_mk (c : Construct Node) :
    (Node.mk c).Regular ↔ c.IsProper ∧ ∀ m ∈ c.children, m.Regular := by
  simp only [Node.regular_iff, Item.node_mem_preorder_mk]
  constructor
  · intro h
    exact ⟨h c (.inl rfl), fun m hm d hd => h d (.inr ⟨m, hm, hd⟩)⟩
  · rintro ⟨hc, hm⟩ d hd
    rcases hd with hd | ⟨m, hmc, hd⟩
    · cases hd
      exact hc
    · exact hm m hmc d hd

/-! ## encoded slots -/

namespace Encoding
open Layout

theorem slot?_optional {items : List Json} {i : Nat} {t : Option Json}
    (h : items[i]? = some (optional t)) (ht : t ≠ some .null) : slot? items i = t := by
  unfold slot?
  rw [h]
  cases t with
  | none => rfl
  | some u =>
    cases u with
    | null => exact absurd rfl ht
    | _ => rfl

theorem slot?_present {items : List Json} {i : Nat} {t : Json} (h : items[i]? = some t)
    (ht : t ≠ .null) : slot? items i = some t :=
  slot?_optional (t := some t) h fun ht' => ht (Option.some.inj ht')

theorem array_ne_null (ts : List Json) : Json.array ts ≠ .null := nofun

theorem slot?_string {items : List Json} {i : Nat} {x : String} (h : items[i]? = some (.string x)) :
    slot? items i = some (.string x) := slot?_present h nofun

theorem slot?_array {items : List Json} {i : Nat} {ts : List Json}
    (h : items[i]? = some (.array ts)) : slot? items i = some (.array ts) := slot?_present h (array_ne_null ts)

theorem slot?_number {items : List Json} {i : Nat} {n : Number} (h : items[i]? = some (.number n)) :
    slot? items i = some (.number n) := slot?_present h nofun

theorem slot?_text? {items : List Json} {i : Nat} {x : Option String}
    (h : items[i]? = some (text? x)) : slot? items i = Option.map .string x :=
  slot?_optional h (by cases x <;> exact nofun)

section
variable {β : Type} {P : Json → β → Prop} {g : β → Json}

theorem isList_map {xs : List β} (h : ∀ x ∈ xs, P (g x) x) : IsList P (.array (xs.map g)) xs := by
  refine .mk ?_
  rw [List.forall₂_map_left_iff, List.forall₂_same]
  exact h

theorem rel_optional {items : List Json} {i : Nat} {o : Option β}
    (hs : items[i]? = some (optional (o.map g))) (hg : ∀ x, g x ≠ .null)
    (h : ∀ x ∈ o, P (g x) x) : Option.Rel P (slot? items i) o := by
  cases o with
  | none =>
    rw [slot?_optional hs nofun]
    exact .none
  | some x =>
    rw [slot?_present hs (hg x)]
    exact .some (h x rfl)

end

theorem operator_ne_null (op : String) : operator op ≠ .null := by
  unfold operator
  split <;> exact nofun

theorem isOperator {op : String} (h : ∃ stem, op = stem ++ "=") : IsOperator (operator op) op := by
  obtain ⟨x, rfl⟩ := h
  unfold operator
  split
  · rename_i hx
    rw [hx]
    exact .plain
  · have hs : stem (x ++ "=") = x := by
      rw [stem, String.toList_append, show "=".toList = ['='] from rfl, List.dropLast_concat,
        String.ofList_toList]
    rw [hs]
    exact .compound

theorem accessor_ne_null (a : Accessor) : accessor a ≠ .null := by
  cases a <;> exact nofun

theorem isAccessor (a : Accessor) : IsAccessor (accessor a) a := by
  cases a
  · exact .get
  · exact .set

section
variable {α : Type} {R : Json → α → Prop} {e : α → Json}

theorem isBinding (hn : ∀ x, e x ≠ .null) {b : Binding α} (h : ∀ x ∈ b.init, R (e x) x) :
    IsBinding R (binding (b.map e)) b :=
  .mk (slot?_string rfl) (rel_optional rfl hn h)

theorem isProperty (hn : ∀ x, e x ≠ .null) {p : Property α} (h : R (e p.value) p.value) :
    IsProperty R (property (p.map e)) p := by
  refine .mk (slot?_string rfl) .text (slot?_present rfl (hn p.value)) h ?_
  exact rel_optional rfl accessor_ne_null fun a _ => isAccessor a

theorem isCase (hn : ∀ x, e x ≠ .null) {c : Case α}
    (h : ∀ x, x ∈ c.test ∨ x ∈ c.body → R (e x) x) : IsCase R (switchCase (c.map e)) c :=
  .mk (rel_optional rfl hn fun x hx => h x (.inl hx)) (slot?_array rfl)
    (isList_map fun x hx => h x (.inr hx))

theorem isHandler {c : Handler α} (h : ∀ x ∈ c.body, R (e x) x) :
    IsHandler R (handler (c.map e)) c :=
  .mk (slot?_string rfl) (slot?_array rfl) (isList_map h)

/-- the slots of an encoded construct are those of the row of its tag -/
theorem row_encode (hn : ∀ x, e x ≠ .null) {c : Construct α} (hc : c.IsProper)
    (h : ∀ x ∈ c.children, R (e x) x) :
    ∃ (tag : Tag) (slots : List Json), construct (c.map e) = tagged tag slots ∧
      Row R tag (.string tag.spelling :: slots) c := by
  have one {s : List Json} {i : Nat} {x : α} (hs : s[i]? = some (e x)) :
      slot? s i = some (e x) := slot?_present hs (hn x)
  cases c with
  | program body => exact ⟨.toplevel, _, rfl, .toplevel (slot?_array rfl) (isList_map h)⟩
  | function form name params body =>
    cases form with
    | declaration =>
      exact ⟨.defun, _, rfl,
        .defun (slot?_text? rfl) (slot?_array rfl) (slot?_array rfl) (isList_map h)⟩
    | expression =>
      exact ⟨.function, _, rfl,
        .function (slot?_text? rfl) (slot?_array rfl) (slot?_array rfl) (isList_map h)⟩
  | returns value =>
    have hv : ∀ x ∈ value, R (e x) x := fun x hx => h x (Option.mem_toList.2 hx)
    exact ⟨.returns, _, rfl, .returns (rel_optional rfl hn hv)⟩
  | vars bindings =>
    refine ⟨.vars, _, rfl, .vars (slot?_array rfl) ?_⟩
    rw [List.map_map]
    exact isList_map fun b hb => isBinding hn fun x hx => h x (Construct.mem_children_vars hb hx)
  | statement x => exact ⟨.stat, _, rfl, .stat (one rfl) (h x (by simp [Construct.children]))⟩
  | literal value =>
    cases value with
    | number x =>
      have hx : number x = .number (.double x hc) := dif_pos hc
      exact ⟨.num, _, rfl, .num (n := .double x hc) (slot?_number (congrArg some hx))⟩
    | string x => exact ⟨.string, _, rfl, .string (slot?_string rfl)⟩
  | identifier name => exact ⟨.name, _, rfl, .name (slot?_string rfl)⟩
  | binary op l r =>
    have hl := h l (by simp [Construct.children])
    have hr := h r (by simp [Construct.children])
    exact ⟨.binary, _, rfl, .binary (slot?_string rfl) (one rfl) hl (one rfl) hr⟩
  | array elements => exact ⟨.array, _, rfl, .array (slot?_array rfl) (isList_map h)⟩
  | call callee args =>
    have h₁ := h callee List.mem_cons_self
    have h₂ := fun x hx => h x (List.mem_cons_of_mem _ hx)
    exact ⟨.call, _, rfl, .call (one rfl) h₁ (slot?_array rfl) (isList_map h₂)⟩
  | regex pattern flags =>
    have hf : slot? [.string Tag.regexp.spelling, .string pattern, .string flags] 2 =
      Option.map .string (some flags) := slot?_string rfl
    exact ⟨.regexp, _, rfl, .regexp (slot?_string rfl) hf⟩
  | object properties =>
    refine ⟨.object, _, rfl, .object (slot?_array rfl) ?_⟩
    rw [List.map_map]
    exact isList_map fun p hp => isProperty hn (h p.value (Construct.mem_children_object hp))
  | block body =>
    refine ⟨.block, _, rfl, .block (?_ : Option.Rel (IsList R) _ (some body))⟩
    rw [slot?_array rfl]
    exact .some (isList_map h)
  | ifElse c t x =>
    have h₁ := h c (by simp [Construct.children])
    have h₂ := h t (by simp [Construct.children])
    have h₃ : ∀ y ∈ x, R (e y) y := fun y hy => h y (Construct.mem_children_alternate hy)
    exact ⟨.ifElse, _, rfl, .ifElse (one rfl) h₁ (one rfl) h₂ (rel_optional rfl hn h₃)⟩
  | assignment op t v =>
    have h₁ := h t (by simp [Construct.children])
    have h₂ := h v (by simp [Construct.children])
    exact ⟨.assign, _, rfl,
      .assign (slot?_present rfl (operator_ne_null op)) (isOperator hc) (one rfl) h₁ (one rfl) h₂⟩
  | unaryPrefix op x =>
    exact ⟨.unaryPrefix, _, rfl,
      .unaryPrefix (slot?_string rfl) (one rfl) (h x (by simp [Construct.children]))⟩
  | unaryPostfix op x =>
    exact ⟨.unaryPostfix, _, rfl,
      .unaryPostfix (slot?_string rfl) (one rfl) (h x (by simp [Construct.children]))⟩
  | new c args =>
    have h₁ := h c List.mem_cons_self
    have h₂ := fun x hx => h x (List.mem_cons_of_mem _ hx)
    refine ⟨.new, _, rfl, .new (one rfl) h₁ (?_ : Option.Rel (IsList R) _ (some args))⟩
    rw [slot?_array rfl]
    exact .some (isList_map h₂)
  | member o name =>
    exact ⟨.dot, _, rfl, .dot (one rfl) (h o (by simp [Construct.children])) (slot?_string rfl)⟩
  | index o i =>
    have h₁ := h o (by simp [Construct.children])
    have h₂ := h i (by simp [Construct.children])
    exact ⟨.sub, _, rfl, .sub (one rfl) h₁ (one rfl) h₂⟩
  | tryCatch body hd fin =>
    have h₁ : ∀ x ∈ body, R (e x) x := fun x hx => h x (List.mem_append_left _ hx)
    have h₂ : ∀ c ∈ hd, ∀ x ∈ c.body, R (e x) x := fun c hc x hx =>
      h x (Construct.mem_children_handler hc hx)
    have h₃ : ∀ xs ∈ fin, ∀ x ∈ xs, R (e x) x := fun xs hxs x hx =>
      h x (Construct.mem_children_finalizer hxs hx)
    refine ⟨.tryCatch, _, rfl, ?_⟩
    rw [Option.map_map, Option.map_map]
    exact .tryCatch (slot?_array rfl) (isList_map h₁)
      (rel_optional rfl (fun _ => array_ne_null _) fun c hc => isHandler (h₂ c hc))
      (rel_optional rfl (fun _ => array_ne_null _) fun xs hxs => isList_map (h₃ xs hxs))
  | throws v => exact ⟨.throws, _, rfl, .throws (one rfl) (h v (by simp [Construct.children]))⟩
  | whileLoop c b =>
    have h₁ := h c (by simp [Construct.children])
    have h₂ := h b (by simp [Construct.children])
    exact ⟨.whileLoop, _, rfl, .whileLoop (one rfl) h₁ (one rfl) h₂⟩
  | doWhile c b =>
    have h₁ := h c (by simp [Construct.children])
    have h₂ := h b (by simp [Construct.children])
    exact ⟨.doWhile, _, rfl, .doWhile (one rfl) h₁ (one rfl) h₂⟩
  | switch d cases =>
    have h₁ := h d List.mem_cons_self
    refine ⟨.switch, _, rfl, .switch (one rfl) h₁ (slot?_array rfl) ?_⟩
    rw [List.map_map]
    exact isList_map fun c hc => isCase hn fun x hx => h x (Construct.mem_children_switch hc hx)
  | forLoop i c u b =>
    have h₁ : ∀ x ∈ i, R (e x) x := fun x hx => h x (Construct.mem_children_init hx)
    have h₂ : ∀ x ∈ c, R (e x) x := fun x hx => h x (Construct.mem_children_condition hx)
    have h₃ : ∀ x ∈ u, R (e x) x := fun x hx => h x (Construct.mem_children_update hx)
    have h₄ := h b (Construct.mem_children_loopBody i c u b)
    exact ⟨.forLoop, _, rfl, .forLoop (rel_optional rfl hn h₁) (rel_optional rfl hn h₂)
      (rel_optional rfl hn h₃) (one rfl) h₄⟩
  | forIn i l o b =>
    have h₁ := h i (by simp [Construct.children])
    have h₂ := h l (by simp [Construct.children])
    have h₃ := h o (by simp [Construct.children])
    have h₄ := h b (by simp [Construct.children])
    exact ⟨.forIn, _, rfl, .forIn (one rfl) h₁ (one rfl) h₂ (one rfl) h₃ (one rfl) h₄⟩
  | sequence es =>
    refine ⟨.seq, _, rfl, .seq ?_⟩
    rw [List.drop_succ_cons, List.drop_zero, List.forall₂_map_left_iff, List.forall₂_same]
    exact h
  | ternary c t x =>
    have h₁ := h c (by simp [Construct.children])
    have h₂ := h t (by simp [Construct.children])
    have h₃ := h x (by simp [Construct.children])
    exact ⟨.conditional, _, rfl, .conditional (one rfl) h₁ (one rfl) h₂ (one rfl) h₃⟩
  | breaks label => exact ⟨.breaks, _, rfl, .breaks (slot?_text? rfl)⟩
  | continues label => exact ⟨.continues, _, rfl, .continues (slot?_text? rfl)⟩
  | labeled label b =>
    exact ⟨.label, _, rfl, .label (slot?_string rfl) (one rfl) (h b (by simp [Construct.children]))⟩

end
end Encoding

/-! ## round trip -/

namespace Node
open Layout

theorem decodes_encode (n : Node) (h : n.Regular) : Decodes n.encode n := by
  induction n using induct with
  | h c ih =>
    obtain ⟨hc, hm⟩ := (regular_mk c).1 h
    obtain ⟨tag, slots, he, hr⟩ :=
      Encoding.row_encode (R := Decodes) encode_ne_null hc fun m hmc => ih m hmc (hm m hmc)
    rw [encode_mk, he]
    exact .mk hr

theorem isProper_of_row {R : Json → Node → Prop} {tag : Tag} {s : List Json} {c : Construct Node}
    (h : Row R tag s c) : c.IsProper := by
  cases h with
  | num _ => exact Number.isFinite_toDouble _
  | assign _ hop =>
    cases hop with
    | plain => exact ⟨"", rfl⟩
    | compound => exact ⟨_, rfl⟩
  | _ => trivial

theorem regular_of_decodes {t : Json} {n : Node} (h : Decodes t n) : n.Regular := by
  refine h.induct (P := fun _ n => n.Regular) fun tag slots c hr => ?_
  refine (regular_mk c).2 ⟨isProper_of_row hr, fun m hm => ?_⟩
  obtain ⟨_, hm⟩ := hr.exists_rel hm
  exact hm

/-- **Decoding inverts encoding, and its image is the regular nodes.** -/
theorem decode_encode_regular :
    (∀ n : Node, n.Regular → (decode n.encode).result = .ok n) ∧
    (∀ (t : Json) (n : Node), (decode t).result = .ok n → n.Regular) ∧
    (∀ n : Node, (∃ t, (decode t).result = .ok n) ↔ n.Regular) := by
  have encoded (n : Node) (h : n.Regular) : (decode n.encode).result = .ok n :=
    decode_of_decodes (decodes_encode n h)
  have regular (t : Json) (n : Node) (h : (decode t).result = .ok n) : n.Regular :=
    regular_of_decodes (decodes_of_decode h)
  exact ⟨encoded, regular, fun n => ⟨fun ⟨t, h⟩ => regular t n h, fun h => ⟨_, encoded n h⟩⟩⟩

/-- `x += -0.0` -/
def negativeZeroAdded : Node :=
  .mk (.assignment "+=" (.mk (.identifier "x")) (.mk (.literal (.number ⟨true, 0, by decide⟩))))

/-- a tree of it that is not canonical: the last slot is surplus -/
def negativeZeroAddedTree : Json :=
  .array [.string "assign", .string "+", .array [.string "name", .string "x"],
    .array [.string "num", .number (.double ⟨true, 0, by decide⟩ rfl)], .bool false]

/-- the round trip at a compound assignment of a negative zero, from both sides -/
theorem decode_encode_negativeZeroAdded :
    negativeZeroAdded.Regular ∧
    (decode negativeZeroAdded.encode).result = .ok negativeZeroAdded ∧
    (decode negativeZeroAddedTree).result = .ok negativeZeroAdded ∧
    ∃ t, (decode t).result = .ok negativeZeroAdded := by
  have ht : (decode negativeZeroAddedTree).result = .ok negativeZeroAdded := rfl
  have hr := decode_encode_regular.2.1 _ _ ht
  exact ⟨hr, decode_encode_regular.1 _ hr, ht, (decode_encode_regular.2.2 _).2 hr⟩

end Node

end TagTree
