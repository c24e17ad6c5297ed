import TagTree.Kind
import TagTree.Binary64

/-!
# Constructs: one layer of syntax

`Construct α` is one node of a syntax tree whose children are of type `α`.  What is done with a
whole tree is said once per layer and carried to the tree by a fold.

* `Construct.map_map`        mapping the children twice is mapping them once;
* `Construct.map_congr`      only the values at the children count;
* `Construct.children_map`   the children of a mapped construct are the mapped children.
-/

namespace TagTree

inductive FunctionForm where
  | declaration
  | expression
deriving DecidableEq

inductive Accessor where
  | get
  | set
deriving DecidableEq

inductive Literal where
  | number (x : Binary64)
  | string (s : String)
deriving DecidableEq

/-- one name of a variable declaration -/
structure Binding (α : Type) where
  name : String
  init : Option α

/-- one entry of an object literal; an accessor holds its function as value -/
structure Property (α : Type) where
  key : String
  value : α
  accessor : Option Accessor

/-- one branch of a switch; without a test it is the default -/
structure Case (α : Type) where
  test : Option α
  body : List α

/-- the catch clause of a try -/
structure Handler (α : Type) where
  param : String
  body : List α

inductive Construct (α : Type) where
  | program (body : List α)
  | function (form : FunctionForm) (name : Option String) (params : List String) (body : List α)
  | returns (value : Option α)
  | vars (bindings : List (Binding α))
  | statement (expression : α)
  | literal (value : Literal)
  | identifier (name : String)
  | binary (operator : String) (left right : α)
  | array (elements : List α)
  | call (callee : α) (arguments : List α)
  | regex (pattern flags : String)
  | object (properties : List (Property α))
  | block (body : List α)
  | ifElse (condition consequent : α) (alternate : Option α)
  | assignment (operator : String) (target value : α)
  | unaryPrefix (operator : String) (operand : α)
  | unaryPostfix (operator : String) (operand : α)
  | new (constructor : α) (arguments : List α)
  | member (object : α) (name : String)
  | index (object index : α)
  | tryCatch (body : List α) (handler : Option (Handler α)) (finalizer : Option (List α))
  | throws (value : α)
  | whileLoop (condition body : α)
  | doWhile (condition body : α)
  | switch (discriminant : α) (cases : List (Case α))
  | forLoop (init condition update : Option α) (body : α)
  | forIn (init lhs object body : α)
  | sequence (expressions : List α)
  | ternary (condition consequent alternate : α)
  | breaks (label : Option String)
  | continues (label : Option String)
  | labeled (label : String) (body : α)

/-! ## one layer -/

section
variable {α β γ : Type}

def Binding.map (f : α → β) (b : Binding α) : Binding β := ⟨b.name, b.init.map f⟩
def Property.map (f : α → β) (p : Property α) : Property β := ⟨p.key, f p.value, p.accessor⟩
def Case.map (f : α → β) (c : Case α) : Case β := ⟨c.test.map f, c.body.map f⟩
def Handler.map (f : α → β) (h : Handler α) : Handler β := ⟨h.param, h.body.map f⟩

namespace Construct

def map (f : α → β) : Construct α → Construct β
  | .program body => .program (body.map f)
  | .function form name params body => .function form name params (body.map f)
  | .returns value => .returns (value.map f)
  | .vars bindings => .vars (bindings.map (Binding.map f))
  | .statement e => .statement (f e)
  | .literal value => .literal value
  | .identifier name => .identifier name
  | .binary op l r => .binary op (f l) (f r)
  | .array elements => .array (elements.map f)
  | .call callee args => .call (f callee) (args.map f)
  | .regex pattern flags => .regex pattern flags
  | .object properties => .object (properties.map (Property.map f))
  | .block body => .block (body.map f)
  | .ifElse c t e => .ifElse (f c) (f t) (e.map f)
  | .assignment op t v => .assignment op (f t) (f v)
  | .unaryPrefix op x => .unaryPrefix op (f x)
  | .unaryPostfix op x => .unaryPostfix op (f x)
  | .new c args => .new (f c) (args.map f)
  | .member o name => .member (f o) name
  | .index o i => .index (f o) (f i)
  | .tryCatch body h fin => .tryCatch (body.map f) (h.map (Handler.map f)) (fin.map (List.map f))
  | .throws v => .throws (f v)
  | .whileLoop c b => .whileLoop (f c) (f b)
  | .doWhile c b => .doWhile (f c) (f b)
  | .switch d cases => .switch (f d) (cases.map (Case.map f))
  | .forLoop i c u b => .forLoop (i.map f) (c.map f) (u.map f) (f b)
  | .forIn i l o b => .forIn (f i) (f l) (f o) (f b)
  | .sequence es => .sequence (es.map f)
  | .ternary c t e => .ternary (f c) (f t) (f e)
  | .breaks label => .breaks label
  | .continues label => .continues label
  | .labeled label b => .labeled label (f b)

def kind : Construct α → Kind
  | .program _ => .program
  | .function .. => .function
  | .returns _ => .returns
  | .vars _ => .vars
  | .statement _ => .statement
  | .literal _ => .literal
  | .identifier _ => .identifier
  | .binary .. => .binary
  | .array _ => .array
  | .call .. => .call
  | .regex .. => .regex
  | .object _ => .object
  | .block _ => .block
  | .ifElse .. => .ifElse
  | .assignment .. => .assignment
  | .unaryPrefix .. => .unaryPrefix
  | .unaryPostfix .. => .unaryPostfix
  | .new .. => .new
  | .member .. => .member
  | .index .. => .member
  | .tryCatch .. => .tryCatch
  | .throws _ => .throws
  | .whileLoop .. => .whileLoop
  | .doWhile .. => .doWhile
  | .switch .. => .switch
  | .forLoop .. => .forLoop
  | .forIn .. => .forIn
  | .sequence _ => .sequence
  | .ternary .. => .ternary
  | .breaks _ => .breaks
  | .continues _ => .continues
  | .labeled .. => .labeled

/-- all children, also those inside bindings, properties, cases and the handler, in the order
of the fields -/
def children : Construct α → List α
  | .program body | .function _ _ _ body | .block body => body
  | .returns value => value.toList
  | .vars bindings => bindings.flatMap (·.init.toList)
  | .statement e => [e]
  | .literal _ | .identifier _ | .regex _ _ | .breaks _ | .continues _ => []
  | .binary _ l r => [l, r]
  | .array elements => elements
  | .call callee args => callee :: args
  | .object properties => properties.map (·.value)
  | .ifElse c t e => c :: t :: e.toList
  | .assignment _ t v => [t, v]
  | .unaryPrefix _ x | .unaryPostfix _ x => [x]
  | .new c args => c :: args
  | .member o _ => [o]
  | .index o i => [o, i]
  | .tryCatch body h fin => body ++ (h.toList.flatMap (·.body) ++ fin.getD [])
  | .throws v => [v]
  | .whileLoop c b | .doWhile c b => [c, b]
  | .switch d cases => d :: cases.flatMap fun c => c.test.toList ++ c.body
  | .forLoop i c u b => i.toList ++ (c.toList ++ (u.toList ++ [b]))
  | .forIn i l o b => [i, l, o, b]
  | .sequence es => es
  | .ternary c t e => [c, t, e]
  | .labeled _ b => [b]

@[simp] theorem kind_map (f : α → β) (c : Construct α) : (c.map f).kind = c.kind := by
  cases c <;> rfl

/-! ### children inside optional fields, bindings, properties, handlers and cases -/

section
variable {x : α}

theorem mem_children_vars {bs : List (Binding α)} {b : Binding α} (hb : b ∈ bs) (hx : x ∈ b.init) :
    x ∈ (vars bs).children :=
  List.mem_flatMap.2 ⟨b, hb, Option.mem_toList.2 hx⟩

theorem mem_children_object {ps : List (Property α)} {p : Property α} (hp : p ∈ ps) :
    p.value ∈ (object ps).children :=
  List.mem_map_of_mem hp

theorem mem_children_alternate {c t : α} {e : Option α} (hx : x ∈ e) :
    x ∈ (ifElse c t e).children :=
  List.mem_cons_of_mem _ (List.mem_cons_of_mem _ (Option.mem_toList.2 hx))

theorem mem_children_handler {body : List α} {handler : Option (Handler α)} {fin : Option (List α)}
    {i : Handler α} (hi : i ∈ handler) (hx : x ∈ i.body) :
    x ∈ (tryCatch body handler fin).children := by
  refine List.mem_append_right _ (List.mem_append_left _ ?_)
  exact List.mem_flatMap.2 ⟨i, Option.mem_toList.2 hi, hx⟩

theorem mem_children_finalizer {body : List α} {handler : Option (Handler α)}
    {fin : Option (List α)} {l : List α} (hl : l ∈ fin) (hx : x ∈ l) :
    x ∈ (tryCatch body handler fin).children := by
  cases hl
  exact List.mem_append_right _ (List.mem_append_right _ hx)

theorem mem_children_switch {d : α} {cs : List (Case α)} {c : Case α} (hc : c ∈ cs)
    (hx : x ∈ c.test ∨ x ∈ c.body) : x ∈ (switch d cs).children := by
  refine List.mem_cons_of_mem _ (List.mem_flatMap.2 ⟨c, hc, List.mem_append.2 ?_⟩)
  rw [Option.mem_toList]
  exact hx

theorem mem_children_init {i c u : Option α} {b : α} (hx : x ∈ i) :
    x ∈ (forLoop i c u b).children :=
  List.mem_append_left _ (Option.mem_toList.2 hx)

theorem mem_children_condition {i c u : Option α} {b : α} (hx : x ∈ c) :
    x ∈ (forLoop i c u b).children :=
  List.mem_append_right _ (List.mem_append_left _ (Option.mem_toList.2 hx))

theorem mem_children_update {i c u : Option α} {b : α} (hx : x ∈ u) :
    x ∈ (forLoop i c u b).children := by
  refine List.mem_append_right _ (List.mem_append_right _ (List.mem_append_left _ ?_))
  exact Option.mem_toList.2 hx

theorem mem_children_loopBody (i c u : Option α) (b : α) : b ∈ (forLoop i c u b).children :=
  List.mem_append_right _ (List.mem_append_right _ (List.mem_append_right _ List.mem_cons_self))

end
end Construct

theorem Binding.map_map (g : β → γ) (f : α → β) (b : Binding α) :
    (b.map f).map g = b.map (g ∘ f) := by
  simp [Binding.map]

theorem Property.map_map (g : β → γ) (f : α → β) (p : Property α) :
    (p.map f).map g = p.map (g ∘ f) := rfl

theorem Case.map_map (g : β → γ) (f : α → β) (c : Case α) :
    (c.map f).map g = c.map (g ∘ f) := by
  simp [Case.map]

theorem Handler.map_map (g : β → γ) (f : α → β) (h : Handler α) :
    (h.map f).map g = h.map (g ∘ f) := by
  simp [Handler.map]

theorem Construct.map_map (g : β → γ) (f : α → β) (c : Construct α) :
    (c.map f).map g = c.map (g ∘ f) := by
  cases c <;>
    simp [Construct.map, Function.comp_def, Binding.map_map, Property.map_map, Case.map_map,
      Handler.map_map]

theorem Construct.map_id (c : Construct α) : c.map id = c := by
  have hb : (Binding.map id : Binding α → Binding α) = id := by
    funext b; cases b with | mk n i => cases i <;> rfl
  have hp : (Property.map id : Property α → Property α) = id := rfl
  have hc : (Case.map id : Case α → Case α) = id := by
    funext c; cases c with | mk t b => simp [Case.map]
  have hh : (Handler.map id : Handler α → Handler α) = id := by
    funext h; cases h; simp [Handler.map]
  cases c <;> simp [Construct.map, hb, hp, hc, hh]

theorem Binding.map_congr {f g : α → β} {b : Binding α} (h : ∀ x ∈ b.init, f x = g x) :
    b.map f = b.map g :=
  congrArg (Binding.mk b.name) (Option.map_congr h)

theorem Property.map_congr {f g : α → β} {p : Property α} (h : f p.value = g p.value) :
    p.map f = p.map g :=
  congrArg (fun v => Property.mk p.key v p.accessor) h

theorem Case.map_congr {f g : α → β} {c : Case α} (h : ∀ x, x ∈ c.test ∨ x ∈ c.body → f x = g x) :
    c.map f = c.map g := by
  have ht : c.test.map f = c.test.map g := Option.map_congr fun x hx => h x (.inl hx)
  have hb : c.body.map f = c.body.map g := List.map_congr_left fun x hx => h x (.inr hx)
  rw [Case.map, Case.map, ht, hb]

theorem Handler.map_congr {f g : α → β} {h : Handler α} (hb : ∀ x ∈ h.body, f x = g x) :
    h.map f = h.map g :=
  congrArg (Handler.mk h.param) (List.map_congr_left hb)

theorem Construct.map_congr {f g : α → β} {c : Construct α} (h : ∀ x ∈ c.children, f x = g x) :
    c.map f = c.map g := by
  have option {x : Option α} (hx : ∀ y ∈ x, y ∈ c.children) : x.map f = x.map g :=
    Option.map_congr fun y hy => h y (hx y hy)
  cases c with
  | returns value => exact congrArg returns (option fun y hy => Option.mem_toList.2 hy)
  | vars bindings =>
    exact congrArg vars (List.map_congr_left fun b hb =>
      Binding.map_congr fun x hx => h x (mem_children_vars hb hx))
  | object properties =>
    exact congrArg object (List.map_congr_left fun p hp =>
      Property.map_congr (h p.value (mem_children_object hp)))
  | ifElse c t e =>
    have hc : f c = g c := h c List.mem_cons_self
    have ht : f t = g t := h t (List.mem_cons_of_mem _ List.mem_cons_self)
    have he : e.map f = e.map g := option fun y hy => mem_children_alternate hy
    rw [map, map, hc, ht, he]
  | tryCatch body handler fin =>
    have hbody : body.map f = body.map g :=
      List.map_congr_left fun x hx => h x (List.mem_append_left _ hx)
    have hhandler : handler.map (Handler.map f) = handler.map (Handler.map g) :=
      Option.map_congr fun i hi =>
        Handler.map_congr fun x hx => h x (mem_children_handler hi hx)
    have hfin : fin.map (List.map f) = fin.map (List.map g) :=
      Option.map_congr fun l hl =>
        List.map_congr_left fun x hx => h x (mem_children_finalizer hl hx)
    rw [map, map, hbody, hhandler, hfin]
  | switch d cases =>
    have hd : f d = g d := h d List.mem_cons_self
    have hcases : cases.map (Case.map f) = cases.map (Case.map g) :=
      List.map_congr_left fun c hc =>
        Case.map_congr fun x hx => h x (mem_children_switch hc hx)
    rw [map, map, hd, hcases]
  | forLoop i c u b =>
    have hi : i.map f = i.map g := option fun y hy => mem_children_init hy
    have hc : c.map f = c.map g := option fun y hy => mem_children_condition hy
    have hu : u.map f = u.map g := option fun y hy => mem_children_update hy
    rw [map, map, hi, hc, hu, h b (mem_children_loopBody i c u b)]
  | _ => simp_all [children, map]

theorem Construct.children_map (f : α → β) (c : Construct α) :
    (c.map f).children = c.children.map f := by
  have option (x : Option α) : (x.map f).toList = x.toList.map f := by cases x <;> rfl
  cases c with
  | tryCatch body handler fin =>
    cases handler <;> cases fin <;> simp [Construct.map, Construct.children, Handler.map]
  | _ =>
    simp [Construct.map, Construct.children, List.flatMap_map, List.map_flatMap, Binding.map,
      Property.map, Case.map, option]

end

end TagTree
