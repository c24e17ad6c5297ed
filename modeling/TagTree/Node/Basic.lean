import TagTree.Construct

/-!
# Syntax nodes

A node is a construct whose children are nodes.

* `Node.para_mk`   a fold with access to the children sees each child and its result;
* `Node.fold_mk`   a fold is the layer's function after the fold of the children;
* `Node.induct`    to prove a property of all nodes, prove it of a node whose children have it.
-/

namespace TagTree

inductive Node where
  | mk (construct : Construct Node)

namespace Node

def construct : Node → Construct Node
  | .mk c => c

def kind (n : Node) : Kind := n.construct.kind

def identifier? (n : Node) : Option String :=
  match n.construct with
  | .identifier name => some name
  | _ => none

section
variable {β : Type}

mutual

/-- the result of a layer function that is given every child with its own result -/
def para (layer : Construct (Node × β) → β) : Node → β
  | .mk c => layer (paraConstruct layer c)

def paraConstruct (layer : Construct (Node × β) → β) : Construct Node → Construct (Node × β)
  | .program body => .program (paraList layer body)
  | .function form name params body => .function form name params (paraList layer body)
  | .returns value => .returns (paraOption layer value)
  | .vars bindings => .vars (paraBindings layer bindings)
  | .statement e => .statement (e, para layer e)
  | .literal value => .literal value
  | .identifier name => .identifier name
  | .binary op l r => .binary op (l, para layer l) (r, para layer r)
  | .array elements => .array (paraList layer elements)
  | .call callee args => .call (callee, para layer callee) (paraList layer args)
  | .regex pattern flags => .regex pattern flags
  | .object properties => .object (paraProperties layer properties)
  | .block body => .block (paraList layer body)
  | .ifElse c t e => .ifElse (c, para layer c) (t, para layer t) (paraOption layer e)
  | .assignment op t v => .assignment op (t, para layer t) (v, para layer v)
  | .unaryPrefix op x => .unaryPrefix op (x, para layer x)
  | .unaryPostfix op x => .unaryPostfix op (x, para layer x)
  | .new c args => .new (c, para layer c) (paraList layer args)
  | .member o name => .member (o, para layer o) name
  | .index o i => .index (o, para layer o) (i, para layer i)
  | .tryCatch body h fin =>
    .tryCatch (paraList layer body) (paraHandler layer h) (paraFinalizer layer fin)
  | .throws v => .throws (v, para layer v)
  | .whileLoop c b => .whileLoop (c, para layer c) (b, para layer b)
  | .doWhile c b => .doWhile (c, para layer c) (b, para layer b)
  | .switch d cases => .switch (d, para layer d) (paraCases layer cases)
  | .forLoop i c u b =>
    .forLoop (paraOption layer i) (paraOption layer c) (paraOption layer u) (b, para layer b)
  | .forIn i l o b =>
    .forIn (i, para layer i) (l, para layer l) (o, para layer o) (b, para layer b)
  | .sequence es => .sequence (paraList layer es)
  | .ternary c t e => .ternary (c, para layer c) (t, para layer t) (e, para layer e)
  | .breaks label => .breaks label
  | .continues label => .continues label
  | .labeled label b => .labeled label (b, para layer b)

def paraList (layer : Construct (Node × β) → β) : List Node → List (Node × β)
  | [] => []
  | n :: ns => (n, para layer n) :: paraList layer ns

def paraOption (layer : Construct (Node × β) → β) : Option Node → Option (Node × β)
  | none => none
  | some n => some (n, para layer n)

def paraBindings (layer : Construct (Node × β) → β) :
    List (Binding Node) → List (Binding (Node × β))
  | [] => []
  | ⟨name, init⟩ :: bs => ⟨name, paraOption layer init⟩ :: paraBindings layer bs

def paraProperties (layer : Construct (Node × β) → β) :
    List (Property Node) → List (Property (Node × β))
  | [] => []
  | ⟨key, value, accessor⟩ :: ps =>
    ⟨key, (value, para layer value), accessor⟩ :: paraProperties layer ps

def paraCases (layer : Construct (Node × β) → β) : List (Case Node) → List (Case (Node × β))
  | [] => []
  | ⟨test, body⟩ :: cs => ⟨paraOption layer test, paraList layer body⟩ :: paraCases layer cs

def paraHandler (layer : Construct (Node × β) → β) :
    Option (Handler Node) → Option (Handler (Node × β))
  | none => none
  | some ⟨param, body⟩ => some ⟨param, paraList layer body⟩

def paraFinalizer (layer : Construct (Node × β) → β) :
    Option (List Node) → Option (List (Node × β))
  | none => none
  | some body => some (paraList layer body)

end

/-- the result of a layer function that is given the results for the children -/
def fold (layer : Construct β → β) : Node → β := para fun c => layer (c.map Prod.snd)

/-! ### folds, layer by layer -/

theorem paraList_eq (layer : Construct (Node × β) → β) (ns : List Node) :
    paraList layer ns = ns.map fun n => (n, n.para layer) := by
  induction ns with
  | nil => rfl
  | cons n ns ih => rw [paraList, ih, List.map_cons]

theorem paraOption_eq (layer : Construct (Node × β) → β) (n : Option Node) :
    paraOption layer n = n.map fun n => (n, n.para layer) := by
  cases n <;> rfl

theorem paraBindings_eq (layer : Construct (Node × β) → β) (bs : List (Binding Node)) :
    paraBindings layer bs = bs.map (Binding.map fun n => (n, n.para layer)) := by
  induction bs with
  | nil => rfl
  | cons b bs ih => cases b; simp [paraBindings, ih, Binding.map, paraOption_eq]

theorem paraProperties_eq (layer : Construct (Node × β) → β) (ps : List (Property Node)) :
    paraProperties layer ps = ps.map (Property.map fun n => (n, n.para layer)) := by
  induction ps with
  | nil => rfl
  | cons p ps ih => cases p; simp [paraProperties, ih, Property.map]

theorem paraCases_eq (layer : Construct (Node × β) → β) (cs : List (Case Node)) :
    paraCases layer cs = cs.map (Case.map fun n => (n, n.para layer)) := by
  induction cs with
  | nil => rfl
  | cons c cs ih => cases c; simp [paraCases, ih, Case.map, paraOption_eq, paraList_eq]

theorem paraConstruct_eq (layer : Construct (Node × β) → β) (c : Construct Node) :
    paraConstruct layer c = c.map fun n => (n, n.para layer) := by
  cases c with
  | tryCatch body h fin =>
    cases h <;> cases fin <;>
      simp [paraConstruct, Construct.map, paraList_eq, paraHandler, paraFinalizer, Handler.map]
  | _ =>
    simp [paraConstruct, Construct.map, paraList_eq, paraOption_eq, paraBindings_eq,
      paraProperties_eq, paraCases_eq]

theorem para_mk (layer : Construct (Node × β) → β) (c : Construct Node) :
    (mk c).para layer = layer (c.map fun n => (n, n.para layer)) := by
  rw [para, paraConstruct_eq]

theorem fold_mk (layer : Construct β → β) (c : Construct Node) :
    (mk c).fold layer = layer (c.map (fold layer)) := by
  rw [fold, para_mk, Construct.map_map]
  rfl

end

/-! ### induction -/

theorem sizeOf_lt_of_mem {c : Construct Node} {n : Node} (h : n ∈ c.children) :
    sizeOf n < sizeOf (mk c) := by
  cases c <;> simp [Construct.children] at h <;> simp
  case program body => have := List.sizeOf_lt_of_mem h; omega
  case function form name params body => have := List.sizeOf_lt_of_mem h; omega
  case block body => have := List.sizeOf_lt_of_mem h; omega
  case array elements => have := List.sizeOf_lt_of_mem h; omega
  case sequence es => have := List.sizeOf_lt_of_mem h; omega
  case returns value => subst h; simp; omega
  case vars bs =>
    obtain ⟨b, hb, hi⟩ := h
    have := List.sizeOf_lt_of_mem hb
    cases b
    simp_all
    omega
  case object ps =>
    obtain ⟨p, hp, rfl⟩ := h
    have := List.sizeOf_lt_of_mem hp
    cases p
    simp_all
    omega
  case call callee args =>
    rcases h with rfl | h
    · omega
    · have := List.sizeOf_lt_of_mem h; omega
  case new callee args =>
    rcases h with rfl | h
    · omega
    · have := List.sizeOf_lt_of_mem h; omega
  case switch d cs =>
    rcases h with rfl | ⟨c, hc, h⟩
    · omega
    · have := List.sizeOf_lt_of_mem hc
      cases c
      rcases h with h | h
      · simp_all; omega
      · have := List.sizeOf_lt_of_mem h
        simp_all
        omega
  case tryCatch body handler fin =>
    rcases h with h | ⟨hd, rfl, h⟩ | h
    · have := List.sizeOf_lt_of_mem h; omega
    · have := List.sizeOf_lt_of_mem h
      cases hd
      simp_all
      omega
    · cases fin with
      | none => simp at h
      | some l =>
        have := List.sizeOf_lt_of_mem (by simpa using h : n ∈ l)
        simp
        omega
  case ifElse c t e => rcases h with rfl | rfl | rfl <;> (try simp) <;> omega
  case forLoop i c u b => rcases h with rfl | rfl | rfl | rfl <;> (try simp) <;> omega
  case binary => rcases h with rfl | rfl <;> omega
  case assignment => rcases h with rfl | rfl <;> omega
  case index => rcases h with rfl | rfl <;> omega
  case whileLoop => rcases h with rfl | rfl <;> omega
  case doWhile => rcases h with rfl | rfl <;> omega
  case forIn => rcases h with rfl | rfl | rfl | rfl <;> omega
  case ternary => rcases h with rfl | rfl | rfl <;> omega
  all_goals subst h; omega

/-- a property that passes from the children of a node to the node holds of all nodes -/
theorem induct {P : Node → Prop} (h : ∀ c : Construct Node, (∀ n ∈ c.children, P n) → P (mk c)) :
    ∀ n, P n
  | .mk c => h c fun n _ => induct h n
termination_by n => sizeOf n
decreasing_by exact sizeOf_lt_of_mem ‹_›

end Node
end TagTree
