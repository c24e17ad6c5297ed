import TagTree.Node.Basic

/-!
# Walking a tree

An item is what a walk stops at: a node, or a binding, property, case or handler inside one.  A
visitor is told the kind of every item and then, by the hook of this kind, the item: parents before
children and children in the order of their fields; nothing is left out.

* `Node.walk_mk`   a walk enters the node and then walks its items one after the other.
-/

namespace TagTree

inductive Item (α : Type) where
  | node (n : α)
  | binding (b : Binding α)
  | property (p : Property α)
  | switchCase (c : Case α)
  | handler (h : Handler α)

section
variable {α β : Type}

def Item.map (f : α → β) : Item α → Item β
  | .node n => .node (f n)
  | .binding b => .binding (b.map f)
  | .property p => .property (p.map f)
  | .switchCase c => .switchCase (c.map f)
  | .handler h => .handler (h.map f)

/-- the nodes that a positional item holds; a node stands for itself -/
def Item.nodes : Item α → List α
  | .node n => [n]
  | .binding b => b.init.toList
  | .property p => [p.value]
  | .switchCase c => c.test.toList ++ c.body
  | .handler h => h.body

/-- the items directly below a construct, in the order of its fields -/
def Construct.items : Construct α → List (Item α)
  | .program body | .function _ _ _ body | .block body => body.map .node
  | .returns value => value.toList.map .node
  | .vars bindings => bindings.map .binding
  | .statement e => [.node e]
  | .literal _ | .identifier _ | .regex _ _ | .breaks _ | .continues _ => []
  | .binary _ l r => [.node l, .node r]
  | .array elements => elements.map .node
  | .call callee args => .node callee :: args.map .node
  | .object properties => properties.map .property
  | .ifElse c t e => .node c :: .node t :: e.toList.map .node
  | .assignment _ t v => [.node t, .node v]
  | .unaryPrefix _ x | .unaryPostfix _ x => [.node x]
  | .new c args => .node c :: args.map .node
  | .member o _ => [.node o]
  | .index o i => [.node o, .node i]
  | .tryCatch body h fin =>
    body.map .node ++ (h.toList.map .handler ++ (fin.getD []).map .node)
  | .throws v => [.node v]
  | .whileLoop c b | .doWhile c b => [.node c, .node b]
  | .switch d cases => .node d :: cases.map .switchCase
  | .forLoop i c u b =>
    i.toList.map .node ++ (c.toList.map .node ++ (u.toList.map .node ++ [.node b]))
  | .forIn i l o b => [.node i, .node l, .node o, .node b]
  | .sequence es => es.map .node
  | .ternary c t e => [.node c, .node t, .node e]
  | .labeled _ b => [.node b]

theorem Construct.items_map (f : α → β) (c : Construct α) :
    (c.map f).items = c.items.map (Item.map f) := by
  cases c with
  | tryCatch body h fin =>
    cases h <;> cases fin <;>
      simp [Construct.map, Construct.items, Item.map, Function.comp_def]
  | returns v => cases v <;> simp [Construct.map, Construct.items, Item.map]
  | ifElse c t e => cases e <;> simp [Construct.map, Construct.items, Item.map]
  | forLoop i c u b =>
    cases i <;> cases c <;> cases u <;> simp [Construct.map, Construct.items, Item.map]
  | _ => simp [Construct.map, Construct.items, Item.map]

theorem Item.nodes_map (f : α → β) (i : Item α) : (i.map f).nodes = i.nodes.map f := by
  cases i with
  | binding b => cases hb : b.init <;> simp [Item.map, Item.nodes, Binding.map, hb]
  | switchCase c => cases hc : c.test <;> simp [Item.map, Item.nodes, Case.map, hc]
  | _ => rfl

theorem Item.map_map {γ : Type} (g : β → γ) (f : α → β) (i : Item α) :
    (i.map f).map g = i.map (g ∘ f) := by
  cases i <;> simp [Item.map, Binding.map_map, Property.map_map, Case.map_map, Handler.map_map]

theorem Item.map_id (i : Item α) : i.map id = i := by
  cases i <;> simp [Item.map, Binding.map, Property.map, Case.map, Handler.map]

end

def Item.kind : Item Node → Kind
  | .node n => n.kind
  | .binding _ => .binding
  | .property _ => .property
  | .switchCase _ => .switchCase
  | .handler _ => .handler

/-- the property of a member access: a name, or an index that is computed -/
inductive MemberProperty where
  | named (name : String)
  | computed (index : Node)

/-- What is done with a state of type `σ`: `before` is called for every item, with its kind, and then
the hook of this kind with the parts of the item.  A hook that is not given does nothing. -/
structure Visitor (σ : Type) where
  before : Kind → σ → σ := fun _ s => s
  program : List Node → σ → σ := fun _ s => s
  function : FunctionForm → Option String → List String → List Node → σ → σ := fun _ _ _ _ s => s
  returns : Option Node → σ → σ := fun _ s => s
  vars : List (Binding Node) → σ → σ := fun _ s => s
  binding : Binding Node → σ → σ := fun _ s => s
  statement : Node → σ → σ := fun _ s => s
  literal : Literal → σ → σ := fun _ s => s
  identifier : String → σ → σ := fun _ s => s
  binary : String → Node → Node → σ → σ := fun _ _ _ s => s
  array : List Node → σ → σ := fun _ s => s
  call : Node → List Node → σ → σ := fun _ _ s => s
  regex : String → String → σ → σ := fun _ _ s => s
  object : List (Property Node) → σ → σ := fun _ s => s
  property : Property Node → σ → σ := fun _ s => s
  block : List Node → σ → σ := fun _ s => s
  ifElse : Node → Node → Option Node → σ → σ := fun _ _ _ s => s
  assignment : String → Node → Node → σ → σ := fun _ _ _ s => s
  unaryPrefix : String → Node → σ → σ := fun _ _ s => s
  unaryPostfix : String → Node → σ → σ := fun _ _ s => s
  new : Node → List Node → σ → σ := fun _ _ s => s
  member : Node → MemberProperty → σ → σ := fun _ _ s => s
  tryCatch : List Node → Option (Handler Node) → Option (List Node) → σ → σ := fun _ _ _ s => s
  handler : Handler Node → σ → σ := fun _ s => s
  throws : Node → σ → σ := fun _ s => s
  whileLoop : Node → Node → σ → σ := fun _ _ s => s
  doWhile : Node → Node → σ → σ := fun _ _ s => s
  switch : Node → List (Case Node) → σ → σ := fun _ _ s => s
  switchCase : Case Node → σ → σ := fun _ s => s
  forLoop : Option Node → Option Node → Option Node → Node → σ → σ := fun _ _ _ _ s => s
  forIn : Node → Node → Node → Node → σ → σ := fun _ _ _ _ s => s
  sequence : List Node → σ → σ := fun _ s => s
  ternary : Node → Node → Node → σ → σ := fun _ _ _ s => s
  breaks : Option String → σ → σ := fun _ s => s
  continues : Option String → σ → σ := fun _ s => s
  labeled : String → Node → σ → σ := fun _ _ s => s

section
variable {σ : Type}

/-- the hook of a construct, called with its parts -/
def Visitor.visitConstruct (v : Visitor σ) : Construct Node → σ → σ
  | .program body => v.program body
  | .function form name params body => v.function form name params body
  | .returns value => v.returns value
  | .vars bindings => v.vars bindings
  | .statement e => v.statement e
  | .literal value => v.literal value
  | .identifier name => v.identifier name
  | .binary op l r => v.binary op l r
  | .array elements => v.array elements
  | .call callee args => v.call callee args
  | .regex pattern flags => v.regex pattern flags
  | .object properties => v.object properties
  | .block body => v.block body
  | .ifElse c t e => v.ifElse c t e
  | .assignment op t x => v.assignment op t x
  | .unaryPrefix op x => v.unaryPrefix op x
  | .unaryPostfix op x => v.unaryPostfix op x
  | .new c args => v.new c args
  | .member o name => v.member o (.named name)
  | .index o i => v.member o (.computed i)
  | .tryCatch body h fin => v.tryCatch body h fin
  | .throws x => v.throws x
  | .whileLoop c b => v.whileLoop c b
  | .doWhile c b => v.doWhile c b
  | .switch d cases => v.switch d cases
  | .forLoop i c u b => v.forLoop i c u b
  | .forIn i l o b => v.forIn i l o b
  | .sequence es => v.sequence es
  | .ternary c t e => v.ternary c t e
  | .breaks label => v.breaks label
  | .continues label => v.continues label
  | .labeled label b => v.labeled label b

def Visitor.visit (v : Visitor σ) : Item Node → σ → σ
  | .node n => v.visitConstruct n.construct
  | .binding b => v.binding b
  | .property p => v.property p
  | .switchCase c => v.switchCase c
  | .handler h => v.handler h

def Visitor.enter (v : Visitor σ) (i : Item Node) (s : σ) : σ := v.visit i (v.before i.kind s)

/-- the walk of an item, given the walks of the nodes it holds -/
def Visitor.step (v : Visitor σ) (i : Item (Node × (σ → σ))) (s : σ) : σ :=
  match i with
  | .node n => n.2 s
  | i => i.nodes.foldl (fun s n => n.2 s) (v.enter (i.map Prod.fst) s)

/-- the walk of a node, given the walks of its children -/
def Visitor.layer (v : Visitor σ) (c : Construct (Node × (σ → σ))) (s : σ) : σ :=
  c.items.foldl (fun s i => v.step i s) (v.enter (.node (.mk (c.map Prod.fst))) s)

def Node.walk (v : Visitor σ) : Node → σ → σ := Node.para v.layer

def Item.walk (v : Visitor σ) : Item Node → σ → σ
  | .node n, s => n.walk v s
  | i, s => i.nodes.foldl (fun s n => n.walk v s) (v.enter i s)

theorem Visitor.step_map (v : Visitor σ) (i : Item Node) (s : σ) :
    v.step (i.map fun n => (n, n.walk v)) s = i.walk v s := by
  have inner (i : Item Node) :
      (i.map fun n => (n, n.walk v)).nodes.foldl (fun s n => n.2 s)
        (v.enter ((i.map fun n => (n, n.walk v)).map Prod.fst) s) =
      i.nodes.foldl (fun s n => n.walk v s) (v.enter i s) := by
    rw [Item.nodes_map, Item.map_map, List.foldl_map]
    rw [show (Prod.fst ∘ fun n : Node => (n, n.walk v)) = id from rfl, Item.map_id]
  cases i with
  | node n => rfl
  | binding b => exact inner (.binding b)
  | property p => exact inner (.property p)
  | switchCase c => exact inner (.switchCase c)
  | handler h => exact inner (.handler h)

theorem Node.walk_mk (v : Visitor σ) (c : Construct Node) (s : σ) :
    (Node.mk c).walk v s =
      c.items.foldl (fun s i => i.walk v s) (v.enter (.node (.mk c)) s) := by
  have hc : c.map (Prod.fst ∘ fun n : Node => (n, n.para v.layer)) = c := c.map_id
  rw [Node.walk, Node.para_mk, Visitor.layer, Construct.items_map, List.foldl_map,
    Construct.map_map, hc]
  congr 1
  funext s i
  exact v.step_map i s

def walkAll (v : Visitor σ) (ns : List Node) (s : σ) : σ := ns.foldl (fun s n => n.walk v s) s

end

/-- records the kinds that it is told, the last one first -/
def kindTrace : Visitor (List Kind) := { before := fun k ks => k :: ks }

theorem kindTrace_enter (i : Item Node) (ks : List Kind) :
    kindTrace.enter i ks = i.kind :: ks := by
  cases i with
  | node n =>
    obtain ⟨c⟩ := n
    cases c <;> rfl
  | _ => rfl

/-- the kinds that a walk passes, in order -/
def Node.kinds (n : Node) : List Kind := (n.walk kindTrace []).reverse

end TagTree
