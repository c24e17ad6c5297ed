import TagTree.Log.Entry
import TagTree.Proofs.KindFields

/-!
# The events of decoding are the nodes of a walk

Every node is told of once, under the tag of its construct, and before its children.  The readers of
texts and numbers leave no events, and those of children leave the events of the children they read,
in the order of the fields; so the decoder of a layer leaves its own event and then theirs.

* `Construct.tag`            the tag under which a construct is written;
* `Node.inOrder_mk`          the nodes of a walk: a node, and then those of its children;
* `Traced.Silent`            a computation that leaves no events;
* `Traced.Tells`             a computation that leaves the events of the children it reads;
* `Decode.tells_construct`   the slots of a tag are read in the order of the children;
* `Node.events_decode`       so the events of a tree are those of its node;
* `Node.events_eq_kinds`     their kinds are those that a walk passes, without positional ones.
-/

namespace TagTree

/-! ## events of nodes -/

section
variable {α : Type}

/-- the tag under which a construct is written -/
def Construct.tag : Construct α → Tag
  | .program _ => .toplevel
  | .function .declaration _ _ _ => .defun
  | .function .expression _ _ _ => .function
  | .returns _ => .returns
  | .vars _ => .vars
  | .statement _ => .stat
  | .literal (.number _) => .num
  | .literal (.string _) => .string
  | .identifier _ => .name
  | .binary .. => .binary
  | .array _ => .array
  | .call .. => .call
  | .regex .. => .regexp
  | .object _ => .object
  | .block _ => .block
  | .ifElse .. => .ifElse
  | .assignment .. => .assign
  | .unaryPrefix .. => .unaryPrefix
  | .unaryPostfix .. => .unaryPostfix
  | .new .. => .new
  | .member .. => .dot
  | .index .. => .sub
  | .tryCatch .. => .tryCatch
  | .throws _ => .throws
  | .whileLoop .. => .whileLoop
  | .doWhile .. => .doWhile
  | .switch .. => .switch
  | .forLoop .. => .forLoop
  | .forIn .. => .forIn
  | .sequence _ => .seq
  | .ternary .. => .conditional
  | .breaks _ => .breaks
  | .continues _ => .continues
  | .labeled .. => .label

theorem Construct.kind_tag (c : Construct α) : c.tag.kind = c.kind := by
  cases c with
  | function form name params body => cases form <;> rfl
  | literal value => cases value <;> rfl
  | _ => rfl

theorem Construct.tag_of_row {R : Json → α → Prop} {tag : Tag} {s : List Json} {c : Construct α}
    (h : Layout.Row R tag s c) : c.tag = tag := by
  cases h <;> rfl

end

/-- the node that an item is, if it is one -/
def Item.node? {α : Type} : Item α → Option α
  | .node n => some n
  | _ => none

/-- the nodes that a walk of an item passes, in order -/
def Item.inOrder (i : Item Node) : List Node := i.preorder.filterMap Item.node?

/-- an item that is no node adds nothing to the nodes that it holds -/
theorem Item.inOrder_eq (i : Item Node) : i.inOrder = i.nodes.flatMap fun n => (Item.node n).inOrder := by
  have inner {i : Item Node} (hi : i.node? = none) (hc : i.children = i.nodes.map .node) :
      i.inOrder = i.nodes.flatMap fun n => (Item.node n).inOrder := by
    rw [inOrder, preorder_eq, List.filterMap_cons, hi, hc, List.flatMap_map,
      List.filterMap_flatMap]
    rfl
  cases i with
  | node n => simp [Item.nodes]
  | binding b => exact inner rfl (children_binding b)
  | property p => exact inner rfl (children_property p)
  | switchCase c => exact inner rfl (children_switchCase c)
  | handler h => exact inner rfl (children_handler h)

namespace Node

def inOrder (n : Node) : List Node := (Item.node n).inOrder

theorem inOrder_mk (c : Construct Node) : (mk c).inOrder = mk c :: c.children.flatMap inOrder := by
  rw [inOrder, Item.inOrder, Item.preorder_eq, Item.children_node, ← Item.flatMap_nodes_items,
    List.flatMap_assoc, List.filterMap_cons, List.filterMap_flatMap]
  refine congrArg (mk c :: ·) (List.flatMap_congr fun i _ => ?_)
  exact i.inOrder_eq

theorem isPositional_kind (n : Node) : n.kind.isPositional = false := by
  rw [kind, ← Construct.kind_tag]
  exact n.construct.tag.isPositional_kind

/-- without the positional kinds, a walk passes the kinds of its nodes -/
theorem filter_kinds (n : Node) :
    (n.kinds.filter fun k => !k.isPositional) = n.inOrder.map kind := by
  have items (is : List (Item Node)) : ((is.map Item.kind).filter fun k => !k.isPositional) =
      (is.filterMap Item.node?).map kind := by
    induction is with
    | nil => rfl
    | cons i is ih =>
      rw [List.map_cons, List.filter_cons, ih, List.filterMap_cons]
      cases i with
      | node n =>
        show (if !n.kind.isPositional then _ else _) = _
        rw [n.isPositional_kind]
        rfl
      | _ => rfl
  rw [kinds_eq_preorder]
  exact items _

def event (n : Node) : Event := ⟨n.construct.tag, n.kind⟩

def events (n : Node) : List Event := n.inOrder.map event

theorem events_mk (c : Construct Node) :
    (mk c).events = ⟨c.tag, c.kind⟩ :: c.children.flatMap events := by
  rw [events, inOrder_mk, List.map_cons, List.map_flatMap]
  rfl

end Node

/-! ## silent and telling computations -/

namespace Traced
variable {ε α β γ : Type}

def Silent (x : Traced ε α) : Prop := x.events = []

theorem Silent.bind {x : Traced ε α} {k : α → Traced ε β} (hx : Silent x)
    (hk : ∀ a, Silent (k a)) : Silent (x >>= k) := by
  rw [Silent, events_bind, hx]
  cases x.result with
  | ok a => exact hk a
  | error e => rfl

/-- if the computation succeeds, its events are those of the children that it reads, and `before`
are the children that were read before -/
def Tells (told : α → List Event) (before : List α) (x : Traced ε β) (children : β → List α) : Prop :=
  ∀ b, x.result = .ok b → before.flatMap told ++ x.events = (children b).flatMap told

section
variable {told : α → List Event} {before : List α} {x : Traced ε β} {k : β → Traced ε γ}
  {l : β → List α} {m : γ → List α}

theorem Tells.pure {b : β} (h : before = l b) : Tells told before (pure b : Traced ε β) l := by
  intro c hc
  rw [← result_pure_eq_ok.1 hc, ← h]
  exact List.append_nil _

theorem Tells.bind (hx : Tells told [] x l) (hk : ∀ b, Tells told (before ++ l b) (k b) m) :
    Tells told before (x >>= k) m := by
  intro c hc
  obtain ⟨b, hb, hc⟩ := result_bind_eq_ok.1 hc
  have hxb : x.events = (l b).flatMap told := hx b hb
  have hkb := hk b c hc
  rw [bind_ok hb, ← hkb, hxb, List.flatMap_append, List.append_assoc]

/-- what leaves no event reads no child -/
theorem Silent.then (hx : Silent x) (hk : ∀ b, Tells told before (k b) m) :
    Tells told before (x >>= k) m := by
  intro c hc
  obtain ⟨b, hb, hc⟩ := result_bind_eq_ok.1 hc
  rw [bind_ok hb, hx, List.nil_append]
  exact hk b c hc

theorem tells_each {δ : Type} {f : δ → Traced ε β} (h : ∀ t, Tells told [] (f t) l) (ts : List δ) :
    Tells told [] (each f ts) fun bs => bs.flatMap l := by
  induction ts with
  | nil => exact .pure rfl
  | cons t ts ih =>
    refine (h t).bind fun b => ih.bind fun bs => .pure ?_
    rw [List.nil_append, List.flatMap_cons]

theorem tells_optional {δ : Type} {f : δ → Traced ε β} (h : ∀ t, Tells told [] (f t) l)
    (t : Option δ) : Tells told [] (optional f t) fun b => b.toList.flatMap l := by
  cases t with
  | none => exact .pure rfl
  | some t =>
    refine (h t).bind fun b => .pure ?_
    simp

end
end Traced

/-! ## readers of slots -/

namespace Slots
open Traced
variable {α β : Type} (s : Slots) (i : Nat)

theorem silent_required (wanted : Wanted) : Silent (s.required i wanted) := by
  unfold required
  cases s.present? i <;> rfl

theorem silent_string? : Silent (s.string? i) := by
  unfold string?
  split <;> rfl

theorem silent_string : Silent (s.string i) := by
  refine (s.silent_string? i).bind fun x => ?_
  cases x <;> rfl

theorem silent_number : Silent (s.number i) := by
  refine (s.silent_required i .number).bind fun t => ?_
  cases t <;> rfl

theorem silent_array : Silent (s.array i) := by
  refine (s.silent_required i .array).bind fun t => ?_
  cases t <;> rfl

theorem silent_positional (name : String) (t : Json) : Silent (positional name t) := by
  cases t <;> rfl

section
variable {told : α → List Event} {f : Json → Traced Refusal β} {l : β → List α}
  (h : ∀ t, Tells told [] (f t) l)
include h

theorem tells_child : Tells told [] (s.child i f) l :=
  (s.silent_required i .node).then h

theorem tells_child? : Tells told [] (s.child? i f) fun b => b.toList.flatMap l :=
  tells_optional h _

theorem tells_eachSlot : Tells told [] (s.each i f) fun bs => bs.flatMap l :=
  (s.silent_array i).then (tells_each h)

theorem tells_each? : Tells told [] (s.each? i f) fun bs => (bs.getD []).flatMap l := by
  unfold each?
  cases s.present? i with
  | none => exact .pure rfl
  | some t => exact (s.tells_eachSlot i h).bind fun bs => .pure rfl

theorem tells_rest : Tells told [] (s.rest i f) fun bs => bs.flatMap l :=
  tells_each h _

end
end Slots

/-! ## layers -/

namespace Decode
open Traced Slots

theorem silent_params (s : Slots) (i : Nat) (ts : List Json) : Silent (params s i ts) := by
  induction ts generalizing i with
  | nil => rfl
  | cons t ts ih =>
    cases t with
    | string x => exact (ih (i + 1)).bind fun xs => rfl
    | _ => rfl

theorem silent_assignmentOperator (s : Slots) : Silent (assignmentOperator s) := by
  unfold assignmentOperator
  split <;> rfl

theorem silent_propertyKey (s : Slots) : Silent (propertyKey s) := by
  unfold propertyKey
  split <;> rfl

theorem silent_accessor (s : Slots) : Silent (accessor s) := by
  refine (s.silent_string? 2).bind fun x => ?_
  cases x with
  | none => rfl
  | some x =>
    dsimp only
    split
    · rfl
    · split <;> rfl

section
variable {α : Type} {told : α → List Event} {f : Json → Traced Refusal α}
  (h : ∀ t, Tells told [] (f t) fun a => [a])
include h

theorem tells_binding (t : Json) : Tells told [] (binding f t) fun b => b.init.toList := by
  refine (silent_positional _ t).then fun s => ?_
  refine (s.silent_string 0).then fun name => ?_
  refine (s.tells_child? 1 h).bind fun init => ?_
  exact .pure (by simp)

theorem tells_property (t : Json) : Tells told [] (property f t) fun p => [p.value] := by
  refine (silent_positional _ t).then fun s => ?_
  refine (silent_propertyKey s).then fun key => ?_
  refine (silent_accessor s).then fun accessor => ?_
  refine (s.tells_child 1 h).bind fun value => ?_
  exact .pure rfl

theorem tells_switchCase (t : Json) :
    Tells told [] (switchCase f t) fun c => c.test.toList ++ c.body := by
  refine (silent_positional _ t).then fun s => ?_
  refine (s.tells_child? 0 h).bind fun test => ?_
  refine (s.tells_eachSlot 1 h).bind fun body => ?_
  exact .pure (by simp)

theorem tells_handler (t : Json) : Tells told [] (handler f t) fun c => c.body := by
  refine (silent_positional _ t).then fun s => ?_
  refine (s.silent_string 0).then fun param => ?_
  refine (s.tells_eachSlot 1 h).bind fun body => ?_
  exact .pure (by simp)

theorem tells_function (form : FunctionForm) (s : Slots) :
    Tells told [] (function f form s) Construct.children := by
  refine (s.silent_array 2).then fun ts => ?_
  refine (silent_params s 0 ts).then fun params => ?_
  refine (s.silent_string? 1).then fun name => ?_
  refine (s.tells_eachSlot 3 h).bind fun body => ?_
  exact .pure (by simp [Construct.children])

/-- the slots of a tag are read in the order of the children, whatever else is read between them -/
theorem tells_construct (tag : Tag) (s : Slots) :
    Tells told [] (construct f tag s) Construct.children := by
  have one (i : Nat) := s.tells_child i h
  have one? (i : Nat) := s.tells_child? i h
  have many (i : Nat) := s.tells_eachSlot i h
  have many? (i : Nat) := s.tells_each? i h
  cases tag with
  | toplevel | array =>
    refine (many 1).bind fun body => ?_
    exact .pure (by simp [Construct.children])
  | defun | function => exact tells_function h _ s
  | returns =>
    refine (one? 1).bind fun value => ?_
    exact .pure (by simp [Construct.children])
  | vars =>
    refine (s.tells_eachSlot 1 (tells_binding h)).bind fun bindings => ?_
    exact .pure rfl
  | stat | throws =>
    refine (one 1).bind fun e => ?_
    exact .pure rfl
  | num =>
    refine (s.silent_number 1).then fun x => ?_
    exact .pure rfl
  | string | name =>
    refine (s.silent_string 1).then fun x => ?_
    exact .pure rfl
  | breaks | continues =>
    refine (s.silent_string? 1).then fun label => ?_
    exact .pure rfl
  | binary =>
    refine (s.silent_string 1).then fun op => ?_
    refine (one 2).bind fun l => (one 3).bind fun r => ?_
    exact .pure rfl
  | call =>
    refine (one 1).bind fun callee => (many 2).bind fun args => ?_
    exact .pure (by simp [Construct.children])
  | regexp =>
    refine (s.silent_string 1).then fun pattern => ?_
    refine (s.silent_string? 2).then fun flags => ?_
    exact .pure rfl
  | object =>
    refine (s.tells_eachSlot 1 (tells_property h)).bind fun properties => ?_
    exact .pure (List.flatMap_pure_eq_map Property.value properties)
  | block =>
    refine (many? 1).bind fun body => ?_
    exact .pure (by simp [Construct.children])
  | ifElse =>
    refine (one 1).bind fun c => (one 2).bind fun t => (one? 3).bind fun e => ?_
    exact .pure (by simp [Construct.children])
  | assign =>
    refine (silent_assignmentOperator s).then fun op => ?_
    refine (one 2).bind fun t => (one 3).bind fun v => ?_
    exact .pure rfl
  | unaryPrefix | unaryPostfix | label =>
    refine (s.silent_string 1).then fun x => (one 2).bind fun y => ?_
    exact .pure rfl
  | new =>
    refine (one 1).bind fun c => (many? 2).bind fun args => ?_
    exact .pure (by simp [Construct.children])
  | dot =>
    refine (one 1).bind fun o => (s.silent_string 2).then fun name => ?_
    exact .pure rfl
  | sub | whileLoop | doWhile =>
    refine (one 1).bind fun x => (one 2).bind fun y => ?_
    exact .pure rfl
  | tryCatch =>
    refine (many 1).bind fun body => ?_
    refine (s.tells_child? 2 (tells_handler h)).bind fun handler => ?_
    refine (many? 3).bind fun finalizer => ?_
    exact .pure (by simp [Construct.children])
  | switch =>
    refine (one 1).bind fun d => ?_
    refine (s.tells_eachSlot 2 (tells_switchCase h)).bind fun cases => ?_
    exact .pure rfl
  | forLoop =>
    refine (one? 1).bind fun i => (one? 2).bind fun c => (one? 3).bind fun u => ?_
    refine (one 4).bind fun b => ?_
    exact .pure (by simp [Construct.children])
  | forIn =>
    refine (one 1).bind fun i => (one 2).bind fun l => (one 3).bind fun o => ?_
    refine (one 4).bind fun b => ?_
    exact .pure rfl
  | seq =>
    refine (s.tells_rest 1 h).bind fun es => ?_
    exact .pure (by simp [Construct.children])
  | conditional =>
    refine (one 1).bind fun c => (one 2).bind fun t => (one 3).bind fun e => ?_
    exact .pure rfl

/-- a layer leaves its own event and then those of the children -/
theorem events_layer {t : Json} {c : Construct α} (hc : (layer f t).result = .ok c) :
    (layer f t).events = ⟨c.tag, c.kind⟩ :: c.children.flatMap told := by
  obtain ⟨⟨tag, s⟩, ht, hnote⟩ := result_bind_eq_ok.1 hc
  obtain ⟨_, _, hconstruct⟩ := result_bind_eq_ok.1 hnote
  have htag : c.tag = tag := Construct.tag_of_row (row_of_construct hconstruct)
  have hevents : (construct f tag s).events = c.children.flatMap told :=
    tells_construct h tag s c hconstruct
  have hsilent : (tagged t).events = [] := by
    obtain ⟨slots, rfl, rfl⟩ := tagged_eq_ok.1 ht
    simp only [tagged, Tag.ofSpelling?_spelling]
    rfl
  have hnoted : ((note ⟨tag, tag.kind⟩ : Traced Refusal Unit) >>= fun _ => construct f tag s).events =
      ⟨tag, tag.kind⟩ :: (construct f tag s).events := by
    rw [bind_ok (a := ()) rfl]
    rfl
  rw [layer, bind_ok ht, hsilent, ← c.kind_tag, htag, ← hevents]
  exact hnoted

end
end Decode

/-! ## trees -/

namespace Node
open Traced Decode

/-- as deep as it goes, the decoder leaves the events of the node that it gives -/
theorem tells_decodeWithin (depth : Nat) (t : Json) :
    Tells events [] (decodeWithin depth t) fun n => [n] := by
  induction depth generalizing t with
  | zero => exact fun n hn => nomatch hn
  | succ depth ih =>
    intro n hn
    obtain ⟨c, hc, hmk⟩ := result_bind_eq_ok.1 hn
    rw [← result_pure_eq_ok.1 hmk]
    show ((layer (decodeWithin depth) t >>= fun c => pure (mk c)) : Traced Refusal Node).events =
      (mk c).events ++ []
    rw [bind_ok hc, events_layer ih hc, events_mk]
    rfl

theorem events_decode {t : Json} {n : Node} (h : (decode t).result = .ok n) :
    (decode t).events = n.events := by
  have htells := tells_decodeWithin t.depth t n h
  rw [List.flatMap_nil, List.nil_append, List.flatMap_singleton] at htells
  exact htells

/-- **The log of decoding is the walk.**  The events of a tree that decodes have, in order, the kinds
that a walk of the node passes, without those of bindings, properties, cases and handlers; and every
event is logged under a registered tag, with the kind of that tag. -/
theorem events_eq_kinds {t : Json} {n : Node} (h : (decode t).result = .ok n) :
    (decode t).events.map Event.kind = (n.kinds.filter fun k => !k.isPositional) ∧
    ∀ e ∈ (decode t).events, Tag.ofSpelling? e.tag.spelling = some e.tag ∧ e.tag.kind = e.kind ∧
      (LogEntry.decoding e).fields =
        [("message", "materializing"), ("tag", e.tag.spelling), ("kind", e.tag.kind.name)] := by
  rw [events_decode h]
  constructor
  · rw [filter_kinds, events, List.map_map]
    rfl
  · intro e he
    obtain ⟨m, _, rfl⟩ := List.mem_map.1 he
    have hkind : m.event.tag.kind = m.event.kind := m.construct.kind_tag
    refine ⟨m.event.tag.ofSpelling?_spelling, hkind, ?_⟩
    rw [hkind]
    rfl

/-- `var x = y; try { } catch (e) { switch ({ k: 2 }) { default: } }` -/
def positionalTree : Json :=
  .array [.string "toplevel", .array [
    .array [.string "var", .array [.array [.string "x", .array [.string "name", .string "y"]]]],
    .array [.string "try", .array [], .array [.string "e", .array [.array [.string "switch",
      .array [.string "object", .array [.array [.string "k",
        .array [.string "num", .number (.natural 2 (by decide))]]]],
      .array [.array [.null, .array []]]]]]]]]

def positional : Node :=
  .mk (.program [.mk (.vars [⟨"x", some (.mk (.identifier "y"))⟩]),
    .mk (.tryCatch [] (some ⟨"e", [.mk (.switch
      (.mk (.object [⟨"k", .mk (.literal (.number (Binary64.ofNat 2))), none⟩])) [⟨none, []⟩])]⟩) none)])

/-- a walk passes the four positional kinds, and the log tells of none of them -/
theorem events_eq_kinds_positional :
    (decode positionalTree).result = .ok positional ∧
    positional.kinds = [.program, .vars, .binding, .identifier, .tryCatch, .handler, .switch, .object,
      .property, .literal, .switchCase] ∧
    (decode positionalTree).events.map Event.kind =
      [.program, .vars, .identifier, .tryCatch, .switch, .object, .literal] ∧
    ∀ e ∈ (decode positionalTree).events, e.tag.kind = e.kind := by
  have ht : (decode positionalTree).result = .ok positional := rfl
  have hkinds : positional.kinds = [.program, .vars, .binding, .identifier, .tryCatch, .handler,
      .switch, .object, .property, .literal, .switchCase] := by
    rfl
  obtain ⟨hevents, htags⟩ := events_eq_kinds ht
  rw [hkinds] at hevents
  exact ⟨ht, hkinds, hevents, fun e he => (htags e he).2.1⟩

end Node
end TagTree
