import Mathlib.Data.List.Basic
import TagTree.Proofs.Decoding
import TagTree.Proofs.Locations
import TagTree.Proofs.Preorder

/-!
# A walk passes the node arrays of a tree in the order in which they are written

The layout gives every value inside a tree a role: it stands for one item, its elements stand for
one item each, or it is something else.  The roles depend on the tags further out only.

* `Tag.roles`, `ItemForm.roles`   the roles of the slots of an array that stands for an item;
* `Role.follow`                     the role of the value at a location;
* `Json.nodeArrays`               the arrays that stand for one item, in the order of locations;
* `Json.kindsIn_one`              their kinds, slot by slot;
* `Node.kinds_eq_nodeArrays`      these are the kinds that a walk of the decoded tree passes.
-/

namespace TagTree

/-! ## roles -/

/-- what an array can stand for; all but nodes are known by their place -/
inductive ItemForm where
  | node
  | binding
  | property
  | switchCase
  | handler
deriving DecidableEq

/-- what a value is there for -/
inductive Role where
  | other
  /-- it stands for an item -/
  | one (f : ItemForm)
  /-- each of its elements stands for an item -/
  | each (f : ItemForm)
deriving DecidableEq

/-- the roles of the slots after a tag, of which there are `arity`; the slots of a sequence are its
elements, and other surplus slots have no role -/
def Tag.roles (arity : Nat) : Tag → List Role
  | .num | .string | .name | .regexp | .breaks | .continues => []
  | .returns | .stat | .throws | .dot => [.one .node]
  | .sub | .whileLoop | .doWhile => [.one .node, .one .node]
  | .ifElse | .conditional => [.one .node, .one .node, .one .node]
  | .forLoop | .forIn => [.one .node, .one .node, .one .node, .one .node]
  | .unaryPrefix | .unaryPostfix | .label => [.other, .one .node]
  | .binary | .assign => [.other, .one .node, .one .node]
  | .toplevel | .array | .block => [.each .node]
  | .call | .new => [.one .node, .each .node]
  | .defun | .function => [.other, .other, .each .node]
  | .vars => [.each .binding]
  | .object => [.each .property]
  | .switch => [.one .node, .each .switchCase]
  | .tryCatch => [.each .node, .one .handler, .each .node]
  | .seq => List.replicate arity (.one .node)

def Tag.ofItems? : List Json → Option Tag
  | .string raw :: _ => Tag.ofSpelling? raw
  | _ => none

namespace ItemForm

def roles (items : List Json) : ItemForm → List Role
  | .node => (Tag.ofItems? items).elim [] fun tag => .other :: tag.roles (items.length - 1)
  | .binding | .property => [.other, .one .node]
  | .switchCase => [.one .node, .each .node]
  | .handler => [.other, .each .node]

def kind? (items : List Json) : ItemForm → Option Kind
  | .node => (Tag.ofItems? items).map Tag.kind
  | .binding => some .binding
  | .property => some .property
  | .switchCase => some .switchCase
  | .handler => some .handler

end ItemForm

namespace Role

def form? : Role → Option ItemForm
  | .one f => some f
  | _ => none

def element (items : List Json) (i : Nat) : Role → Role
  | .other => .other
  | .one f => (f.roles items).getD i .other
  | .each f => .one f

/-- the role of the value at a location, given the role of the whole value -/
def follow (r : Role) (t : Json) : List Nat → Role
  | [] => r
  | i :: l =>
    match t with
    | .array items => items[i]?.elim .other fun x => (r.element items i).follow x l
    | _ => .other

theorem other_follow (t : Json) (l : List Nat) : Role.other.follow t l = .other := by
  induction l generalizing t with
  | nil => rfl
  | cons i l ih =>
    cases t with
    | array items =>
      rw [Role.follow]
      cases items[i]? with
      | none => rfl
      | some x => exact ih x
    | _ => rfl

end Role

/-! ## node arrays -/

/-- an array inside a tree that stands for an item -/
structure NodeArray where
  location : List Nat
  form : ItemForm
  items : List Json

def NodeArray.kind? (a : NodeArray) : Option Kind := a.form.kind? a.items

open Layout

namespace Json

/-- the arrays that stand for an item, in a value of a given role -/
def nodeArraysIn (r : Role) (t : Json) : List NodeArray :=
  t.arrays.filterMap fun a => (r.follow t a.1).form?.map fun f => ⟨a.1, f, a.2⟩

def nodeArrays (t : Json) : List NodeArray := t.nodeArraysIn (.one .node)

theorem mem_nodeArrays (t : Json) (a : NodeArray) :
    a ∈ t.nodeArrays ↔
      t.at? a.location = some (.array a.items) ∧
        (Role.one .node).follow t a.location = .one a.form := by
  rw [← mem_arrays, nodeArrays, nodeArraysIn, List.mem_filterMap]
  constructor
  · rintro ⟨⟨l, items⟩, hl, ha⟩
    obtain ⟨f, hf, rfl⟩ := Option.map_eq_some_iff.1 ha
    refine ⟨hl, ?_⟩
    revert hf
    cases (Role.one .node).follow t l with
    | one f => exact congrArg Role.one ∘ Option.some.inj
    | _ => exact nofun
  · rintro ⟨hl, hr⟩
    exact ⟨_, hl, by rw [hr]; rfl⟩

theorem pairwise_location_nodeArrays (t : Json) :
    t.nodeArrays.Pairwise fun a b => a.location < b.location := by
  refine List.pairwise_filterMap.2 (t.pairwise_location_arrays.imp ?_)
  intro a b hab a' ha b' hb
  obtain ⟨f, _, rfl⟩ := Option.map_eq_some_iff.1 ha
  obtain ⟨g, _, rfl⟩ := Option.map_eq_some_iff.1 hb
  exact hab

theorem length_nodeArrays_le (t : Json) : t.nodeArrays.length ≤ t.arrays.length :=
  List.length_filterMap_le _ _

/-! ### kinds, slot by slot -/

def kindsIn (r : Role) (t : Json) : List (Option Kind) := (t.nodeArraysIn r).map NodeArray.kind?

theorem kindsIn_eq (r : Role) (t : Json) :
    t.kindsIn r = t.arrays.filterMap fun a => (r.follow t a.1).form?.map (ItemForm.kind? a.2) := by
  rw [kindsIn, nodeArraysIn, List.map_filterMap]
  congr 1
  funext a
  rw [Option.map_map]
  rfl

theorem kindsIn_other (t : Json) : t.kindsIn .other = [] := by
  rw [kindsIn_eq, List.filterMap_eq_nil_iff]
  intro a _
  rw [Role.other_follow]
  rfl

theorem kindsIn_null (r : Role) : Json.null.kindsIn r = [] := rfl

theorem kindsIn_array (r : Role) (items : List Json) :
    (Json.array items).kindsIn r =
      (r.form?.map (ItemForm.kind? items)).toList ++
        items.zipIdx.flatMap fun x => x.1.kindsIn (r.element items x.2) := by
  have inside : (arraysFrom 0 items).filterMap
        (fun a => (r.follow (.array items) a.1).form?.map (ItemForm.kind? a.2)) =
      items.zipIdx.flatMap fun x => x.1.kindsIn (r.element items x.2) := by
    rw [arraysFrom_eq, List.filterMap_flatMap]
    refine List.flatMap_congr fun x hx => ?_
    rw [List.filterMap_map, kindsIn_eq]
    congr 1
    funext a
    -- one step down, the role is that of the element
    show ((Role.follow r (.array items) (x.2 :: a.1)).form?.map _) = _
    rw [Role.follow, List.mem_zipIdx_iff_getElem?.1 hx]
    rfl
  rw [kindsIn_eq, arrays, List.filterMap_cons, inside, Role.follow]
  cases r.form? <;> rfl

theorem kindsIn_each (f : ItemForm) (items : List Json) :
    (Json.array items).kindsIn (.each f) = items.flatMap (kindsIn (.one f)) := by
  have h : (items.zipIdx.map Prod.fst).flatMap (kindsIn (.one f)) =
      items.flatMap (kindsIn (.one f)) := by
    rw [List.zipIdx_map_fst]
  rw [kindsIn_array, ← h, List.flatMap_map]
  rfl

def slotKinds (items : List Json) (r : Role × Nat) : List (Option Kind) :=
  items[r.2]?.elim [] (kindsIn r.1)

theorem slotKinds_other (items : List Json) (i : Nat) : slotKinds items (.other, i) = [] := by
  rw [slotKinds]
  cases items[i]? with
  | none => rfl
  | some t => exact t.kindsIn_other

theorem slotKinds_some {items : List Json} {i : Nat} {r : Role} {t : Json}
    (h : slot? items i = some t) : slotKinds items (r, i) = t.kindsIn r := by
  rw [slotKinds, slot?_eq_some h]
  rfl

theorem slotKinds_none {items : List Json} {i : Nat} {r : Role} (h : slot? items i = none) :
    slotKinds items (r, i) = [] := by
  unfold slot? at h
  rw [slotKinds]
  split at h
  · rename_i hi
    rw [hi]
    rfl
  · rename_i hi
    rw [hi]
    exact kindsIn_null r
  · cases h

theorem flatMap_slotKinds_replicate (r : Role) (items : List Json) (k : Nat) :
    ((List.replicate (items.length - k) r).zipIdx k).flatMap (slotKinds items) =
      (items.drop k).flatMap (kindsIn r) := by
  -- on the number of slots from `k` on
  induction hn : items.length - k generalizing k with
  | zero =>
    rw [List.drop_eq_nil_of_le (Nat.sub_eq_zero_iff_le.1 hn)]
    rfl
  | succ n ih =>
    have hk : k < items.length := by omega
    rw [List.replicate_succ, List.zipIdx_cons, List.flatMap_cons, List.drop_eq_getElem_cons hk,
      List.flatMap_cons, ih (k + 1) (by omega)]
    refine congrArg (· ++ _) ?_
    rw [slotKinds, List.getElem?_eq_getElem hk]
    rfl

/-- elements beyond the roles do not count -/
theorem flatMap_kindsIn_getD (rs : List Role) (items : List Json) :
    (items.zipIdx.flatMap fun x => x.1.kindsIn (rs.getD x.2 .other)) =
      rs.zipIdx.flatMap (slotKinds items) := by
  induction items generalizing rs with
  | nil => simp [slotKinds]
  | cons x xs ih =>
    cases rs with
    | nil => simp [kindsIn_other]
    | cons r rs =>
      simp only [List.zipIdx_cons', List.flatMap_cons, List.flatMap_map]
      exact congrArg (x.kindsIn r ++ ·) (ih rs)

/-- an array that stands for an item: its own kind, and then those in its slots -/
theorem kindsIn_one (f : ItemForm) (items : List Json) :
    (Json.array items).kindsIn (.one f) =
      f.kind? items :: (f.roles items).zipIdx.flatMap (slotKinds items) := by
  rw [kindsIn_array, ← flatMap_kindsIn_getD]
  rfl

end Json

/-! ## passed kinds -/

/-- the kinds that a walk of an item passes -/
def Item.passed (i : Item Node) : List (Option Kind) := i.preorder.map fun j => some j.kind

theorem Item.passed_eq (i : Item Node) : i.passed = some i.kind :: i.children.flatMap passed := by
  rw [passed, preorder_eq, List.map_cons, List.map_flatMap]
  rfl

theorem Node.map_some_kinds (n : Node) : n.kinds.map some = (Item.node n).passed := by
  have collect (is : List (Item Node)) (ks : List Kind) :
      is.foldl (fun ks i => i.kind :: ks) ks = (is.map Item.kind).reverse ++ ks := by
    induction is generalizing ks with
    | nil => rfl
    | cons i is ih => rw [List.foldl_cons, ih, List.map_cons, List.reverse_cons, List.append_assoc,
        List.singleton_append]
  have h : n.walk kindTrace [] = (Item.node n).preorder.foldl (fun ks i => i.kind :: ks) [] := by
    simp only [← kindTrace_enter]
    exact Item.walk_eq_foldl kindTrace (.node n) []
  rw [Node.kinds, h, collect, List.append_nil, List.reverse_reverse, List.map_map]
  rfl

/-- the tree lists the kinds that a walk of the item passes -/
def Lists {α : Type} (f : ItemForm) (item : α → Item Node) (t : Json) (x : α) : Prop :=
  t.kindsIn (.one f) = (item x).passed

namespace Lists
variable {α : Type} {f : ItemForm} {item : α → Item Node} {items : List Json} {i : Nat}

theorem flatMap_kindsIn {ts : List Json} {xs : List α} (h : List.Forall₂ (Lists f item) ts xs) :
    ts.flatMap (Json.kindsIn (.one f)) = (xs.map item).flatMap Item.passed := by
  induction h with
  | nil => rfl
  | cons hx _ ih =>
    rw [List.flatMap_cons, List.map_cons, List.flatMap_cons, ih]
    exact congrArg (· ++ _) hx

/-! ### one slot -/

theorem slotKinds_one {t : Json} {x : α} (ht : slot? items i = some t) (h : Lists f item t x) :
    Json.slotKinds items (.one f, i) = (item x).passed := by
  rw [Json.slotKinds_some ht]
  exact h

theorem slotKinds_each {t : Json} {xs : List α} (ht : slot? items i = some t)
    (h : IsList (Lists f item) t xs) :
    Json.slotKinds items (.each f, i) = (xs.map item).flatMap Item.passed := by
  obtain ⟨h⟩ := h
  rw [Json.slotKinds_some ht, Json.kindsIn_each, flatMap_kindsIn h]

theorem slotKinds_one? {x : Option α} (h : Option.Rel (Lists f item) (slot? items i) x) :
    Json.slotKinds items (.one f, i) = (x.toList.map item).flatMap Item.passed := by
  cases hs : slot? items i with
  | none =>
    rw [hs] at h
    cases h
    exact Json.slotKinds_none hs
  | some t =>
    rw [hs] at h
    cases h with
    | some h =>
      rw [slotKinds_one hs h]
      exact (List.append_nil _).symm

theorem slotKinds_each? {xs : Option (List α)}
    (h : Option.Rel (IsList (Lists f item)) (slot? items i) xs) :
    Json.slotKinds items (.each f, i) = ((xs.getD []).map item).flatMap Item.passed := by
  cases hs : slot? items i with
  | none =>
    rw [hs] at h
    cases h
    exact Json.slotKinds_none hs
  | some t =>
    rw [hs] at h
    cases h with
    | some h => exact slotKinds_each hs h

/-! ### arrays without tag -/

theorem binding {t : Json} {b : Binding Node} (h : IsBinding (Lists .node .node) t b) :
    Lists .binding .binding t b := by
  obtain ⟨_, hi⟩ := h
  rw [Lists, Json.kindsIn_one, Item.passed_eq, Item.children_binding]
  simp [ItemForm.kind?, ItemForm.roles, Item.kind, Item.nodes, Json.slotKinds_other,
    slotKinds_one? hi]

theorem property {t : Json} {p : Property Node} (h : IsProperty (Lists .node .node) t p) :
    Lists .property .property t p := by
  obtain ⟨_, _, hv, hx, _⟩ := h
  rw [Lists, Json.kindsIn_one, Item.passed_eq, Item.children_property]
  simp [ItemForm.kind?, ItemForm.roles, Item.kind, Item.nodes, Json.slotKinds_other,
    slotKinds_one hv hx]

theorem switchCase {t : Json} {c : Case Node} (h : IsCase (Lists .node .node) t c) :
    Lists .switchCase .switchCase t c := by
  obtain ⟨ht, hb, hbody⟩ := h
  rw [Lists, Json.kindsIn_one, Item.passed_eq, Item.children_switchCase]
  simp [ItemForm.kind?, ItemForm.roles, Item.kind, Item.nodes, slotKinds_one? ht,
    slotKinds_each hb hbody]

theorem handler {t : Json} {c : Handler Node} (h : IsHandler (Lists .node .node) t c) :
    Lists .handler .handler t c := by
  obtain ⟨_, hb, hbody⟩ := h
  rw [Lists, Json.kindsIn_one, Item.passed_eq, Item.children_handler]
  simp [ItemForm.kind?, ItemForm.roles, Item.kind, Item.nodes, Json.slotKinds_other,
    slotKinds_each hb hbody]

/-! ### tagged arrays -/

/-- the slots of a row list what a walk passes below the construct -/
theorem flatMap_slotKinds_of_row {tag : Tag} {s : List Json} {c : Construct Node}
    (h : Row (Lists .node .node) tag s c) :
    ((tag.roles (s.length - 1)).zipIdx 1).flatMap (Json.slotKinds s) =
      c.items.flatMap Item.passed := by
  cases h with
  | seq h₁ =>
    rw [Tag.roles, Json.flatMap_slotKinds_replicate, flatMap_kindsIn h₁]
    rfl
  | num | string | name | regexp | breaks | continues => rfl
  | toplevel hb h₁ | array hb h₁ => simp [Tag.roles, Construct.items, slotKinds_each hb h₁]
  | defun _ _ hb h₁ | function _ _ hb h₁ =>
    simp [Tag.roles, Construct.items, Json.slotKinds_other, slotKinds_each hb h₁]
  | returns h₁ => simp [Tag.roles, Construct.items, slotKinds_one? h₁]
  | vars hb h₁ =>
    have h₁ : IsList (Lists .binding .binding) _ _ := h₁.imp fun _ _ => binding
    simp [Tag.roles, Construct.items, slotKinds_each hb h₁]
  | object hb h₁ =>
    have h₁ : IsList (Lists .property .property) _ _ := h₁.imp fun _ _ => property
    simp [Tag.roles, Construct.items, slotKinds_each hb h₁]
  | stat ht h₁ | throws ht h₁ | dot ht h₁ => simp [Tag.roles, Construct.items, slotKinds_one ht h₁]
  | binary _ hl h₁ hr h₂ | assign _ _ hl h₁ hr h₂ =>
    simp [Tag.roles, Construct.items, Json.slotKinds_other, slotKinds_one hl h₁,
      slotKinds_one hr h₂]
  | call ht h₁ hb h₂ =>
    simp [Tag.roles, Construct.items, slotKinds_one ht h₁, slotKinds_each hb h₂]
  | new ht h₁ h₂ => simp [Tag.roles, Construct.items, slotKinds_one ht h₁, slotKinds_each? h₂]
  | block h₁ => simp [Tag.roles, Construct.items, slotKinds_each? h₁]
  | ifElse hc h₁ ht h₂ h₃ =>
    simp [Tag.roles, Construct.items, slotKinds_one hc h₁, slotKinds_one ht h₂, slotKinds_one? h₃]
  | unaryPrefix _ hx h₁ | unaryPostfix _ hx h₁ | label _ hx h₁ =>
    simp [Tag.roles, Construct.items, Json.slotKinds_other, slotKinds_one hx h₁]
  | sub hl h₁ hr h₂ | whileLoop hl h₁ hr h₂ | doWhile hl h₁ hr h₂ =>
    simp [Tag.roles, Construct.items, slotKinds_one hl h₁, slotKinds_one hr h₂]
  | tryCatch hb h₁ h₂ h₃ =>
    have h₂ : Option.Rel (Lists .handler .handler) _ _ := rel_imp (fun _ _ => handler) h₂
    simp [Tag.roles, Construct.items, slotKinds_each hb h₁, slotKinds_one? h₂, slotKinds_each? h₃]
  | switch hd h₁ hb h₂ =>
    have h₂ : IsList (Lists .switchCase .switchCase) _ _ := h₂.imp fun _ _ => switchCase
    simp [Tag.roles, Construct.items, slotKinds_one hd h₁, slotKinds_each hb h₂]
  | forLoop h₁ h₂ h₃ hb h₄ =>
    simp [Tag.roles, Construct.items, slotKinds_one? h₁, slotKinds_one? h₂, slotKinds_one? h₃,
      slotKinds_one hb h₄]
  | forIn hi h₁ hl h₂ ho h₃ hb h₄ =>
    simp [Tag.roles, Construct.items, slotKinds_one hi h₁, slotKinds_one hl h₂, slotKinds_one ho h₃,
      slotKinds_one hb h₄]
  | conditional hc h₁ ht h₂ he h₃ =>
    simp [Tag.roles, Construct.items, slotKinds_one hc h₁, slotKinds_one ht h₂, slotKinds_one he h₃]

theorem kind_of_row {R : Json → Node → Prop} {tag : Tag} {s : List Json} {c : Construct Node}
    (h : Row R tag s c) : c.kind = tag.kind := by
  cases h <;> rfl

theorem node {t : Json} {n : Node} (h : Decodes t n) : Lists .node .node t n := by
  refine h.induct (P := Lists .node .node) fun tag slots c hr => ?_
  have ht : Tag.ofItems? (.string tag.spelling :: slots) = some tag := tag.ofSpelling?_spelling
  rw [Lists, Json.kindsIn_one, ItemForm.kind?, ItemForm.roles, ht, Item.passed_eq,
    Item.children_node, ← flatMap_slotKinds_of_row hr]
  -- slot 0 holds the tag, and no kinds
  show some tag.kind :: (Json.slotKinds _ (.other, 0) ++ _) = some c.kind :: _
  rw [Json.slotKinds_other, kind_of_row hr]
  rfl

end Lists

/-- **A walk of a decoded tree passes the node arrays, each once, as they are written.**  The node
arrays are those at the locations to which the layout gives the role of an item; their locations
increase. -/
theorem Node.kinds_eq_nodeArrays {t : Json} {n : Node} (h : (Node.decode t).result = .ok n) :
    n.kinds.map some = t.nodeArrays.map NodeArray.kind? ∧
    (∀ a : NodeArray, a ∈ t.nodeArrays ↔
      t.at? a.location = some (.array a.items) ∧
        (Role.one .node).follow t a.location = .one a.form) ∧
    (t.nodeArrays.Pairwise fun a b => a.location < b.location) ∧
    n.kinds.length ≤ t.arrays.length := by
  have kinds : n.kinds.map some = t.nodeArrays.map NodeArray.kind? := by
    rw [n.map_some_kinds]
    exact (Lists.node (decodes_of_decode h)).symm
  refine ⟨kinds, t.mem_nodeArrays, t.pairwise_location_nodeArrays, ?_⟩
  calc
    n.kinds.length = (n.kinds.map some).length := List.length_map _ |>.symm
    _ = t.nodeArrays.length := by rw [kinds, List.length_map]
    _ ≤ t.arrays.length := t.length_nodeArrays_le

/-- `(function (x) { switch (x) { default: return; } })`; the parameters are no node array, and
neither are the arrays in surplus slots -/
def switchInFunctionTree : Json :=
  .array [.string "toplevel", .array [.array [.string "stat", .array [.string "function", .null,
    .array [.string "x"], .array [.array [.string "switch", .array [.string "name", .string "x"],
      .array [.array [.null, .array [.array [.string "return", .null, .array [.string "name"]]]]]]],
    .array [.string "name", .string "y"]]]]]

def switchInFunction : Node :=
  .mk (.program [.mk (.statement (.mk (.function .expression none ["x"]
    [.mk (.switch (.mk (.identifier "x")) [⟨none, [.mk (.returns none)]⟩])])))])

/-- the node arrays of a function around a `switch` -/
theorem Node.kinds_eq_nodeArrays_switchInFunction :
    (Node.decode switchInFunctionTree).result = .ok switchInFunction ∧
    switchInFunction.kinds.map some = switchInFunctionTree.nodeArrays.map NodeArray.kind? ∧
    switchInFunctionTree.nodeArrays.map NodeArray.location =
      [[], [1, 0], [1, 0, 1], [1, 0, 1, 3, 0], [1, 0, 1, 3, 0, 1], [1, 0, 1, 3, 0, 2, 0],
        [1, 0, 1, 3, 0, 2, 0, 1, 0]] ∧
    switchInFunction.kinds.length ≤ switchInFunctionTree.arrays.length := by
  have ht : (Node.decode switchInFunctionTree).result = .ok switchInFunction := rfl
  obtain ⟨kinds, _, _, count⟩ := Node.kinds_eq_nodeArrays ht
  exact ⟨ht, kinds, rfl, count⟩

end TagTree
