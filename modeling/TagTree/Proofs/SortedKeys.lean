import TagTree.Diagnostic
import TagTree.Proofs.Locations
import TagTree.Proofs.Values

/-!
# Objects with sorted keys

The reader keeps the fields of an object in the order of their keys, and a later value of a key
replaces an earlier one.  So in a tree that is read the keys of every object increase.

* `Json.all`               a test of every value inside;
* `Json.all_at?`           a test that all values pass is passed at every location;
* `insertField_of_lt`      a key behind all others goes to the end;
* `isSorted_of_readTree`   the keys of a tree that is read increase.
-/

namespace TagTree
namespace Json
open Text Reader

/-! ## tests of all values -/

mutual

/-- every value inside, itself included, passes a test -/
def all (p : Json → Bool) : Json → Bool
  | .array items => p (.array items) && allItems p items
  | .object fields => p (.object fields) && allFields p fields
  | t => p t

def allItems (p : Json → Bool) : List Json → Bool
  | [] => true
  | x :: xs => x.all p && allItems p xs

def allFields (p : Json → Bool) : List (String × Json) → Bool
  | [] => true
  | (_, x) :: xs => x.all p && allFields p xs

end

/-- the keys of every object increase, as in every tree that is read -/
def isSorted : Json → Bool := all fun
  | .object fields => decide ((fields.map Prod.fst).Pairwise (· < ·))
  | _ => true

theorem allItems_iff {p : Json → Bool} {xs : List Json} :
    allItems p xs = true ↔ ∀ x ∈ xs, x.all p = true := by
  induction xs with
  | nil => exact ⟨fun _ => List.forall_mem_nil _, fun _ => rfl⟩
  | cons x xs ih => rw [allItems, Bool.and_eq_true, ih, List.forall_mem_cons]

theorem allFields_iff {p : Json → Bool} {fields : List (String × Json)} :
    allFields p fields = true ↔ ∀ x ∈ fields.map Prod.snd, x.all p = true := by
  induction fields with
  | nil => exact ⟨fun _ => List.forall_mem_nil _, fun _ => rfl⟩
  | cons f fields ih =>
    show (f.2.all p && allFields p fields) = true ↔ _
    rw [Bool.and_eq_true, ih, List.map_cons, List.forall_mem_cons]

theorem all_iff {p : Json → Bool} {t : Json} :
    t.all p = true ↔ p t = true ∧ ∀ x ∈ t.parts, x.all p = true := by
  cases t with
  | array items => rw [all, Bool.and_eq_true, allItems_iff, parts]
  | object fields => rw [all, Bool.and_eq_true, allFields_iff, parts]
  | _ => exact ⟨fun h => ⟨h, List.forall_mem_nil _⟩, And.left⟩

theorem all_at? {p : Json → Bool} {t s : Json} {l : List Nat} (h : t.all p = true)
    (hs : t.at? l = some s) : s.all p = true := by
  induction l generalizing t with
  | nil =>
    cases hs
    exact h
  | cons i l ih =>
    obtain ⟨x, hx, hs⟩ := Option.bind_eq_some_iff.1 hs
    exact ih ((all_iff.1 h).2 x (List.mem_of_getElem? hx)) hs

/-! ## fields in order -/

theorem insertField_of_lt {key : String} (x : Json) {fields : List (String × Json)}
    (h : ∀ f ∈ fields, f.1 < key) : insertField key x fields = fields ++ [(key, x)] := by
  induction fields with
  | nil => rfl
  | cons f fields ih =>
    obtain ⟨hf, hfields⟩ := List.forall_mem_cons.1 h
    have hne : key ≠ f.1 := by
      rintro rfl
      exact String.lt_irrefl _ hf
    show (if key < f.1 then _ else if key = f.1 then _ else f :: insertField key x fields) = _
    rw [if_neg (String.lt_asymm hf), if_neg hne, ih hfields, List.cons_append]

theorem isSorted_array {items : List Json} :
    (Json.array items).isSorted = true ↔ ∀ x ∈ items, x.isSorted = true := by
  rw [isSorted, all_iff]
  exact and_iff_right rfl

theorem isSorted_object {fields : List (String × Json)} :
    (Json.object fields).isSorted = true ↔
      (fields.map Prod.fst).Pairwise (· < ·) ∧ ∀ x ∈ fields.map Prod.snd, x.isSorted = true := by
  rw [isSorted, all_iff]
  exact and_congr_left fun _ => decide_eq_true_iff

theorem mem_insertField {key : String} {x : Json} {fields : List (String × Json)}
    {f : String × Json} (h : f ∈ insertField key x fields) : f = (key, x) ∨ f ∈ fields := by
  induction fields with
  | nil => exact .inl (List.mem_singleton.1 h)
  | cons g fields ih =>
    rw [insertField] at h
    split at h
    · exact List.mem_cons.1 h
    · split at h
      · rcases List.mem_cons.1 h with rfl | h
        · exact .inl rfl
        · exact .inr (List.mem_cons_of_mem _ h)
      · rcases List.mem_cons.1 h with rfl | h
        · exact .inr List.mem_cons_self
        · exact (ih h).imp_right (List.mem_cons_of_mem _)

theorem pairwise_insertField (key : String) (x : Json) {fields : List (String × Json)}
    (h : (fields.map Prod.fst).Pairwise (· < ·)) :
    ((insertField key x fields).map Prod.fst).Pairwise (· < ·) := by
  induction fields with
  | nil => exact List.pairwise_singleton _ _
  | cons f fields ih =>
    obtain ⟨hhead, htail⟩ := List.pairwise_cons.1 h
    rw [insertField]
    split
    · rename_i hlt
      refine List.pairwise_cons.2 ⟨fun k hk => ?_, h⟩
      rcases List.mem_cons.1 hk with rfl | hk
      · exact hlt
      · exact String.lt_trans hlt (hhead k hk)
    · rename_i hlt
      split
      · rename_i heq
        subst heq
        exact List.pairwise_cons.2 ⟨hhead, htail⟩
      · rename_i hne
        have hgt : f.1 < key := Std.lt_of_le_of_ne (String.not_lt.1 hlt) (Ne.symm hne)
        refine List.pairwise_cons.2 ⟨fun k hk => ?_, ih htail⟩
        obtain ⟨g, hg, rfl⟩ := List.mem_map.1 hk
        rcases mem_insertField hg with rfl | hg
        · exact hgt
        · exact hhead g.1 (List.mem_map_of_mem hg)

theorem isSorted_insertField {key : String} {x : Json} {fields : List (String × Json)}
    (hx : x.isSorted = true) (h : (Json.object fields).isSorted = true) :
    (Json.object (insertField key x fields)).isSorted = true := by
  obtain ⟨hkeys, hvalues⟩ := isSorted_object.1 h
  refine isSorted_object.2 ⟨pairwise_insertField key x hkeys, fun y hy => ?_⟩
  obtain ⟨f, hf, rfl⟩ := List.mem_map.1 hy
  rcases mem_insertField hf with rfl | hf
  · exact hx
  · exact hvalues f.2 (List.mem_map_of_mem hf)

/-! ## trees that are read -/

def ValueSorted (fuel : Nat) : Prop :=
  ∀ {s r : Bytes} {v : Json}, value fuel s = .ok (v, r) → v.isSorted = true

def ItemsSorted (fuel : Nat) : Prop :=
  ∀ {read : List Json} {s r : Bytes} {v : Json}, (∀ x ∈ read, x.isSorted = true) →
    items fuel read s = .ok (v, r) → v.isSorted = true

def FieldsSorted (fuel : Nat) : Prop :=
  ∀ {read : List (String × Json)} {atEnd : Problem} {s r : Bytes} {v : Json},
    (Json.object read).isSorted = true → fields fuel read atEnd s = .ok (v, r) → v.isSorted = true

theorem ValueSorted.step {fuel : Nat} (hi : ItemsSorted fuel) (hf : FieldsSorted fuel) :
    ValueSorted (fuel + 1) := by
  intro s r v h
  obtain ⟨b, t, -, ⟨-, ⟨-, rfl⟩ | h⟩ | ⟨-, ⟨-, rfl⟩ | h⟩ | h⟩ := value_eq_ok h
  · rfl
  · exact hi (List.forall_mem_nil _) h
  · rfl
  · exact hf rfl h
  · obtain ⟨-, t, rfl, -⟩ | ⟨-, n, rfl, -⟩ | ⟨-, n, rfl, -⟩ | ⟨w, -, h⟩ := scalar_eq_ok h
    · rfl
    · rfl
    · rfl
    · obtain ⟨-, rfl⟩ | ⟨-, rfl⟩ | ⟨-, rfl⟩ := h <;> rfl

theorem ItemsSorted.step {fuel : Nat} (hv : ValueSorted fuel) (hi : ItemsSorted fuel) :
    ItemsSorted (fuel + 1) := by
  intro read s r v hread h
  obtain ⟨x, t, hx, h⟩ := items_eq_ok h
  have hcons : ∀ y ∈ x :: read, y.isSorted = true := List.forall_mem_cons.2 ⟨hv hx, hread⟩
  obtain ⟨-, rfl⟩ | ⟨u, -, h⟩ := h
  · exact isSorted_array.2 fun y hy => hcons y (List.mem_reverse.1 hy)
  · exact hi hcons h

theorem FieldsSorted.step {fuel : Nat} (hv : ValueSorted fuel) (hf : FieldsSorted fuel) :
    FieldsSorted (fuel + 1) := by
  intro read atEnd s r v hread h
  obtain ⟨key, x, t, u, -, hx, h⟩ := fields_eq_ok h
  have hinsert : (Json.object (insertField key x read)).isSorted = true :=
    isSorted_insertField (hv hx) hread
  obtain ⟨-, rfl⟩ | ⟨w, -, h⟩ := h
  · exact hinsert
  · exact hf hinsert h

theorem sorted (fuel : Nat) : ValueSorted fuel ∧ ItemsSorted fuel ∧ FieldsSorted fuel := by
  induction fuel with
  | zero =>
    refine ⟨?_, ?_, ?_⟩
    · intro s r v h
      cases h
    · intro read s r v _ h
      cases h
    · intro read atEnd s r v _ h
      cases h
  | succ fuel ih =>
    obtain ⟨hv, hi, hf⟩ := ih
    exact ⟨ValueSorted.step hi hf, ItemsSorted.step hv hi, FieldsSorted.step hv hf⟩

end Json

/-- the keys of a tree that is read increase -/
theorem isSorted_of_readTree {text : String} {v : Json} (h : readTree text = .ok v) :
    v.isSorted = true := by
  rw [readTree, Json.Reader.read_eq] at h
  cases hd : Json.Reader.document (Text.encode text.toList) with
  | ok x =>
    rw [hd] at h
    cases h
    obtain ⟨r, hvalue, -⟩ := Json.Reader.document_eq_ok hd
    exact (Json.sorted _).1 hvalue
  | error f =>
    rw [hd] at h
    cases h

end TagTree
