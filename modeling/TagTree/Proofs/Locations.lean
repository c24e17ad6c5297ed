import TagTree.Json.Basic

/-!
# Locations in a value

A location numbers the parts on the way down to a value.  Locations are ordered as lists are: a
value comes before what is inside it, and everything inside a part before the parts that follow.

* `Json.at?`                        the value at a location;
* `Json.arrays`                     the arrays of a value, in the order in which they are written;
* `Json.mem_arrays`                 these are the arrays that are found at a location;
* `Json.pairwise_location_arrays`   their locations increase, so no array is listed twice;
* `Json.replaceAt`                  the value with the part at a location replaced.
-/

namespace TagTree.Json

/-- the elements of an array, the values of the fields of an object -/
def parts : Json → List Json
  | .array items => items
  | .object fields => fields.map Prod.snd
  | _ => []

def at? (t : Json) : List Nat → Option Json
  | [] => some t
  | i :: l => t.parts[i]?.bind (·.at? l)

/-- the value with the part at a location replaced; a location outside changes nothing -/
def replaceAt : Json → List Nat → Json → Json
  | _, [], v => v
  | .array items, i :: l, v => .array (items.modify i (·.replaceAt l v))
  | .object fields, i :: l, v => .object (fields.modify i fun f => (f.1, f.2.replaceAt l v))
  | t, _ :: _, _ => t

/-- an array inside part number `i`, seen from outside -/
def within (i : Nat) (a : List Nat × List Json) : List Nat × List Json := (i :: a.1, a.2)

mutual

/-- the arrays of a value with their locations, itself first, then part after part -/
def arrays : Json → List (List Nat × List Json)
  | .array items => ([], items) :: arraysFrom 0 items
  | .object fields => arraysOfFields 0 fields
  | _ => []

/-- the arrays in parts that are numbered from `i` on -/
def arraysFrom (i : Nat) : List Json → List (List Nat × List Json)
  | [] => []
  | x :: xs => x.arrays.map (within i) ++ arraysFrom (i + 1) xs

def arraysOfFields (i : Nat) : List (String × Json) → List (List Nat × List Json)
  | [] => []
  | (_, x) :: xs => x.arrays.map (within i) ++ arraysOfFields (i + 1) xs

end

/-! ## parts -/

theorem sizeOf_lt_of_mem_parts {t x : Json} (h : x ∈ t.parts) : sizeOf x < sizeOf t := by
  cases t with
  | array items =>
    have := List.sizeOf_lt_of_mem (show x ∈ items from h)
    rw [Json.array.sizeOf_spec]
    omega
  | object fields =>
    obtain ⟨⟨key, y⟩, hf, rfl⟩ := List.mem_map.1 h
    have := List.sizeOf_lt_of_mem hf
    rw [Prod.mk.sizeOf_spec] at this
    show sizeOf y < _
    rw [Json.object.sizeOf_spec]
    omega
  | _ => cases h

/-- what passes from the parts of a value to the value holds of all values -/
theorem induct {P : Json → Prop} (h : ∀ t, (∀ x ∈ t.parts, P x) → P t) (t : Json) : P t :=
  h t fun x _ => induct h x
termination_by sizeOf t
decreasing_by exact sizeOf_lt_of_mem_parts ‹_›

theorem arraysOfFields_eq (i : Nat) (fields : List (String × Json)) :
    arraysOfFields i fields = arraysFrom i (fields.map Prod.snd) := by
  induction fields generalizing i with
  | nil => rfl
  | cons f fs ih =>
    show f.2.arrays.map (within i) ++ arraysOfFields (i + 1) fs = _
    rw [ih]
    rfl

theorem arraysFrom_eq (i : Nat) (xs : List Json) :
    arraysFrom i xs = (xs.zipIdx i).flatMap fun x => x.1.arrays.map (within x.2) := by
  induction xs generalizing i with
  | nil => rfl
  | cons x xs ih =>
    rw [arraysFrom, ih]
    rfl

def own : Json → List (List Nat × List Json)
  | .array items => [([], items)]
  | _ => []

theorem mem_own (t : Json) (l : List Nat) (items : List Json) :
    (l, items) ∈ t.own ↔ l = [] ∧ t = .array items := by
  cases t with
  | array elements => simp [own, eq_comm]
  | _ => exact iff_of_false nofun nofun

theorem arrays_eq (t : Json) : t.arrays = t.own ++ arraysFrom 0 t.parts := by
  cases t with
  | object fields =>
    rw [arrays]
    exact arraysOfFields_eq 0 fields
  | _ => rfl

/-! ## membership -/

theorem mem_arraysFrom (xs : List Json) (l : List Nat) (items : List Json) :
    (l, items) ∈ arraysFrom 0 xs ↔
      ∃ (i : Nat) (m : List Nat) (x : Json),
        l = i :: m ∧ xs[i]? = some x ∧ (m, items) ∈ x.arrays := by
  rw [arraysFrom_eq, List.mem_flatMap]
  constructor
  · rintro ⟨⟨x, i⟩, hx, ha⟩
    obtain ⟨⟨m, elements⟩, hm, h⟩ := List.mem_map.1 ha
    cases h
    exact ⟨i, m, x, rfl, List.mem_zipIdx_iff_getElem?.1 hx, hm⟩
  · rintro ⟨i, m, x, rfl, hx, ha⟩
    exact ⟨(x, i), List.mem_zipIdx_iff_getElem?.2 hx, List.mem_map.2 ⟨(m, items), ha, rfl⟩⟩

theorem mem_arrays (t : Json) (l : List Nat) (items : List Json) :
    (l, items) ∈ t.arrays ↔ t.at? l = some (.array items) := by
  -- a step of the location is a step into a part, so the value needs no induction of its own
  induction l generalizing t with
  | nil =>
    rw [arrays_eq, List.mem_append, mem_own, mem_arraysFrom, at?, Option.some.injEq]
    constructor
    · rintro (⟨_, ht⟩ | ⟨i, m, x, hl, _⟩)
      · exact ht
      · cases hl
    · exact fun ht => .inl ⟨rfl, ht⟩
  | cons i l ih =>
    rw [arrays_eq, List.mem_append, mem_own, mem_arraysFrom, at?, Option.bind_eq_some_iff]
    constructor
    · rintro (⟨hl, _⟩ | ⟨j, m, x, hl, hx, ha⟩)
      · cases hl
      · cases hl
        exact ⟨x, hx, (ih x).1 ha⟩
    · rintro ⟨x, hx, ha⟩
      exact .inr ⟨i, l, x, rfl, hx, (ih x).2 ha⟩

/-! ## order -/

theorem le_of_mem_arraysFrom {i : Nat} {xs : List Json} {a : List Nat × List Json}
    (h : a ∈ arraysFrom i xs) : ∃ (j : Nat) (l : List Nat), i ≤ j ∧ a.1 = j :: l := by
  rw [arraysFrom_eq] at h
  obtain ⟨⟨x, j⟩, hx, ha⟩ := List.mem_flatMap.1 h
  obtain ⟨b, _, rfl⟩ := List.mem_map.1 ha
  exact ⟨j, b.1, List.le_snd_of_mem_zipIdx hx, rfl⟩

theorem pairwise_arraysFrom (i : Nat) (xs : List Json)
    (h : ∀ x ∈ xs, x.arrays.Pairwise fun a b => a.1 < b.1) :
    (arraysFrom i xs).Pairwise fun a b => a.1 < b.1 := by
  induction xs generalizing i with
  | nil => exact .nil
  | cons x xs ih =>
    rw [arraysFrom]
    refine List.pairwise_append.2 ⟨?_, ih _ fun y hy => h y (List.mem_cons_of_mem _ hy), ?_⟩
    · refine List.pairwise_map.2 ((h x List.mem_cons_self).imp fun hab => ?_)
      exact List.cons_lt_cons_iff.2 (.inr ⟨rfl, hab⟩)
    · intro a ha b hb
      obtain ⟨a, _, rfl⟩ := List.mem_map.1 ha
      obtain ⟨j, l, hj, hb⟩ := le_of_mem_arraysFrom hb
      rw [hb]
      exact List.cons_lt_cons_iff.2 (.inl (Nat.lt_of_succ_le hj))

theorem pairwise_location_arrays (t : Json) : t.arrays.Pairwise fun a b => a.1 < b.1 := by
  induction t using induct with
  | h t ih =>
    rw [arrays_eq]
    refine List.pairwise_append.2 ⟨?_, pairwise_arraysFrom 0 t.parts ih, ?_⟩
    · cases t with
      | array items => exact List.pairwise_singleton _ _
      | _ => exact .nil
    · intro a ha b hb
      obtain ⟨hl, _⟩ := (mem_own t a.1 a.2).1 ha
      obtain ⟨j, l, _, hb⟩ := le_of_mem_arraysFrom hb
      rw [hl, hb]
      exact List.nil_lt_cons j l

end TagTree.Json
