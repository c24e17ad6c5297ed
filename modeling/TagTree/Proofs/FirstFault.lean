import Mathlib.Logic.Relation
import TagTree.Proofs.Blame

/-!
# The first fault decides

When a node is read, only slots in front of it have been read, with one exception: the accessor of
a property is read before its value.  So what stands behind the value at fault is not looked at
before the fault is found, unless it is such an accessor.

* `Behind`                           one location lies wholly behind another;
* `Json.ReplacedBehind`              a tree with one value behind a location replaced;
* `Blamed.replaceAt`                 what is at fault stays at fault when such a value is replaced;
* `Node.diagnosed_replacedBehind`    so a refusal stays the same, whatever comes later.
-/

namespace TagTree
open Layout Traced

/-! ## locations behind a location -/

/-- the second location comes later than the first, and not inside it -/
def Behind (p q : List Nat) : Prop := p < q ∧ ¬ p <+: q

theorem not_behind_nil_left (q : List Nat) : ¬ Behind [] q := fun h => h.2 List.nil_prefix

theorem not_behind_nil_right (p : List Nat) : ¬ Behind p [] := fun h => List.not_lt_nil p h.1

theorem behind_cons {i j : Nat} {p q : List Nat} :
    Behind (i :: p) (j :: q) ↔ i < j ∨ i = j ∧ Behind p q := by
  unfold Behind
  rw [List.cons_lt_cons_iff, List.cons_prefix_cons]
  constructor
  · rintro ⟨hlt | ⟨rfl, hlt⟩, hp⟩
    · exact .inl hlt
    · exact .inr ⟨rfl, hlt, fun h => hp ⟨rfl, h⟩⟩
  · rintro (hlt | ⟨rfl, hlt, hp⟩)
    · exact ⟨.inl hlt, fun h => by omega⟩
    · exact ⟨.inr ⟨rfl, hlt⟩, fun h => hp h.2⟩

/-- one value behind the location `p` is replaced; the accessors of the properties around `p` are
kept -/
def Json.ReplacedBehind (p : List Nat) (t u : Json) : Prop :=
  ∃ (q : List Nat) (v : Json), Behind p q ∧
    (∀ m, m <+: p → (Role.one .node).follow t m = .one .property → q ≠ m ++ [2]) ∧
    u = t.replaceAt q v

/-! ## what a replacement leaves alone -/

namespace Reading

theorem flaw?_array {r : Reading} (h : r.role ≠ .other) (ts : List Json) :
    r.flaw? (some (.array ts)) = none := by
  cases r with
  | one | one? | each | each? | element => rfl
  | _ => exact absurd rfl h

/-- whether a reading passes depends on what it finds only -/
theorem passes_congr {s s' : Slots} {r : Reading} (h : r.found? s'.items = r.found? s.items)
    (hr : r.refusal? s = none) : r.refusal? s' = none := by
  unfold refusal? at hr ⊢
  rw [h]
  cases hf : r.flaw? (r.found? s.items) with
  | some flaw =>
    rw [hf] at hr
    cases hr
  | none =>
    rw [hf] at hr
    exact hr

end Reading

namespace ItemForm

theorem node_fits {items : List Json} :
    ItemForm.node.misfit? (.array items) = none ↔ ∃ tag, Tag.ofItems? items = some tag := by
  constructor
  · intro h
    obtain ⟨⟨tag, s⟩, hs⟩ := refusal?_eq_none.1 h
    obtain ⟨rest, ht, -⟩ := Decode.tagged_eq_ok.1 hs
    cases ht
    exact ⟨tag, tag.ofSpelling?_spelling⟩
  · rintro ⟨tag, h⟩
    unfold Tag.ofItems? at h
    split at h
    · simp only [misfit?, Decode.tagged, h]
      rfl
    · cases h

variable {f : ItemForm} {items items' : List Json}

/-- whether an array is fit, and how it is read, depends on its tag and its length only -/
theorem fit_congr (h₀ : f = .node → items'[0]? = items[0]?) (hlen : items'.length = items.length)
    (h : f.misfit? (.array items) = none) :
    f.misfit? (.array items') = none ∧ f.readings items' = f.readings items := by
  cases f with
  | node =>
    have ht : Tag.ofItems? items' = Tag.ofItems? items :=
      Tag.ofItems?_congr (slot?_congr (h₀ rfl))
    refine ⟨node_fits.2 (ht ▸ node_fits.1 h), ?_⟩
    rw [readings, readings, ht, hlen]
  | _ => exact ⟨rfl, rfl⟩

theorem slot_ne_zero {r : Reading} (h : r ∈ ItemForm.node.readings items) (hr : r.role ≠ .other) :
    r.slot ≠ 0 := by
  intro h₀
  refine hr ?_
  rw [← role_of_mem_readings h, h₀, roles]
  cases Tag.ofItems? items <;> rfl

end ItemForm

theorem Tag.pairwise_readings (tag : Tag) (arity : Nat) :
    (tag.readings arity).Pairwise fun a b => b.role ≠ .other → a.slot < b.slot := by
  by_cases h : tag = .seq
  · subst h
    refine List.pairwise_map.2 (List.Pairwise.imp ?_ List.pairwise_lt_range')
    intro i j hij _
    exact hij
  · rw [Tag.readings_eq h arity 0]
    cases tag <;> decide

/-- nodes are read in the order of their slots, and behind all else that is read before them,
accessors apart -/
theorem ItemForm.pairwise_readings (f : ItemForm) (items : List Json) :
    (f.readings items).Pairwise fun a b =>
      b.role ≠ .other → a.slot < b.slot ∨ f = .property ∧ a = .accessor := by
  cases f with
  | node =>
    unfold readings
    cases Tag.ofItems? items with
    | none => exact .nil
    | some tag => exact (tag.pairwise_readings _).imp fun h hb => .inl (h hb)
  | _ => simp [readings, Reading.role, Reading.slot]

/-! ## blame behind a replacement -/

theorem Blamed.role_ne_other {role : Role} {t : Json} {l : List Nat} {e : Refusal}
    (h : Blamed role t l e) : role ≠ .other := by
  cases h <;> exact nofun

theorem Blamed.eq_array_of_ne_nil {role : Role} {t : Json} {l : List Nat} {e : Refusal}
    (h : Blamed role t l e) (hl : l ≠ []) : ∃ ts, t = .array ts := by
  cases h with
  | misfit _ => exact absurd rfl hl
  | _ => exact ⟨_, rfl⟩

/-- an accessor that passes has no parts in which something could be replaced -/
theorem Reading.getElem?_accessor {s : Slots} (h : Reading.accessor.refusal? s = none)
    {q : List Nat} (hq : q ≠ []) (v : Json) : (s.items.modify 2 (·.replaceAt q v))[2]? = s.items[2]? := by
  obtain ⟨k, q, rfl⟩ := List.exists_cons_of_ne_nil hq
  rw [List.getElem?_modify_eq]
  cases hx : s.items[2]? with
  | none => rfl
  | some x =>
    have hx' : slot? s.items 2 = slot? [.null, .null, x] 2 := slot?_congr hx
    have hf : Reading.accessor.found? s.items = slot? [.null, .null, x] 2 := hx'
    rw [Reading.refusal?, hf] at h
    cases x with
    | array ts => cases h
    | object fields => cases h
    | _ => rfl

/-- what is read before a node passes still, when something in the slot of that node or behind it
is replaced -/
theorem ItemForm.passes_replaced {f : ItemForm} {items : List Json} {before after : List Reading}
    {r : Reading} {j : Nat} {q : List Nat} (v : Json)
    (hr : f.readings items = before ++ r :: after) (hrole : r.role ≠ .other) (hj : r.slot ≤ j)
    (hacc : f = .property → j :: q ≠ [2]) (hb : ∀ b ∈ before, b.refusal? (f.slots items) = none) :
    ∀ b ∈ before, b.refusal? (f.slots (items.modify j (·.replaceAt q v))) = none := by
  intro b hbm
  have hpair := f.pairwise_readings items
  rw [hr] at hpair
  have hlt := (List.pairwise_append.1 hpair).2.2 b hbm r List.mem_cons_self hrole
  refine Reading.passes_congr (Reading.found?_congr ?_) (hb b hbm)
  rcases hlt with hlt | ⟨rfl, rfl⟩
  · exact List.getElem?_modify_ne _ _ (by omega)
  · by_cases h₂ : j = 2
    · subst h₂
      refine Reading.getElem?_accessor (hb _ hbm) ?_ v
      rintro rfl
      exact hacc rfl rfl
    · exact List.getElem?_modify_ne _ _ h₂

/-- what is at fault stays at fault when a value behind it is replaced -/
theorem Blamed.replaceAt {role : Role} {t : Json} {l : List Nat} {e : Refusal}
    (h : Blamed role t l e) {q : List Nat} (v : Json) (hq : Behind l q)
    (hacc : ∀ m, m <+: l → role.follow t m = .one .property → q ≠ m ++ [2]) :
    Blamed role (t.replaceAt q v) l e := by
  induction h generalizing q with
  | misfit _ => exact absurd hq (not_behind_nil_left q)
  | flaw _ _ _ _ => exact absurd hq (not_behind_nil_left q)
  | @slot f items before after r x l e hm hr hb hf hx hl ih =>
    obtain _ | ⟨j, q⟩ := q
    · exact absurd hq (not_behind_nil_right _)
    have hmem : r ∈ f.readings items := hr ▸ List.mem_append_right _ List.mem_cons_self
    have hrole : r.role ≠ .other := hl.role_ne_other
    have hle : r.slot ≤ j := by
      rcases behind_cons.1 hq with h | ⟨h, -⟩ <;> omega
    -- a tag comes before all nodes, so the array is read as it was
    have h₀ : f = .node → (items.modify j (·.replaceAt q v))[0]? = items[0]? := by
      rintro rfl
      have := ItemForm.slot_ne_zero hmem hrole
      exact List.getElem?_modify_ne _ _ (by omega)
    obtain ⟨hm', hr'⟩ := ItemForm.fit_congr h₀ (List.length_modify ..) hm
    have hb' := ItemForm.passes_replaced v hr hrole hle
      (fun hp h₂ => hacc [] List.nil_prefix (by rw [hp]; rfl) h₂) hb
    show Blamed (.one f) (.array (items.modify j (·.replaceAt q v))) (r.slot :: l) e
    rcases behind_cons.1 hq with hlt | ⟨rfl, hq'⟩
    · -- the replaced value is in a later slot
      have hx' : r.found? (items.modify j (·.replaceAt q v)) = r.found? items :=
        Reading.found?_congr (List.getElem?_modify_ne _ _ (by omega))
      exact .slot hm' (hr'.trans hr) hb' (hx' ▸ hf) (hx'.trans hx) hl
    · -- it is in the same slot, behind the fault
      have hl' : Blamed r.role (x.replaceAt q v) l e := by
        refine ih hq' fun m hm hp hqm => ?_
        refine hacc (r.slot :: m) (List.cons_prefix_cons.2 ⟨rfl, hm⟩) ?_ (by rw [hqm]; rfl)
        rw [Role.follow_slot hmem hx, hp]
      obtain ⟨ts, hts⟩ := hl'.eq_array_of_ne_nil fun hl => not_behind_nil_left q (hl ▸ hq')
      have hx' : r.found? (items.modify r.slot (·.replaceAt q v)) = some (.array ts) := by
        refine Reading.found?_array ?_
        rw [List.getElem?_modify_eq, Reading.getElem?_of_found? hx]
        exact congrArg some hts
      refine .slot hm' (hr'.trans hr) hb' ?_ hx' (hts ▸ hl')
      rw [hx']
      exact Reading.flaw?_array hrole ts
  | @element f ts i x l e hx hb hl ih =>
    obtain _ | ⟨j, q⟩ := q
    · exact absurd hq (not_behind_nil_right _)
    have hle : i ≤ j := by
      rcases behind_cons.1 hq with h | ⟨h, -⟩ <;> omega
    have hb' : ∀ k < i, ∀ b ∈ (ts.modify j (·.replaceAt q v))[k]?,
        (f.decode b).refusal? = none := by
      intro k hk b hbk
      rw [List.getElem?_modify_ne _ _ (by omega)] at hbk
      exact hb k hk b hbk
    show Blamed (.each f) (.array (ts.modify j (·.replaceAt q v))) (i :: l) e
    rcases behind_cons.1 hq with hlt | ⟨rfl, hq'⟩
    · refine .element ?_ hb' hl
      rw [List.getElem?_modify_ne _ _ (by omega), hx]
    · have hl' : Blamed (.one f) (x.replaceAt q v) l e := by
        refine ih hq' fun m hm hp hqm => ?_
        refine hacc (i :: m) (List.cons_prefix_cons.2 ⟨rfl, hm⟩) ?_ (by rw [hqm]; rfl)
        rw [Role.follow_element hx, hp]
      refine .element ?_ hb' hl'
      rw [List.getElem?_modify_eq, hx]
      rfl

/-- **The first fault decides.**  A refusal quotes the value at a location, and it stays the same
whatever the values behind that location are replaced by, the accessors of the properties around
it apart. -/
theorem Node.diagnosed_replacedBehind {t : Json} {e : Diagnostic}
    (h : (Node.decode t).diagnosed = .error e) :
    ∃ (p : List Nat) (s : Json), t.at? p = some s ∧ e.cause.raw? = some s.compact ∧
      ∀ u, Relation.ReflTransGen (Json.ReplacedBehind p) t u →
        (Node.decode u).diagnosed = .error e := by
  obtain ⟨r, hr, rfl⟩ := diagnosed_eq_error.1 h
  have hr : (Role.one .node).refusal? t = some r := hr
  obtain ⟨p, hp⟩ := exists_blamed hr
  obtain ⟨s, f, hs, -, hb⟩ := hp.exists_at?
  refine ⟨p, s, hs, (Cause.names_of_blamed hb).raw?, fun u hu => ?_⟩
  have hpu : Blamed (.one .node) u p r := by
    induction hu with
    | refl => exact hp
    | tail _ hstep ih =>
      obtain ⟨q, v, hq, hacc, rfl⟩ := hstep
      exact ih.replaceAt v hq hacc
  exact diagnosed_eq_error.2 ⟨r, hpu.refusal?, rfl⟩

/-- `with`, which is no tag, as the value of a getter -/
def unknownInGetter : Json :=
  .array [.string "toplevel", .array [
    .array [.string "return", .array [.string "object", .array [
      .array [.string "a", .array [.string "with", .null], .string "get"],
      .array [.string "b"]]]],
    .null]]

/-- the unknown construct is blamed, whatever the broken property and the broken statement behind
it become -/
theorem Node.diagnosed_replacedBehind_unknownInGetter :
    (Node.decode unknownInGetter).diagnosed =
      .error (.unknownConstruct "with" (.array [.string "with", .null])) ∧
    ∃ (p : List Nat) (s : Json), unknownInGetter.at? p = some s ∧
      (Json.array [.string "with", .null]).compact = s.compact ∧
      ∀ u, Relation.ReflTransGen (Json.ReplacedBehind p) unknownInGetter u →
        (Node.decode u).diagnosed =
          .error (.unknownConstruct "with" (.array [.string "with", .null])) := by
  have h : (Node.decode unknownInGetter).diagnosed =
      .error (.unknownConstruct "with" (.array [.string "with", .null])) := rfl
  obtain ⟨p, s, hs, hraw, stays⟩ := Node.diagnosed_replacedBehind h
  exact ⟨h, p, s, hs, Option.some.inj hraw, stays⟩

-- the accessor of the property is read first, although it is written behind the value
example :
    (Node.decode (unknownInGetter.replaceAt [1, 0, 1, 1, 0, 2] (.string "static"))).diagnosed =
    .error (.malformedShape "property" (Flaw.accessor "static").message
      (.array [.string "a", .array [.string "with", .null], .string "static"])) := rfl

end TagTree
