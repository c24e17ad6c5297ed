import Mathlib.Data.List.Induction
import Mathlib.Data.List.Lex
import Mathlib.Data.List.Sort
import Mathlib.Data.Prod.Lex
import Mathlib.Data.String.Basic
import TagTree.Files.Inputs

/-!
# Paths in order

Components are ordered linearly, and lists of them lexicographically.  Sorting puts paths into this
order one by one; a path whose components are there already is dropped, so that of all paths with
the same components the first stays.

* `Path.lt_iff`              paths are compared by their components;
* `Path.first?`              the first path of given components;
* `mem_sortPaths`            sorting keeps the first path of all components, with its spelling;
* `pairwise_sortPaths`       sorted paths increase;
* `sortPaths_of_pairwise`    and increasing paths are sorted.
-/

namespace TagTree

/-! ## order of components -/

namespace Component

def text : Component → String
  | .name s => s
  | _ => ""

/-- what components are compared by -/
def key (c : Component) : ℕ ×ₗ String := toLex (c.rank, c.text)

theorem key_injective : Function.Injective key := by
  intro a b h
  obtain ⟨hr, ht⟩ := Prod.ext_iff.1 (toLex.injective h)
  cases a <;> cases b <;> simp_all [rank, text]

instance : LinearOrder Component := LinearOrder.lift' key key_injective

theorem lt_iff {a b : Component} : a.lt b = true ↔ a < b := by
  show _ ↔ a.key < b.key
  rw [key, key, Prod.Lex.toLex_lt_toLex]
  cases a <;> cases b <;> simp [Component.lt, rank, text]

end Component

namespace Path

theorem before_iff {as bs : List Component} : before as bs = true ↔ as < bs := by
  induction as generalizing bs with
  | nil => cases bs <;> simp [before]
  | cons a as ih =>
    cases bs with
    | nil => simp [before]
    | cons b bs => simp [before, Component.lt_iff, ih, List.cons_lt_cons_iff]

theorem lt_iff {p q : Path} : p < q ↔ p.components < q.components := before_iff

instance : Std.Irrefl (· < · : Path → Path → Prop) := ⟨fun _ h => lt_irrefl _ (lt_iff.1 h)⟩

instance : Std.Antisymm (· < · : Path → Path → Prop) :=
  ⟨fun _ _ h h' => absurd (lt_iff.1 h') (lt_asymm (lt_iff.1 h))⟩

/-! ## insertion -/

/-- paths behind their components, in the order of these -/
def IsOrdered (l : List (List Component × Path)) : Prop := l.Pairwise fun x y => x.1 < y.1

section
variable {l : List (List Component × Path)} {key : List Component} {p : Path}

/-- a path is added unless its components are there -/
theorem mem_insert (h : IsOrdered l) {x : List Component × Path} :
    x ∈ insert key p l ↔ x ∈ l ∨ x = (key, p) ∧ key ∉ l.map Prod.fst := by
  induction l with
  | nil => simp [insert]
  | cons y l ih =>
    obtain ⟨hhead, htail⟩ := List.pairwise_cons.1 h
    show x ∈ (if before key y.1 then _ else if key = y.1 then _ else y :: insert key p l) ↔ _
    by_cases hlt : key < y.1
    · -- all components from `y` on are behind the new ones
      have hnew : key ∉ (y :: l).map Prod.fst := by
        intro hk
        obtain ⟨z, hz, rfl⟩ := List.mem_map.1 hk
        rcases List.mem_cons.1 hz with rfl | hz
        · exact lt_irrefl _ hlt
        · exact lt_asymm hlt (hhead z hz)
      rw [if_pos (before_iff.2 hlt), List.mem_cons, or_comm, and_iff_left hnew]
    · rw [if_neg (mt before_iff.1 hlt)]
      by_cases heq : key = y.1
      · have hold : ¬ key ∉ (y :: l).map Prod.fst := by simp [heq]
        rw [if_pos heq]
        simp only [hold, and_false, or_false]
      · rw [if_neg heq, List.mem_cons, ih htail, List.mem_cons, List.map_cons, List.mem_cons, not_or,
          and_iff_right heq, or_assoc]

theorem isOrdered_insert (h : IsOrdered l) : IsOrdered (insert key p l) := by
  induction l with
  | nil => exact List.pairwise_singleton _ _
  | cons y l ih =>
    obtain ⟨hhead, htail⟩ := List.pairwise_cons.1 h
    show IsOrdered (if before key y.1 then _ else if key = y.1 then _ else y :: insert key p l)
    by_cases hlt : key < y.1
    · rw [if_pos (before_iff.2 hlt)]
      refine List.pairwise_cons.2 ⟨fun z hz => ?_, h⟩
      rcases List.mem_cons.1 hz with rfl | hz
      · exact hlt
      · exact hlt.trans (hhead z hz)
    · rw [if_neg (mt before_iff.1 hlt)]
      by_cases heq : key = y.1
      · rwa [if_pos heq]
      · have hgt : y.1 < key := lt_of_le_of_ne (not_lt.1 hlt) (Ne.symm heq)
        rw [if_neg heq]
        refine List.pairwise_cons.2 ⟨fun z hz => ?_, ih htail⟩
        rcases (mem_insert htail).1 hz with hz | ⟨rfl, _⟩
        · exact hhead z hz
        · exact hgt

end

/-! ## insertion one after the other -/

def ranked (ps : List Path) : List (List Component × Path) :=
  ps.foldl (fun sorted p => insert p.components p sorted) []

theorem ranked_append (ps : List Path) (p : Path) :
    ranked (ps ++ [p]) = insert p.components p (ranked ps) := by
  rw [ranked, List.foldl_append]
  rfl

theorem isOrdered_ranked (ps : List Path) : IsOrdered (ranked ps) := by
  induction ps using List.reverseRecOn with
  | nil => exact List.Pairwise.nil
  | append_singleton ps p ih =>
    rw [ranked_append]
    exact isOrdered_insert ih

def first? (ps : List Path) (key : List Component) : Option Path :=
  ps.find? fun p => decide (p.components = key)

theorem first?_append (ps : List Path) (p : Path) (key : List Component) :
    first? (ps ++ [p]) key = (first? ps key).or (if p.components = key then some p else none) := by
  rw [first?, List.find?_append]
  by_cases h : p.components = key
  · rw [if_pos h, List.find?_cons_of_pos (by simpa using h)]
    rfl
  · rw [if_neg h, List.find?_cons_of_neg (by simpa using h)]
    rfl

theorem components_of_first? {ps : List Path} {key : List Component} {p : Path}
    (h : first? ps key = some p) : p.components = key := by
  unfold first? at h
  simpa using List.find?_some h

/-- where components tell paths apart, the first path is the only one -/
theorem first?_eq_some_iff {ps : List Path} {key : List Component} {p : Path}
    (h : ∀ p ∈ ps, ∀ q ∈ ps, p.components = q.components → p = q) :
    first? ps key = some p ↔ p ∈ ps ∧ p.components = key := by
  constructor
  · intro hp
    exact ⟨List.mem_of_find?_eq_some hp, components_of_first? hp⟩
  · rintro ⟨hp, rfl⟩
    obtain ⟨q, hq⟩ : ∃ q, first? ps p.components = some q :=
      Option.isSome_iff_exists.1 (List.find?_isSome.2 ⟨p, hp, decide_eq_true rfl⟩)
    rw [hq, h q (List.mem_of_find?_eq_some hq) p hp (components_of_first? hq)]

theorem mem_ranked {ps : List Path} {key : List Component} {q : Path} :
    (key, q) ∈ ranked ps ↔ first? ps key = some q := by
  induction ps using List.reverseRecOn generalizing key q with
  | nil => simp [ranked, first?]
  | append_singleton ps p ih =>
    have new : p.components ∉ (ranked ps).map Prod.fst ↔ first? ps p.components = none := by
      rw [Option.eq_none_iff_forall_ne_some, List.mem_map, not_exists]
      constructor
      · intro h q hq
        exact h (p.components, q) ⟨ih.2 hq, rfl⟩
      · rintro h ⟨k, q⟩ ⟨hq, rfl⟩
        exact h q (ih.1 hq)
    rw [ranked_append, mem_insert (isOrdered_ranked ps), ih, new, first?_append,
      Option.or_eq_some_iff, Prod.mk.injEq]
    refine or_congr_right ?_
    constructor
    · rintro ⟨⟨rfl, rfl⟩, hn⟩
      exact ⟨hn, if_pos rfl⟩
    · rintro ⟨hn, hp⟩
      obtain ⟨rfl, hq⟩ := Option.ite_none_right_eq_some.1 hp
      exact ⟨⟨rfl, (Option.some.inj hq).symm⟩, hn⟩

end Path

/-! ## sorting -/

/-- sorting keeps the first path of all components -/
theorem mem_sortPaths {ps : List Path} {p : Path} :
    p ∈ sortPaths ps ↔ Path.first? ps p.components = some p := by
  show p ∈ (Path.ranked ps).map Prod.snd ↔ _
  rw [List.mem_map]
  constructor
  · rintro ⟨⟨key, q⟩, hq, rfl⟩
    have hq := Path.mem_ranked.1 hq
    rwa [Path.components_of_first? hq]
  · intro h
    exact ⟨(p.components, p), Path.mem_ranked.2 h, rfl⟩

theorem pairwise_sortPaths (ps : List Path) : (sortPaths ps).Pairwise (· < ·) := by
  show ((Path.ranked ps).map Prod.snd).Pairwise (· < ·)
  rw [List.pairwise_map]
  refine (Path.isOrdered_ranked ps).imp_of_mem fun {x y} hx hy hxy => ?_
  rwa [Path.lt_iff, Path.components_of_first? (Path.mem_ranked.1 hx),
    Path.components_of_first? (Path.mem_ranked.1 hy)]

theorem Path.pairwise_components {ps : List Path} (h : ps.Pairwise (· < ·)) :
    (ps.map Path.components).Pairwise (· < ·) :=
  List.pairwise_map.2 (h.imp fun hlt => Path.lt_iff.1 hlt)

theorem sortPaths_of_pairwise {ps : List Path} (h : ps.Pairwise (· < ·)) : sortPaths ps = ps := by
  have distinct : ∀ p ∈ ps, ∀ q ∈ ps, p.components = q.components → p = q :=
    List.inj_on_of_nodup_map (Path.pairwise_components h).nodup
  refine (pairwise_sortPaths ps).eq_of_mem_iff h fun p => ?_
  rw [mem_sortPaths, Path.first?_eq_some_iff distinct]
  exact and_iff_left rfl

end TagTree
