import TagTree.Proofs.Locality

/-!
# Causal scanners

What a causal scanner makes of a text depends on the bytes that it passes, and on one byte more, at
which it stops; what it refuses depends on the bytes in front of the fault.  Nothing is said about a
text that ends too early, or a number out of range.  One scanner after another is causal again if
the second one refuses nothing before it has passed a byte, for the first one has looked at this
byte too.

* `Problem.IsDecided`            a problem that is there whatever follows;
* `Causal`, `Forward`, `Reads`   what a scanner owes to the bytes that it reads;
* `Causal.bind`                  one scanner after another;
* `Reads.of_cons`                a scanner that is causal behind its first byte;
* `Reads.of_skip`                and one that skips blanks before it;
* `Forward.optional`             a part that may be missing.
-/

namespace TagTree
namespace Json

/-- the problem is there as soon as the text has been read up to its place -/
def Problem.IsDecided (p : Problem) : Prop :=
  p ∉ [.endInValue, .endInArray, .endInObject, .endInString, .numberOutOfRange]

instance (p : Problem) : Decidable p.IsDecided := inferInstanceAs (Decidable (¬ _))

/-- the text of a problem says whether it is decided -/
theorem Problem.isDecided_iff (p : Problem) :
    p.IsDecided ↔ ¬ "EOF while parsing ".toList <+: p.message.toList ∧
      ¬ "number out of range".toList <+: p.message.toList := by
  cases p <;> decide +kernel

namespace Reader
variable {α β : Type}

/-! ## causal scanners -/

/-- what a scanner makes of a text depends on the bytes that it passes and on the next one, and what
it refuses on the bytes in front of the fault -/
structure Causal (f : Bytes → Except Fault (α × Bytes)) : Prop where
  passed : ∀ {s a r}, f s = .ok (a, r) →
    ∃ w, s = w ++ r ∧ ∀ r', r'.head? = r.head? → f (w ++ r') = .ok (a, r')
  refused : ∀ {s e}, f s = .error e → e.problem.IsDecided →
    ∃ w r, s = w ++ r ∧ e = e.problem.before r ∧ ∀ r', f (w ++ r') = .error (e.problem.before r')

/-- what a scanner refuses has at least one byte in front of the fault -/
structure Forward (f : Bytes → Except Fault (α × Bytes)) : Prop extends Causal f where
  behind : ∀ {s e}, f s = .error e → e.problem.IsDecided → e.left < s.length

/-- and what it passes is at least one byte -/
structure Reads (f : Bytes → Except Fault (α × Bytes)) : Prop extends Forward f where
  shorter : ∀ {s a r}, f s = .ok (a, r) → r.length < s.length

theorem Reads.causal {f : Bytes → Except Fault (α × Bytes)} (hf : Reads f) : Causal f :=
  hf.toForward.toCausal

/-! ### single steps -/

theorem Forward.pure (a : α) : Forward fun s => .ok (a, s) where
  passed h := by
    cases h
    exact ⟨[], rfl, fun r' _ => rfl⟩
  refused h := nomatch h
  behind h := nomatch h

theorem Causal.pure (a : α) : Causal fun s => .ok (a, s) := (Forward.pure a).toCausal

theorem Causal.refuse (p : Problem) :
    Causal fun s => (.error (p.before s) : Except Fault (α × Bytes)) where
  passed h := nomatch h
  refused h _ := by
    cases h
    exact ⟨[], _, rfl, rfl, fun r' => rfl⟩

theorem Reads.undecided {f : Bytes → Except Fault (α × Bytes)}
    (h : ∀ s, ∃ e, f s = .error e ∧ ¬ e.problem.IsDecided) : Reads f := by
  have hok {s : Bytes} {x : α × Bytes} : f s ≠ .ok x := by
    intro hx
    obtain ⟨e, he, _⟩ := h s
    cases he.symm.trans hx
  have herror {s : Bytes} {e : Fault} (he : f s = .error e) : ¬ e.problem.IsDecided := by
    obtain ⟨e', he', hd⟩ := h s
    cases he'.symm.trans he
    exact hd
  refine ⟨⟨⟨?_, ?_⟩, ?_⟩, ?_⟩
  · intro s a r ha
    exact absurd ha hok
  · intro s e he hd
    exact absurd hd (herror he)
  · intro s e he hd
    exact absurd hd (herror he)
  · intro s a r ha
    exact absurd ha hok

theorem Causal.ite {c : Prop} [Decidable c] {f g : Bytes → Except Fault (α × Bytes)}
    (hf : c → Causal f) (hg : ¬ c → Causal g) : Causal fun s => if c then f s else g s := by
  by_cases h : c
  · simp only [if_pos h]
    exact hf h
  · simp only [if_neg h]
    exact hg h

/-! ### one after the other -/

section
variable {f : Bytes → Except Fault (α × Bytes)} {h : α × Bytes → Except Fault (β × Bytes)}

/-- the second scanner refuses behind its first byte, at which the first one stopped -/
theorem Causal.bind (hf : Causal f) (hh : ∀ a, Forward fun s => h (a, s)) :
    Causal fun s => f s >>= h where
  passed {s b r} hs := by
    obtain ⟨⟨a, t⟩, ha, hb⟩ := except_bind_eq_ok hs
    obtain ⟨v, rfl, hv⟩ := hf.passed ha
    obtain ⟨w, rfl, hw⟩ := (hh a).passed hb
    refine ⟨v ++ w, (List.append_assoc v w r).symm, fun r' hr' => ?_⟩
    have hhead : (w ++ r').head? = (w ++ r).head? := by
      rw [List.head?_append, List.head?_append, hr']
    rw [List.append_assoc, except_bind_ok (hv _ hhead)]
    exact hw r' hr'
  refused {s e} hs hd := by
    rcases except_bind_eq_error hs with he | ⟨⟨a, t⟩, ha, he⟩
    · obtain ⟨w, r, rfl, hr, hw⟩ := hf.refused he hd
      exact ⟨w, r, rfl, hr, fun r' => except_bind_error (hw r') h⟩
    · obtain ⟨v, rfl, hv⟩ := hf.passed ha
      obtain ⟨w, r, rfl, hr, hw⟩ := (hh a).refused he hd
      have hne : w ≠ [] := by
        rintro rfl
        have hlt := (hh a).behind he hd
        rw [hr] at hlt
        exact Nat.lt_irrefl _ hlt
      refine ⟨v ++ w, r, (List.append_assoc v w r).symm, hr, fun r' => ?_⟩
      have hhead : (w ++ r').head? = (w ++ r).head? := by
        rw [List.head?_append_of_ne_nil w hne, List.head?_append_of_ne_nil w hne]
      rw [List.append_assoc, except_bind_ok (hv _ hhead)]
      exact hw r'

theorem Causal.length_le (hf : Causal f) {s r : Bytes} {a : α} (ha : f s = .ok (a, r)) :
    r.length ≤ s.length := by
  obtain ⟨w, rfl, _⟩ := hf.passed ha
  rw [List.length_append]
  omega

theorem Forward.bind (hf : Forward f) (hh : ∀ a, Forward fun s => h (a, s)) :
    Forward fun s => f s >>= h where
  toCausal := hf.toCausal.bind hh
  behind {s e} hs hd := by
    rcases except_bind_eq_error hs with he | ⟨⟨a, t⟩, ha, he⟩
    · exact hf.behind he hd
    · exact Nat.lt_of_lt_of_le ((hh a).behind he hd) (hf.length_le ha)

theorem Reads.bind (hf : Reads f) (hh : ∀ a, Forward fun s => h (a, s)) :
    Reads fun s => f s >>= h where
  toForward := hf.toForward.bind hh
  shorter {s b r} hs := by
    obtain ⟨⟨a, t⟩, ha, hb⟩ := except_bind_eq_ok hs
    exact Nat.lt_of_le_of_lt ((hh a).length_le hb) (hf.shorter ha)

end

/-! ### first bytes -/

section
variable {f : Bytes → Except Fault (α × Bytes)}

theorem Reads.cons (hf : Reads f) (b : UInt8) : Causal fun s => f (b :: s) where
  passed {s a r} ha := by
    obtain ⟨w, hs, hw⟩ := hf.passed ha
    cases w with
    | nil =>
      have hlt := hf.shorter ha
      rw [hs, List.nil_append] at hlt
      exact absurd hlt (Nat.lt_irrefl _)
    | cons c w =>
      cases hs
      exact ⟨w, rfl, hw⟩
  refused {s e} he hd := by
    obtain ⟨w, r, hs, hr, hw⟩ := hf.refused he hd
    cases w with
    | nil =>
      have hlt := hf.behind he hd
      rw [hs, hr, List.nil_append] at hlt
      exact absurd hlt (Nat.lt_irrefl _)
    | cons c w =>
      cases hs
      exact ⟨w, r, rfl, hr, hw⟩

/-- a scanner that finds a byte, maybe behind others, and is causal behind it -/
theorem Reads.of_exists {e : Fault} (he : ¬ e.problem.IsDecided)
    (h : ∀ s, f s = .error e ∨ ∃ a b t, s = a ++ b :: t ∧ Causal fun u => f (a ++ b :: u)) :
    Reads f := by
  have hok {s : Bytes} {x : α × Bytes} (hs : f s = .ok x) :
      ∃ a b t, s = a ++ b :: t ∧ Causal fun u => f (a ++ b :: u) := by
    rcases h s with hs' | hs'
    · cases hs.symm.trans hs'
    · exact hs'
  have herror {s : Bytes} {e' : Fault} (hs : f s = .error e') (hd : e'.problem.IsDecided) :
      ∃ a b t, s = a ++ b :: t ∧ Causal fun u => f (a ++ b :: u) := by
    rcases h s with hs' | hs'
    · cases hs.symm.trans hs'
      exact absurd hd he
    · exact hs'
  refine ⟨⟨⟨fun ha => ?_, fun hs hd => ?_⟩, fun hs hd => ?_⟩, fun ha => ?_⟩
  · obtain ⟨a, b, t, rfl, hc⟩ := hok ha
    obtain ⟨w, rfl, hw⟩ := hc.passed ha
    exact ⟨a ++ b :: w, by simp, fun r' hr' => by simpa using hw r' hr'⟩
  · obtain ⟨a, b, t, rfl, hc⟩ := herror hs hd
    obtain ⟨w, r, rfl, hr, hw⟩ := hc.refused hs hd
    exact ⟨a ++ b :: w, r, by simp, hr, fun r' => by simpa using hw r'⟩
  · obtain ⟨a, b, t, rfl, hc⟩ := herror hs hd
    obtain ⟨w, r, rfl, hr, -⟩ := hc.refused hs hd
    rw [hr]
    show r.length < _
    simp only [List.length_append, List.length_cons]
    omega
  · obtain ⟨a, b, t, rfl, hc⟩ := hok ha
    have hle := hc.length_le ha
    rw [List.length_append, List.length_cons]
    omega

theorem Reads.of_cons {e : Fault} (hnil : f [] = .error e) (he : ¬ e.problem.IsDecided)
    (hcons : ∀ b, Causal fun s => f (b :: s)) : Reads f := by
  apply Reads.of_exists he
  intro s
  cases s with
  | nil => exact .inl hnil
  | cons b t => exact .inr ⟨[], b, t, rfl, hcons b⟩

theorem Reads.of_skip {e : Fault} (hskip : ∀ s, f (skip s) = f s) (hnil : f [] = .error e)
    (he : ¬ e.problem.IsDecided)
    (hcons : ∀ b, (∀ s, skip (b :: s) = b :: s) → Causal fun s => f (b :: s)) : Reads f := by
  apply Reads.of_exists he
  intro s
  cases hs : skip s with
  | nil => exact .inl (by rw [← hskip, hs, hnil])
  | cons b t =>
    obtain ⟨a, ha, rfl⟩ := exists_leads hs
    have hfirst (u : Bytes) : f (a ++ b :: u) = f (b :: u) := by rw [← hskip, ha.skip]
    have hb (u : Bytes) : skip (b :: u) = b :: u :=
      List.dropWhile_cons_of_neg (Bool.eq_false_iff.1 ha.other)
    refine .inr ⟨a, b, t, rfl, ?_⟩
    simp only [hfirst]
    exact hcons b hb

theorem Forward.optional {P : UInt8 → Prop} {a : α} (hnil : f [] = .ok (a, []))
    (hnot : ∀ b s, ¬ P b → f (b :: s) = .ok (a, b :: s))
    (hcons : ∀ b, P b → Causal fun s => f (b :: s)) : Forward f := by
  have hpass {s : Bytes} (hs : ∀ b ∈ s.head?, ¬ P b) : f s = .ok (a, s) := by
    cases s with
    | nil => exact hnil
    | cons b s => exact hnot b s (hs b rfl)
  have hgo (s : Bytes) : (∀ b ∈ s.head?, ¬ P b) ∨ ∃ b t, s = b :: t ∧ P b := by
    cases s with
    | nil => exact .inl (by simp)
    | cons b t =>
      by_cases hb : P b
      · exact .inr ⟨b, t, rfl, hb⟩
      · exact .inl fun c hc => by
          cases hc
          exact hb
  refine ⟨⟨fun {s x r} hx => ?_, fun {s e} he hd => ?_⟩, fun {s e} he hd => ?_⟩
  · obtain hs | ⟨b, t, rfl, hb⟩ := hgo s
    · cases (hpass hs).symm.trans hx
      exact ⟨[], rfl, fun r' hr' => hpass (hr' ▸ hs)⟩
    · obtain ⟨w, rfl, hw⟩ := (hcons b hb).passed hx
      exact ⟨b :: w, rfl, hw⟩
  · obtain hs | ⟨b, t, rfl, hb⟩ := hgo s
    · cases (hpass hs).symm.trans he
    · obtain ⟨w, r, rfl, hr, hw⟩ := (hcons b hb).refused he hd
      exact ⟨b :: w, r, rfl, hr, hw⟩
  · obtain hs | ⟨b, t, rfl, hb⟩ := hgo s
    · cases (hpass hs).symm.trans he
    · obtain ⟨w, r, rfl, hr, -⟩ := (hcons b hb).refused he hd
      rw [hr]
      show r.length < _
      rw [List.length_cons, List.length_append]
      omega

end

end Reader
end Json
end TagTree
