import TagTree.Proofs.ReadBack

/-!
# Reading a part of a text

A scanner that succeeds has taken some bytes, and takes them for the same whatever stands behind
them, and with more fuel.  Only a number must not go on there.  So a text means the same on its own
and as an element of an array.

* `Stops`                  no number goes on;
* `scalar_local`           a scalar is taken by its own bytes;
* `value_local`            so is every value, by induction on the fuel;
* `Means`                  some bytes are a value with blanks around it, whatever follows;
* `means_iff`              that is, they are read as the value on their own;
* `readTree_array`         the text of an array is read element by element.
-/

namespace TagTree
namespace Json.Reader
open Text

/-! ## blanks -/

/-- blanks in front of a byte that is none -/
structure Leads (a : Bytes) (b : UInt8) : Prop where
  blanks : ∀ x ∈ a, isBlank x = true
  other : isBlank b = false

theorem Leads.skip {a : Bytes} {b : UInt8} (h : Leads a b) (s : Bytes) :
    Reader.skip (a ++ b :: s) = b :: s := by
  rw [Reader.skip, List.dropWhile_append_of_pos h.blanks,
    List.dropWhile_cons_of_neg (Bool.eq_false_iff.1 h.other)]

theorem exists_leads {s t : Bytes} {b : UInt8} (h : skip s = b :: t) :
    ∃ a, Leads a b ∧ s = a ++ b :: t := by
  induction s with
  | nil => cases h
  | cons c s ih =>
    rw [skip, List.dropWhile_cons] at h
    split at h
    · rename_i hc
      obtain ⟨a, ha, rfl⟩ := ih h
      exact ⟨c :: a, ⟨List.forall_mem_cons.2 ⟨hc, ha.blanks⟩, ha.other⟩, rfl⟩
    · rename_i hc
      cases h
      exact ⟨[], ⟨List.forall_mem_nil _, Bool.eq_false_iff.2 hc⟩, rfl⟩

/-! ## strings -/

theorem hexFour_local {s r : Bytes} {n : Nat} (h : hexFour s = .ok (n, r)) :
    ∃ w, s = w ++ r ∧ ∀ r', hexFour (w ++ r') = .ok (n, r') := by
  obtain ⟨a, b, c, d, w, x, y, z, rfl, ha, hb, hc, hd, rfl⟩ := hexFour_eq_ok h
  refine ⟨[a, b, c, d], rfl, fun r' => ?_⟩
  simp only [List.cons_append, List.nil_append, hexFour, ha, hb, hc, hd]
  congr 2
  omega

theorem unicodeEscape_local {s r c : Bytes} (h : unicodeEscape s = .ok (c, r)) :
    ∃ w, s = w ++ r ∧ ∀ r', unicodeEscape (w ++ r') = .ok (c, r') := by
  obtain ⟨n, t, hn, hlow, ⟨hhigh, rfl⟩ | ⟨u, m, hhigh, rfl, hm, hm'⟩⟩ := unicodeEscape_eq_ok h
  · obtain ⟨w, rfl, hw⟩ := hexFour_local hn
    refine ⟨w, rfl, fun r' => ?_⟩
    simp only [unicodeEscape, hn, bind, Except.bind, hlow, hhigh] at h
    cases h
    simp [unicodeEscape, hw, bind, Except.bind, hlow, hhigh]
  · obtain ⟨v, rfl, hv⟩ := hexFour_local hn
    obtain ⟨w, rfl, hw⟩ := hexFour_local hm
    refine ⟨v ++ Ascii.backslash :: Ascii.lowerU :: w, by simp, fun r' => ?_⟩
    simp [unicodeEscape, hv, hw, hexEscapeByte, bind, Except.bind, hlow, hhigh, hm'] at h ⊢
    exact h

theorem escape_local {s r c : Bytes} (h : escape s = .ok (c, r)) :
    ∃ w, s = w ++ r ∧ ∀ r', escape (w ++ r') = .ok (c, r') := by
  unfold escape at h
  split at h
  · cases h
  · rename_i b t
    cases hb : letterEscape? b with
    | some d =>
      rw [hb] at h
      cases h
      exact ⟨[b], rfl, fun r' => by simp only [List.singleton_append, escape, hb]⟩
    | none =>
      rw [hb] at h
      dsimp only at h
      split at h
      · rename_i hu
        obtain ⟨w, rfl, hw⟩ := unicodeEscape_local h
        refine ⟨b :: w, rfl, fun r' => ?_⟩
        simp only [List.cons_append, escape, hb, if_pos hu, hw]
      · cases h

theorem stringBody_local {read s bs r : Bytes} (h : stringBody read s = .ok (bs, r)) :
    ∃ w, s = w ++ r ∧ ∀ r', stringBody read (w ++ r') = .ok (bs, r') := by
  -- an escape takes several bytes, so the induction is on the length
  induction hn : s.length using Nat.strong_induction_on generalizing s read with
  | _ n ih =>
    subst hn
    cases s with
    | nil =>
      rw [stringBody] at h
      cases h
    | cons b t =>
      by_cases hq : b = Ascii.quote
      · subst hq
        rw [stringBody_quote] at h
        cases h
        exact ⟨[Ascii.quote], rfl, fun r' => stringBody_quote read r'⟩
      by_cases hb : b = Ascii.backslash
      · subst hb
        obtain ⟨c, u, he, hbody⟩ := stringBody_escape_eq_ok h
        have hlen := escape_shorter he
        obtain ⟨v, rfl, hv⟩ := escape_local he
        obtain ⟨w, rfl, hw⟩ := ih u.length (by rw [List.length_cons]; omega) hbody rfl
        refine ⟨Ascii.backslash :: (v ++ w), by simp, fun r' => ?_⟩
        rw [List.cons_append, List.append_assoc, stringBody_escape (hv (w ++ r'))]
        exact hw r'
      by_cases hc : b < 0x20
      · rw [stringBody, if_neg hq, if_neg hb, if_pos hc] at h
        cases h
      · rw [stringBody_byte hq hb hc] at h
        obtain ⟨w, rfl, hw⟩ := ih t.length (by simp) h rfl
        refine ⟨b :: w, rfl, fun r' => ?_⟩
        rw [List.cons_append, stringBody_byte hq hb hc]
        exact hw r'

theorem string_local {s r : Bytes} {x : String} (h : string s = .ok (x, r)) :
    ∃ w, s = w ++ r ∧ ∀ r', string (w ++ r') = .ok (x, r') := by
  obtain ⟨⟨bs, t⟩, hbody, h⟩ := except_bind_eq_ok h
  cases h
  obtain ⟨w, rfl, hw⟩ := stringBody_local hbody
  refine ⟨w, rfl, fun r' => ?_⟩
  rw [string, hw]
  rfl

/-! ## numbers -/

/-- no digit goes on -/
def Digitless (s : Bytes) : Prop := ∀ b ∈ s.head?, isDigit b = false

/-- no number goes on -/
def Stops (s : Bytes) : Prop :=
  ∀ b ∈ s.head?, isDigit b = false ∧ b ≠ Ascii.point ∧ b ≠ 0x65 ∧ b ≠ 0x45

theorem Stops.digitless {s : Bytes} (h : Stops s) : Digitless s := fun b hb => (h b hb).1

theorem digits_local (s : Bytes) :
    ∃ w, s = w ++ (digits s).2 ∧ ∀ r', Digitless r' → digits (w ++ r') = ((digits s).1, r') := by
  refine ⟨s.takeWhile isDigit, List.takeWhile_append_dropWhile.symm, fun r' hr' => ?_⟩
  have hw : ∀ b ∈ s.takeWhile isDigit, isDigit b = true := fun b hb => List.mem_takeWhile_imp hb
  have hnone : r'.takeWhile isDigit = [] ∧ r'.dropWhile isDigit = r' := by
    cases r' with
    | nil => exact ⟨rfl, rfl⟩
    | cons b r' =>
      have hb := Bool.eq_false_iff.1 (hr' b rfl)
      exact ⟨List.takeWhile_cons_of_neg hb, List.dropWhile_cons_of_neg hb⟩
  rw [digits, List.takeWhile_append_of_pos hw, List.dropWhile_append_of_pos hw, hnone.1, hnone.2,
    List.append_nil]
  rfl

theorem wholePart_local {s r : Bytes} {ds : List Nat} (h : wholePart s = .ok (ds, r)) :
    ∃ b w, s = b :: w ++ r ∧ ∀ r', Digitless r' → wholePart (b :: w ++ r') = .ok (ds, r') := by
  have hzero (t : Bytes) (ht : Digitless t) : wholePart (Ascii.zero :: t) = .ok ([0], t) := by
    cases t with
    | nil => rfl
    | cons c t => simp only [wholePart, if_pos, ht c rfl, Bool.false_eq_true, if_false]
  rcases wholePart_eq_ok h with rfl | ⟨b, t, rfl, hb, h0, rfl⟩
  · have hr : Digitless r := by
      intro c hc
      cases r with
      | nil => cases hc
      | cons d r =>
        cases hc
        by_contra hdigit
        rw [Bool.not_eq_false] at hdigit
        simp only [wholePart, if_pos, hdigit] at h
        cases h
    rw [hzero r hr] at h
    cases h
    exact ⟨Ascii.zero, [], rfl, hzero⟩
  · rw [wholePart_digits hb h0] at h
    cases h
    obtain ⟨w, hs, hw⟩ := digits_local t
    refine ⟨b, w, by rw [List.cons_append, ← hs], fun r' hr' => ?_⟩
    rw [List.cons_append, wholePart_digits hb h0, hw r' hr']

theorem fractionPart_point_iff {s r : Bytes} {ds : List Nat} :
    fractionPart (Ascii.point :: s) = .ok (ds, r) ↔ ds ≠ [] ∧ digits s = (ds, r) := by
  simp only [fractionPart, if_pos]
  cases hd : digits s with
  | mk es u =>
    cases es with
    | nil => cases u <;> simp +contextual
    | cons e es =>
      simp only [Except.ok.injEq, Prod.mk.injEq]
      exact ⟨fun h => ⟨h.1 ▸ List.cons_ne_nil e es, h⟩, fun h => h.2⟩

theorem fractionPart_of_ne {s : Bytes} (h : s.head? ≠ some Ascii.point) :
    fractionPart s = .ok ([], s) := by
  cases s with
  | nil => rfl
  | cons b s =>
    have hb : b ≠ Ascii.point := fun he => h (congrArg some he)
    rw [fractionPart, if_neg hb]

theorem fractionPart_local {s r : Bytes} {ds : List Nat} (h : fractionPart s = .ok (ds, r)) :
    ∃ w, s = w ++ r ∧ ∀ r', Digitless r' → r'.head? ≠ some Ascii.point →
      Digitless (w ++ r') ∧ fractionPart (w ++ r') = .ok (ds, r') := by
  by_cases hs : s.head? = some Ascii.point
  · obtain ⟨t, rfl⟩ := List.head?_eq_some_iff.1 hs
    obtain ⟨hne, hd⟩ := fractionPart_point_iff.1 h
    obtain ⟨w, ht, hw⟩ := digits_local t
    rw [hd] at ht hw
    refine ⟨Ascii.point :: w, by rw [List.cons_append, ← ht], fun r' hr' _ => ⟨?_, ?_⟩⟩
    · rintro b ⟨⟩
      decide
    · exact fractionPart_point_iff.2 ⟨hne, hw r' hr'⟩
  · rw [fractionPart_of_ne hs] at h
    cases h
    exact ⟨[], rfl, fun r' hr' hpoint => ⟨hr', fractionPart_of_ne hpoint⟩⟩

theorem exponentSign_local {s t : Bytes} {down : Bool} {c : UInt8} (hc : isDigit c = true)
    (h : exponentSign s = (down, c :: t)) :
    ∃ w, s = w ++ c :: t ∧ ∀ t', exponentSign (w ++ c :: t') = (down, c :: t') := by
  rcases exists_of_exponentSign h with rfl | rfl | rfl
  · rw [exponentSign_digit hc] at h
    cases h
    exact ⟨[], rfl, exponentSign_digit hc⟩
  · cases h
    exact ⟨[Ascii.plus], rfl, fun t' => rfl⟩
  · cases h
    exact ⟨[Ascii.minus], rfl, fun t' => rfl⟩

theorem exponentPart_of_ne {s : Bytes} (h : ∀ b ∈ s.head?, b ≠ 0x65 ∧ b ≠ 0x45) :
    exponentPart s = .ok (none, s) := by
  cases s with
  | nil => rfl
  | cons b s =>
    obtain ⟨he, hE⟩ := h b rfl
    rw [exponentPart, if_neg (not_or.2 ⟨he, hE⟩)]

theorem exponentPart_mark_eq_ok {s r : Bytes} {x : Option (Bool × List Nat)} {b : UInt8}
    (hb : b = 0x65 ∨ b = 0x45) (h : exponentPart (b :: s) = .ok (x, r)) :
    ∃ down c t, exponentSign s = (down, c :: t) ∧ isDigit c = true := by
  rw [exponentPart, if_pos hb] at h
  split at h
  · cases h
  · rename_i down c t hs
    split at h
    · rename_i hc
      exact ⟨down, c, t, hs, hc⟩
    · cases h

theorem exponentPart_local {s r : Bytes} {x : Option (Bool × List Nat)}
    (h : exponentPart s = .ok (x, r)) :
    ∃ w, s = w ++ r ∧ ∀ r', Stops r' → Digitless (w ++ r') ∧ (w ++ r').head? ≠ some Ascii.point ∧
      exponentPart (w ++ r') = .ok (x, r') := by
  by_cases hs : ∃ b ∈ s.head?, b = 0x65 ∨ b = 0x45
  · obtain ⟨b, hhead, hb⟩ := hs
    obtain ⟨t, rfl⟩ := List.head?_eq_some_iff.1 hhead
    obtain ⟨down, c, u, hsign, hc⟩ := exponentPart_mark_eq_ok hb h
    rw [exponentPart_mark hb hsign hc] at h
    cases h
    obtain ⟨v, rfl, hv⟩ := exponentSign_local hc hsign
    obtain ⟨w, hu, hw⟩ := digits_local u
    have happend (y : Bytes) : b :: (v ++ c :: w) ++ y = b :: (v ++ c :: (w ++ y)) := by simp
    refine ⟨b :: (v ++ c :: w), by rw [happend, ← hu], fun r' hr' => ?_⟩
    rw [happend, exponentPart_mark hb (hv _) hc, hw r' hr'.digitless]
    refine ⟨?_, ?_, rfl⟩
    · rintro d ⟨⟩
      rcases hb with rfl | rfl <;> decide
    · intro hpoint
      rcases hb with rfl | rfl <;> cases hpoint
  · have hne : ∀ b ∈ s.head?, b ≠ 0x65 ∧ b ≠ 0x45 := fun b hb =>
      not_or.1 fun hmark => hs ⟨b, hb, hmark⟩
    rw [exponentPart_of_ne hne] at h
    cases h
    refine ⟨[], rfl, fun r' hr' => ⟨hr'.digitless, fun hpoint => ?_, ?_⟩⟩
    · exact (hr' _ hpoint).2.1 rfl
    · exact exponentPart_of_ne fun b hb => (hr' b hb).2.2

theorem numeral_local {negative : Bool} {s r : Bytes} {x : Numeral}
    (h : numeral negative s = .ok (x, r)) :
    ∃ b w, s = b :: w ++ r ∧ ∀ r', Stops r' → numeral negative (b :: w ++ r') = .ok (x, r') := by
  obtain ⟨⟨whole, s₁⟩, hwhole, h⟩ := except_bind_eq_ok h
  obtain ⟨⟨fraction, s₂⟩, hfraction, h⟩ := except_bind_eq_ok h
  obtain ⟨⟨exponent, s₃⟩, hexponent, h⟩ := except_bind_eq_ok h
  cases h
  obtain ⟨b, u, rfl, hu⟩ := wholePart_local hwhole
  obtain ⟨v, rfl, hv⟩ := fractionPart_local hfraction
  obtain ⟨w, rfl, hw⟩ := exponentPart_local hexponent
  refine ⟨b, u ++ (v ++ w), by simp, fun r' hr' => ?_⟩
  obtain ⟨hdigit, hpoint, hexponent'⟩ := hw r' hr'
  obtain ⟨hdigit', hfraction'⟩ := hv (w ++ r') hdigit hpoint
  have happend : b :: (u ++ (v ++ w)) ++ r' = b :: u ++ (v ++ (w ++ r')) := by simp
  rw [happend, numeral, hu _ hdigit']
  simp only [bind, Except.bind, hfraction', hexponent']

theorem number_local {negative : Bool} {s r : Bytes} {n : Number}
    (h : number negative s = .ok (n, r)) :
    ∃ b w, s = b :: w ++ r ∧ ∀ r', Stops r' → number negative (b :: w ++ r') = .ok (n, r') := by
  obtain ⟨x, hx, hn⟩ := number_eq_ok h
  obtain ⟨b, w, rfl, hw⟩ := numeral_local hx
  refine ⟨b, w, rfl, fun r' hr' => ?_⟩
  rw [number, hw r' hr']
  simp only [bind, Except.bind, hn]

/-! ## scalars -/

theorem scalar_local {b : UInt8} {s r : Bytes} {v : Json} (h : scalar b s = .ok (v, r)) :
    b ≠ Ascii.openBracket ∧ b ≠ Ascii.openBrace ∧
      ∃ w, s = w ++ r ∧ ∀ r', Stops r' → scalar b (w ++ r') = .ok (v, r') := by
  refine ⟨?_, ?_, ?_⟩
  · rintro rfl
    cases h
  · rintro rfl
    cases h
  rcases scalar_eq_ok h with ⟨rfl, x, rfl, hx⟩ | ⟨rfl, n, rfl, hn⟩ | ⟨hb, n, rfl, hn⟩ | ⟨x, hx, hv⟩
  · obtain ⟨w, rfl, hw⟩ := string_local hx
    refine ⟨w, rfl, fun r' _ => ?_⟩
    rw [scalar_quote, hw]
    rfl
  · obtain ⟨c, w, rfl, hw⟩ := number_local hn
    refine ⟨c :: w, rfl, fun r' hr' => ?_⟩
    rw [scalar_minus, hw r' hr']
    rfl
  · obtain ⟨c, w, hs, hw⟩ := number_local hn
    cases hs
    refine ⟨w, rfl, fun r' hr' => ?_⟩
    rw [scalar_digit hb]
    show (number false (b :: w ++ r')).map _ = _
    rw [hw r' hr']
    rfl
  · rcases hv with ⟨rfl, rfl⟩ | ⟨rfl, rfl⟩ | ⟨rfl, rfl⟩
    · cases hx
      exact ⟨[0x75, 0x6C, 0x6C], rfl, fun r' _ => rfl⟩
    · cases hx
      exact ⟨[0x72, 0x75, 0x65], rfl, fun r' _ => rfl⟩
    · cases hx
      exact ⟨[0x61, 0x6C, 0x73, 0x65], rfl, fun r' _ => rfl⟩

/-! ## values -/

theorem stops_blanks {a s : Bytes} (ha : ∀ x ∈ a, isBlank x = true) (hs : Stops s) :
    Stops (a ++ s) := by
  cases a with
  | nil => exact hs
  | cons c a =>
    have hc := ha c List.mem_cons_self
    simp only [isBlank, Bool.or_eq_true, beq_iff_eq] at hc
    rintro d ⟨⟩
    rcases hc with ((rfl | rfl) | rfl) | rfl <;> decide

theorem stops_cons {b : UInt8}
    (hb : isDigit b = false ∧ b ≠ Ascii.point ∧ b ≠ 0x65 ∧ b ≠ 0x45) (s : Bytes) :
    Stops (b :: s) := by
  rintro c ⟨⟩
  exact hb

/-- a number ends at blanks and at a mark -/
theorem Leads.stops {a : Bytes} {b : UInt8} (h : Leads a b)
    (hb : isDigit b = false ∧ b ≠ Ascii.point ∧ b ≠ 0x65 ∧ b ≠ 0x45) (s : Bytes) :
    Stops (a ++ b :: s) :=
  stops_blanks h.blanks (stops_cons hb s)

theorem key_local {atEnd : Problem} {s r : Bytes} {x : String} (h : key atEnd s = .ok (x, r)) :
    ∃ w, s = Ascii.quote :: w ++ r ∧ ∀ r', key atEnd (Ascii.quote :: w ++ r') = .ok (x, r') := by
  obtain ⟨t, u, rfl, hx, hu⟩ := key_eq_ok h
  obtain ⟨a, ha, rfl⟩ := exists_leads hu
  obtain ⟨w, rfl, hw⟩ := string_local hx
  refine ⟨w ++ a ++ [Ascii.colon], by simp, fun r' => ?_⟩
  have happend : Ascii.quote :: (w ++ a ++ [Ascii.colon]) ++ r' =
      Ascii.quote :: (w ++ (a ++ Ascii.colon :: r')) := by simp
  rw [happend]
  exact key_colon (hw _) (ha.skip r')

/-- a value is taken by its own bytes, given fuel for them -/
def ValueLocal (fuel : Nat) : Prop :=
  ∀ {s : Bytes} {v : Json} {r : Bytes}, value fuel s = .ok (v, r) →
    ∃ w, s = w ++ r ∧ ∀ fuel' r', fuel ≤ fuel' → Stops r' → value fuel' (w ++ r') = .ok (v, r')

def ItemsLocal (fuel : Nat) : Prop :=
  ∀ {read : List Json} {s : Bytes} {v : Json} {r : Bytes}, items fuel read (skip s) = .ok (v, r) →
    ∃ b w, skip s = b :: w ++ r ∧ b ≠ Ascii.closeBracket ∧
      ∀ fuel' r', fuel ≤ fuel' → items fuel' read (b :: w ++ r') = .ok (v, r')

def FieldsLocal (fuel : Nat) : Prop :=
  ∀ {read : List (String × Json)} {atEnd : Problem} {s : Bytes} {v : Json} {r : Bytes},
    fields fuel read atEnd (skip s) = .ok (v, r) →
    ∃ b w, skip s = b :: w ++ r ∧ b ≠ Ascii.closeBrace ∧
      ∀ fuel' r', fuel ≤ fuel' → fields fuel' read atEnd (b :: w ++ r') = .ok (v, r')

/-- bytes in front of a byte start with the byte that the whole starts with -/
theorem exists_cons_of_append {w r u : Bytes} {b : UInt8} (h : b :: u = w ++ r) (hw : w ≠ []) :
    ∃ w', w = b :: w' := by
  cases w with
  | nil => exact absurd rfl hw
  | cons c w =>
    cases h
    exact ⟨w, rfl⟩

theorem ItemsLocal.step {fuel : Nat} (hv : ValueLocal fuel) (hi : ItemsLocal fuel) :
    ItemsLocal (fuel + 1) := by
  intro read s v r h
  obtain ⟨x, t, hx, ht⟩ := items_eq_ok h
  obtain ⟨b, u, hs, hb⟩ : ∃ b u, skip s = b :: u ∧ b ≠ Ascii.closeBracket := by
    cases fuel with
    | zero => cases hx
    | succ fuel =>
      have hhead := exists_head_of_value hx
      rwa [skip_skip] at hhead
  obtain ⟨w, hw, hvalue⟩ := hv hx
  -- the bytes taken start with the first byte, which is no bracket
  suffices hall : ∃ w', w' ≠ [] ∧ skip s = w' ++ r ∧
      ∀ fuel' r', fuel + 1 ≤ fuel' → items fuel' read (w' ++ r') = .ok (v, r') by
    obtain ⟨w', hne, hw', hitems⟩ := hall
    obtain ⟨w', rfl⟩ := exists_cons_of_append (hs.symm.trans hw') hne
    exact ⟨b, w', hw', hb, hitems⟩
  rcases ht with ⟨hclose, rfl⟩ | ⟨y, hcomma, hrest⟩
  · obtain ⟨a, ha, rfl⟩ := exists_leads hclose
    refine ⟨w ++ a ++ [Ascii.closeBracket], by simp, by simp [hw], fun fuel' r' hle => ?_⟩
    obtain ⟨fuel', rfl⟩ := Nat.exists_eq_add_of_le' (Nat.le_trans (Nat.le_add_left 1 fuel) hle)
    have happend : w ++ a ++ [Ascii.closeBracket] ++ r' = w ++ (a ++ Ascii.closeBracket :: r') := by
      simp
    have hx' := hvalue fuel' _ (by omega) (ha.stops (by decide) r')
    rw [happend]
    exact items_last hx' (ha.skip r')
  · obtain ⟨a, ha, rfl⟩ := exists_leads hcomma
    obtain ⟨c, y', hy, hc, hitems⟩ := hi hrest
    obtain ⟨a', ha', rfl⟩ := exists_leads hy
    refine ⟨w ++ a ++ Ascii.comma :: (a' ++ c :: y'), by simp, by simp [hw], fun fuel' r' hle => ?_⟩
    obtain ⟨fuel', rfl⟩ := Nat.exists_eq_add_of_le' (Nat.le_trans (Nat.le_add_left 1 fuel) hle)
    have happend : w ++ a ++ Ascii.comma :: (a' ++ c :: y') ++ r' =
        w ++ (a ++ Ascii.comma :: (a' ++ c :: (y' ++ r'))) := by simp
    have hx' := hvalue fuel' _ (by omega) (ha.stops (by decide) (a' ++ c :: (y' ++ r')))
    rw [happend, items_next hx' (ha.skip _) (ha'.skip _) hc, ha'.skip]
    exact hitems fuel' r' (by omega)

theorem FieldsLocal.step {fuel : Nat} (hv : ValueLocal fuel) (hf : FieldsLocal fuel) :
    FieldsLocal (fuel + 1) := by
  intro read atEnd s v r h
  obtain ⟨k, x, t, u, hk, hx, hu⟩ := fields_eq_ok h
  obtain ⟨q, hq, hkey⟩ := key_local hk
  obtain ⟨w, rfl, hvalue⟩ := hv hx
  rw [hq]
  rcases hu with ⟨hclose, rfl⟩ | ⟨y, hcomma, hrest⟩
  · obtain ⟨a, ha, rfl⟩ := exists_leads hclose
    refine ⟨Ascii.quote, q ++ w ++ a ++ [Ascii.closeBrace], by simp, by decide, fun fuel' r' hle => ?_⟩
    obtain ⟨fuel', rfl⟩ := Nat.exists_eq_add_of_le' (Nat.le_trans (Nat.le_add_left 1 fuel) hle)
    have happend : Ascii.quote :: (q ++ w ++ a ++ [Ascii.closeBrace]) ++ r' =
        Ascii.quote :: q ++ (w ++ (a ++ Ascii.closeBrace :: r')) := by simp
    have hx' := hvalue fuel' _ (by omega) (ha.stops (by decide) r')
    rw [happend]
    exact fields_last (hkey _) hx' (ha.skip r')
  · obtain ⟨a, ha, rfl⟩ := exists_leads hcomma
    obtain ⟨c, y', hy, hc, hfields⟩ := hf hrest
    obtain ⟨a', ha', rfl⟩ := exists_leads hy
    refine ⟨Ascii.quote, q ++ w ++ a ++ Ascii.comma :: (a' ++ c :: y'), by simp, by decide,
      fun fuel' r' hle => ?_⟩
    obtain ⟨fuel', rfl⟩ := Nat.exists_eq_add_of_le' (Nat.le_trans (Nat.le_add_left 1 fuel) hle)
    have happend : Ascii.quote :: (q ++ w ++ a ++ Ascii.comma :: (a' ++ c :: y')) ++ r' =
        Ascii.quote :: q ++ (w ++ (a ++ Ascii.comma :: (a' ++ c :: (y' ++ r')))) := by simp
    have hx' := hvalue fuel' _ (by omega) (ha.stops (by decide) (a' ++ c :: (y' ++ r')))
    rw [happend, fields_next (hkey _) hx' (ha.skip _) (ha'.skip _) hc, ha'.skip]
    exact hfields fuel' r' (by omega)

theorem ValueLocal.step {fuel : Nat} (hi : ItemsLocal fuel) (hf : FieldsLocal fuel) :
    ValueLocal (fuel + 1) := by
  intro s v r h
  obtain ⟨b, t, hs, hread⟩ := value_eq_ok h
  obtain ⟨a, ha, rfl⟩ := exists_leads hs
  -- the bytes behind the first one, and how the reader goes on there
  suffices hall : ∃ w, t = w ++ r ∧ ∀ fuel' r', fuel ≤ fuel' → Stops r' →
      value (fuel' + 1) (a ++ b :: (w ++ r')) = .ok (v, r') by
    obtain ⟨w, rfl, hw⟩ := hall
    refine ⟨a ++ b :: w, by simp, fun fuel' r' hle hr' => ?_⟩
    obtain ⟨fuel', rfl⟩ := Nat.exists_eq_add_of_le' (Nat.le_trans (Nat.le_add_left 1 fuel) hle)
    rw [List.append_assoc, List.cons_append]
    exact hw fuel' r' (by omega) hr'
  rcases hread with ⟨rfl, ⟨hclose, rfl⟩ | hitems⟩ | ⟨rfl, ⟨hclose, rfl⟩ | hfields⟩ | hscalar
  · obtain ⟨a', ha', rfl⟩ := exists_leads hclose
    refine ⟨a' ++ [Ascii.closeBracket], by simp, fun fuel' r' _ _ => ?_⟩
    rw [List.append_assoc]
    exact value_emptyArray (ha.skip _) (ha'.skip r')
  · obtain ⟨c, w, ht, hc, hw⟩ := hi hitems
    obtain ⟨a', ha', rfl⟩ := exists_leads ht
    refine ⟨a' ++ c :: w, by simp, fun fuel' r' hle _ => ?_⟩
    rw [List.append_assoc, List.cons_append, value_array (ha.skip _) (ha'.skip _) hc, ha'.skip]
    exact hw fuel' r' hle
  · obtain ⟨a', ha', rfl⟩ := exists_leads hclose
    refine ⟨a' ++ [Ascii.closeBrace], by simp, fun fuel' r' _ _ => ?_⟩
    rw [List.append_assoc]
    exact value_emptyObject (ha.skip _) (ha'.skip r')
  · obtain ⟨c, w, ht, hc, hw⟩ := hf hfields
    obtain ⟨a', ha', rfl⟩ := exists_leads ht
    refine ⟨a' ++ c :: w, by simp, fun fuel' r' hle _ => ?_⟩
    rw [List.append_assoc, List.cons_append, value_object (ha.skip _) (ha'.skip _) hc, ha'.skip]
    exact hw fuel' r' hle
  · obtain ⟨hbracket, hbrace, w, rfl, hw⟩ := scalar_local hscalar
    refine ⟨w, rfl, fun fuel' r' _ hr' => ?_⟩
    rw [value_scalar (ha.skip _) hbracket hbrace]
    exact hw r' hr'

theorem local_all (fuel : Nat) : ValueLocal fuel ∧ ItemsLocal fuel ∧ FieldsLocal fuel := by
  induction fuel with
  | zero =>
    refine ⟨?_, ?_, ?_⟩
    · intro s v r h
      cases h
    · intro read s v r h
      cases h
    · intro read atEnd s v r h
      cases h
  | succ fuel ih =>
    obtain ⟨hv, hi, hf⟩ := ih
    exact ⟨ValueLocal.step hi hf, ItemsLocal.step hv hi, FieldsLocal.step hv hf⟩

/-! ## bytes of values -/

/-- the bytes are read as the value and blanks around it, given fuel for them, whatever follows -/
def Means (s : Bytes) (v : Json) : Prop :=
  ∀ fuel r', 2 * s.length + 2 ≤ fuel → Stops r' →
    ∃ r, value fuel (s ++ r') = .ok (v, r) ∧ skip r = skip r'

/-- what is read on its own is read in front of anything else -/
theorem means_iff {s : Bytes} {v : Json} : Means s v ↔ document s = .ok v := by
  constructor
  · intro h
    obtain ⟨r, hv, hr⟩ := h _ [] (Nat.le_refl _) fun b hb => nomatch hb
    rw [List.append_nil] at hv
    exact document_of_value hv hr
  · intro h fuel r' hfuel hr'
    obtain ⟨r, hv, hr⟩ := document_eq_ok h
    have hblanks : ∀ x ∈ r, isBlank x = true := List.dropWhile_eq_nil_iff.1 hr
    have hlength : 2 * s.length + 2 ≤ fuel := hfuel
    obtain ⟨w, rfl, hw⟩ := (local_all _).1 hv
    refine ⟨r ++ r', ?_, List.dropWhile_append_of_pos hblanks⟩
    rw [List.append_assoc]
    exact hw fuel (r ++ r') hlength (stops_blanks hblanks hr')

theorem Means.exists_head {s : Bytes} {v : Json} (h : Means s v) {r' : Bytes} (hr' : Stops r') :
    ∃ c t, skip (s ++ r') = c :: t ∧ c ≠ Ascii.closeBracket := by
  obtain ⟨r, hv, _⟩ := h (2 * s.length + 1 + 1) r' (Nat.le_refl _) hr'
  exact exists_head_of_value hv

section
variable {ss : List Bytes} {vs : List Json} {s : Bytes} {v : Json}

theorem exists_head_of_means (h : List.Forall₂ Means (s :: ss) (v :: vs)) (r' : Bytes) :
    ∃ c t, skip ([Ascii.comma].intercalate (s :: ss) ++ Ascii.closeBracket :: r') = c :: t ∧
      c ≠ Ascii.closeBracket := by
  obtain ⟨hs, hss⟩ := List.forall₂_cons.1 h
  cases ss with
  | nil =>
    rw [List.intercalate_singleton]
    exact hs.exists_head (stops_cons (by decide) r')
  | cons s' ss =>
    rw [List.intercalate_cons_cons, List.append_assoc, List.append_assoc]
    exact hs.exists_head (stops_cons (by decide) _)

theorem items_of_means (h : List.Forall₂ Means (s :: ss) (v :: vs)) (read : List Json) (r' : Bytes)
    {fuel : Nat} (hfuel : 2 * ([Ascii.comma].intercalate (s :: ss)).length + 3 ≤ fuel) :
    items fuel read (skip ([Ascii.comma].intercalate (s :: ss) ++ Ascii.closeBracket :: r')) =
      .ok (.array (read.reverse ++ v :: vs), r') := by
  induction ss generalizing s v vs read fuel with
  | nil =>
    obtain ⟨hs, hss⟩ := List.forall₂_cons.1 h
    cases hss
    rw [List.intercalate_singleton] at hfuel ⊢
    obtain ⟨fuel, rfl⟩ := Nat.exists_eq_add_of_le' (by omega : 2 ≤ fuel)
    obtain ⟨r, hv, hr⟩ := hs (fuel + 1) (Ascii.closeBracket :: r') (by omega)
      (stops_cons (by decide) r')
    rw [items_last ((value_skip fuel _).trans hv) hr, List.reverse_cons]
  | cons s' ss ih =>
    obtain ⟨hs, hss⟩ := List.forall₂_cons.1 h
    cases vs with
    | nil => cases hss
    | cons v' vs =>
      obtain ⟨c, t, hhead, hc⟩ := exists_head_of_means hss r'
      rw [List.intercalate_cons_cons, List.append_assoc, List.append_assoc, List.singleton_append]
      rw [List.intercalate_cons_cons, List.length_append, List.length_append,
        List.length_singleton] at hfuel
      obtain ⟨fuel, rfl⟩ := Nat.exists_eq_add_of_le' (by omega : 2 ≤ fuel)
      have hstops := stops_cons (b := Ascii.comma) (by decide)
        ([Ascii.comma].intercalate (s' :: ss) ++ Ascii.closeBracket :: r')
      obtain ⟨r, hv, hr⟩ := hs (fuel + 1) _ (by omega) hstops
      rw [items_next ((value_skip fuel _).trans hv) hr hhead hc, ih hss (v :: read) (by omega),
        List.reverse_cons, List.append_assoc, List.singleton_append]

theorem means_array (h : List.Forall₂ Means (s :: ss) (v :: vs)) :
    Means (Ascii.openBracket :: ([Ascii.comma].intercalate (s :: ss) ++ [Ascii.closeBracket]))
      (.array (v :: vs)) := by
  intro fuel r' hfuel hr'
  obtain ⟨c, t, hhead, hc⟩ := exists_head_of_means h r'
  rw [List.length_cons, List.length_append, List.length_singleton] at hfuel
  obtain ⟨fuel, rfl⟩ := Nat.exists_eq_add_of_le' (by omega : 1 ≤ fuel)
  refine ⟨r', ?_, rfl⟩
  rw [List.cons_append, List.append_assoc, List.singleton_append,
    value_array (List.dropWhile_cons_of_neg (by decide)) hhead hc,
    items_of_means h [] r' (by omega)]
  rfl

end

end Json.Reader

open Json Text

theorem readTree_eq_ok {text : String} {t : Json} :
    readTree text = .ok t ↔ Reader.document (encode text.toList) = .ok t := by
  rw [readTree, Reader.read_eq]
  cases Reader.document (encode text.toList) <;> simp [Except.mapError]

theorem encode_intercalate (texts : List String) :
    encode (String.intercalate "," texts).toList =
      [Reader.Ascii.comma].intercalate (texts.map fun s => encode s.toList) := by
  rw [String.toList_intercalate]
  induction texts with
  | nil => rfl
  | cons s texts ih =>
    cases texts with
    | nil => simp
    | cons s' texts =>
      simp only [List.map_cons] at ih ⊢
      rw [List.intercalate_cons_cons, List.intercalate_cons_cons, encode_append, encode_append, ih]
      rfl

theorem readTree_array {texts : List String} {ts : List Json}
    (h : List.Forall₂ (fun s t => readTree s = .ok t) texts ts) (hne : texts ≠ []) :
    readTree ("[" ++ String.intercalate "," texts ++ "]") = .ok (.array ts) := by
  have hmeans : List.Forall₂ Reader.Means (texts.map fun s => encode s.toList) ts :=
    List.forall₂_map_left_iff.2 (h.imp fun s t hs => Reader.means_iff.2 (readTree_eq_ok.1 hs))
  rw [readTree_eq_ok, String.toList_append, String.toList_append, encode_append, encode_append,
    encode_intercalate, List.append_assoc]
  cases h with
  | nil => exact absurd rfl hne
  | cons hs hss => exact Reader.means_iff.1 (Reader.means_array hmeans)

end TagTree
