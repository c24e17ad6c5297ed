import Mathlib.Data.List.TakeWhile
import Mathlib.Data.Prod.Lex
import TagTree.Text.Position
import TagTree.Text.Utf8

/-!
# Lines and columns lead back to bytes

A text is a list of lines, each but the last with its newline.  `offset` and `position` go through
these lines one by one, so everything here is by induction on them.

* `induct_lines`        what holds of a last line, and passes a line in front, holds of all texts;
* `position_line`       behind the first line a place has the position that it has in the rest;
* `offset_position`     the offset of a place is the place, or one byte less within a line;
* `position_inj`        so no two places have one position;
* `offset_mono`         offsets grow with the line, and in a line with the column.
-/

namespace TagTree.Text

/-! ## lines -/

/-- what holds of a text without newline, and of a line in front of a text of which it holds, holds
of all texts -/
theorem induct_lines {P : List UInt8 → Prop} (last : ∀ a, newline ∉ a → P a)
    (line : ∀ a b, newline ∉ a → P b → P (a ++ newline :: b)) (text : List UInt8) : P text := by
  induction hn : text.length using Nat.strong_induction_on generalizing text with
  | _ n ih =>
    by_cases h : newline ∈ text
    · obtain ⟨a, b, rfl, ha⟩ := List.eq_append_cons_of_mem h
      apply line a b ha
      apply ih b.length ?_ b rfl
      rw [← hn, List.length_append, List.length_cons]
      omega
    · exact last text h

theorem ne_newline {a : List UInt8} (h : newline ∉ a) : ∀ b ∈ a, (b != newline) = true := by
  intro b hb
  rw [bne_iff_ne]
  rintro rfl
  exact h hb

theorem lineLength_last {a : List UInt8} (h : newline ∉ a) : lineLength a = a.length := by
  unfold lineLength
  rw [List.takeWhile_eq_self_iff.2 (ne_newline h), List.dropWhile_eq_nil_iff.2 (ne_newline h)]

theorem lineLength_line {a : List UInt8} (h : newline ∉ a) (b : List UInt8) :
    lineLength (a ++ newline :: b) = a.length + 1 := by
  have htake : (newline :: b).takeWhile (· != newline) = [] := rfl
  have hdrop : (newline :: b).dropWhile (· != newline) = newline :: b := rfl
  unfold lineLength
  rw [List.takeWhile_append_of_pos (ne_newline h), List.dropWhile_append_of_pos (ne_newline h),
    htake, hdrop, List.append_nil]

theorem offset_line {a : List UInt8} (h : newline ∉ a) (b : List UInt8) (line column : Nat) :
    offset (a ++ newline :: b) (line + 2) column = a.length + 1 + offset b (line + 1) column := by
  have hdrop : (a ++ newline :: b).drop (a.length + 1) = b := by
    rw [List.drop_length_add_append, List.drop_succ_cons, List.drop_zero]
  rw [offset, lineLength_line h, hdrop]

/-! ## places -/

theorem position_first {a : List UInt8} (h : newline ∉ a) (b : List UInt8) {p : Nat}
    (hp : p ≤ a.length) : position (a ++ b) p = ⟨1, p⟩ := by
  have hmem : newline ∉ a.take p := fun hm => h (List.mem_of_mem_take hm)
  have hall : ∀ b ∈ (a.take p).reverse, (b != newline) = true := fun b hb =>
    ne_newline hmem b (List.mem_reverse.1 hb)
  rw [position, List.take_append_of_le_length hp, List.count_eq_zero.2 hmem,
    List.takeWhile_eq_self_iff.2 hall, List.length_reverse, List.length_take, Nat.min_eq_left hp]

theorem takeWhile_append_newline (s t : List UInt8) :
    (s ++ newline :: t).takeWhile (· != newline) = s.takeWhile (· != newline) := by
  induction s with
  | nil => rfl
  | cons b s ih =>
    rw [List.cons_append, List.takeWhile_cons, List.takeWhile_cons, ih]

theorem position_line {a : List UInt8} (h : newline ∉ a) (b : List UInt8) (q : Nat) :
    position (a ++ newline :: b) (a.length + 1 + q) =
      ⟨(position b q).line + 1, (position b q).column⟩ := by
  have htake : (a ++ newline :: b).take (a.length + 1 + q) = a ++ newline :: b.take q := by
    rw [Nat.add_assoc, List.take_length_add_append, Nat.add_comm 1 q, List.take_succ_cons]
  have hcount : (a ++ newline :: b.take q).count newline = (b.take q).count newline + 1 := by
    rw [List.count_append, List.count_eq_zero.2 h, List.count_cons_self, Nat.zero_add]
  rw [position, htake, hcount, List.reverse_append, List.reverse_cons, List.append_assoc,
    List.singleton_append, takeWhile_append_newline]
  rfl

/-- a place of a text with several lines lies in the first one or behind it -/
theorem le_or_exists_eq_add (n p : Nat) : p ≤ n ∨ ∃ q, p = n + 1 + q := by
  by_cases h : p ≤ n
  · exact .inl h
  · exact .inr ⟨p - (n + 1), by omega⟩

/-! ## there and back -/

/-- a place at the start of a text, or right behind a newline -/
def StartsLine (text : List UInt8) (p : Nat) : Prop := p = 0 ∨ text[p - 1]? = some newline

instance (text : List UInt8) (p : Nat) : Decidable (StartsLine text p) :=
  inferInstanceAs (Decidable (_ ∨ _))

theorem startsLine_first {a : List UInt8} (h : newline ∉ a) (b : List UInt8) {p : Nat}
    (hp : p ≤ a.length) : StartsLine (a ++ b) p ↔ p = 0 := by
  refine or_iff_left_of_imp fun hb => ?_
  by_contra h0
  rw [List.getElem?_append_left (by omega)] at hb
  exact h (List.mem_of_getElem? hb)

theorem startsLine_line (a b : List UInt8) (q : Nat) :
    StartsLine (a ++ newline :: b) (a.length + 1 + q) ↔ StartsLine b q := by
  have hget : (a ++ newline :: b)[a.length + 1 + q - 1]? = (newline :: b)[q]? := by
    rw [List.getElem?_append_right (by omega)]
    congr 1
    omega
  rw [StartsLine, StartsLine, hget]
  cases q with
  | zero => simp
  | succ q => simp

/-- the offset of a place is the place itself at the start of a line, and one byte less elsewhere -/
theorem offset_position (text : List UInt8) {p : Nat} (hp : p ≤ text.length) :
    offset text (position text p).line (position text p).column =
      if StartsLine text p then p else p - 1 := by
  induction text using induct_lines generalizing p with
  | last a ha =>
    have hpos := position_first ha [] hp
    have hstart := startsLine_first ha [] hp
    rw [List.append_nil] at hpos hstart
    simp only [hpos, hstart, offset, lineLength_last ha]
    split <;> omega
  | line a b ha ih =>
    rw [List.length_append, List.length_cons] at hp
    obtain hle | ⟨q, rfl⟩ := le_or_exists_eq_add a.length p
    · simp only [position_first ha _ hle, startsLine_first ha _ hle, offset, lineLength_line ha]
      split <;> omega
    · have hq := ih (p := q) (by omega)
      have hline : (position b q).line = (b.take q).count newline + 1 := Nat.add_comm ..
      simp only [position_line ha, startsLine_line]
      rw [hline, offset_line ha, ← hline, hq]
      by_cases h : StartsLine b q
      · rw [if_pos h, if_pos h]
      · have h0 : q ≠ 0 := fun h0 => h (.inl h0)
        rw [if_neg h, if_neg h]
        omega

theorem column_eq_zero {text : List UInt8} {p : Nat} (hp : p ≤ text.length) :
    (position text p).column = 0 ↔ StartsLine text p := by
  cases p with
  | zero => exact ⟨fun _ => .inl rfl, fun _ => rfl⟩
  | succ p =>
    have hget : text[p + 1 - 1]? = some text[p] := List.getElem?_eq_getElem hp
    rw [StartsLine, hget, position, List.take_succ_eq_append_getElem hp, List.reverse_concat,
      List.takeWhile_cons]
    by_cases h : text[p] = newline
    · simp [h]
    · simp [h]

theorem position_inj {text : List UInt8} {p q : Nat} (hp : p ≤ text.length) (hq : q ≤ text.length)
    (h : position text p = position text q) : p = q := by
  have hstart : StartsLine text p ↔ StartsLine text q := by
    rw [← column_eq_zero hp, ← column_eq_zero hq, h]
  have hoffset := offset_position text hp
  rw [h, offset_position text hq] at hoffset
  by_cases hs : StartsLine text q
  · rw [if_pos hs, if_pos (hstart.2 hs)] at hoffset
    exact hoffset.symm
  · have hp0 : p ≠ 0 := fun h0 => hs (hstart.1 (.inl h0))
    have hq0 : q ≠ 0 := fun h0 => hs (.inl h0)
    rw [if_neg hs, if_neg (mt hstart.1 hs)] at hoffset
    omega

/-! ## order -/

theorem offset_column_mono (text : List UInt8) (line : Nat) {c d : Nat} (h : c ≤ d) :
    offset text line c ≤ offset text line d := by
  induction line generalizing text with
  | zero => exact Nat.le_refl 0
  | succ n ih =>
    cases n with
    | zero => simp only [offset]; omega
    | succ n =>
      have := ih (text.drop (lineLength text))
      simp only [offset]
      omega

/-- a line ends before the next one starts -/
theorem offset_le_succ (text : List UInt8) (line c d : Nat) :
    offset text line c ≤ offset text (line + 1) d := by
  induction line generalizing text with
  | zero =>
    show 0 ≤ _
    omega
  | succ n ih =>
    cases n with
    | zero => simp only [offset]; omega
    | succ n =>
      have := ih (text.drop (lineLength text))
      simp only [offset] at this ⊢
      omega

theorem offset_mono (text : List UInt8) :
    Monotone fun x : ℕ ×ₗ ℕ => offset text (ofLex x).1 (ofLex x).2 := by
  have hlines (m : ℕ) {n : ℕ} (h : m < n) (c d : ℕ) : offset text m c ≤ offset text n d := by
    induction n, h using Nat.le_induction generalizing d with
    | base => exact offset_le_succ text m c d
    | succ n _ ih => exact Nat.le_trans (ih d) (offset_le_succ text n d d)
  intro x y hxy
  rcases Prod.Lex.le_iff.1 hxy with hlt | ⟨heq, hle⟩
  · exact hlines _ hlt _ _
  · show offset text (ofLex x).1 _ ≤ offset text (ofLex y).1 _
    rw [heq]
    exact offset_column_mono text _ hle

/-- **Lines and columns lead back to bytes.**  From the line and the column of a place one gets the
place, or within a line the byte before it; an offset never leaves the text; and offsets grow with
lines and columns, in lexicographic order. -/
theorem offset_inverts_position (text : List UInt8) :
    (∀ p ≤ text.length, offset text (position text p).line (position text p).column =
      if p = 0 ∨ text[p - 1]? = some newline then p else p - 1) ∧
    (∀ line column : ℕ, offset text line column ≤ text.length) ∧
    Monotone fun x : ℕ ×ₗ ℕ => offset text (ofLex x).1 (ofLex x).2 :=
  ⟨fun _ hp => offset_position text hp, offset_le text, offset_mono text⟩

/-- two lines with characters of two and three bytes, and an empty one behind them -/
def threeLines : List UInt8 := bytes "é\n€ß\n"

/-- places in the middle of a character, right behind a newline, and at the end -/
theorem offset_inverts_position_threeLines :
    9 ≤ threeLines.length ∧ position threeLines 5 = ⟨2, 2⟩ ∧ offset threeLines 2 2 = 4 ∧
    position threeLines 3 = ⟨2, 0⟩ ∧ offset threeLines 2 0 = 3 ∧
    position threeLines 9 = ⟨3, 0⟩ ∧ offset threeLines 3 0 = 9 ∧
    offset threeLines 7 1 ≤ 9 := by
  have hlength : threeLines.length = 9 := by decide +kernel
  obtain ⟨hinverts, hle, -⟩ := offset_inverts_position threeLines
  have h₅ := hinverts 5 (by omega)
  have h₃ := hinverts 3 (by omega)
  have h₉ := hinverts 9 (by omega)
  refine ⟨by omega, by decide +kernel, h₅, by decide +kernel, h₃, by decide +kernel, h₉, ?_⟩
  rw [← hlength]
  exact hle 7 1

end TagTree.Text
