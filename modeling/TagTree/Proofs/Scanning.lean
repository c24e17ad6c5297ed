import Mathlib.Data.List.DropRight
import TagTree.Proofs.Characters
import TagTree.Proofs.Grammar

/-!
# Blanks and strings, character by character

What the scanners do on the bytes of characters: on a word of the grammar they go to its end, and
where they end, they have passed a word of the grammar.

* `skip_ws`, `exists_ws_of_skip`      blanks;
* `hexFour_encode`, `exists_isCode`   four hexadecimal digits;
* `Spells w bs`                       in a string, the characters `w` are read as the bytes `bs`;
* `exists_spells`                     every character of the grammar is read;
* `exists_string`                     so is every string;
* `exists_of_string`                  a string that is read is one of the grammar.
-/

namespace TagTree.Json.Reader
open Text Grammar
open scoped Computability

/-- what succeeds step by step succeeds at the first step -/
theorem except_bind_eq_ok {ε α β : Type} {x : Except ε α} {f : α → Except ε β} {b : β}
    (h : x >>= f = .ok b) : ∃ a, x = .ok a ∧ f a = .ok b := by
  cases x with
  | error e => cases h
  | ok a => exact ⟨a, rfl, h⟩

/-- what fails step by step fails at the first step, or behind it -/
theorem except_bind_eq_error {ε α β : Type} {x : Except ε α} {f : α → Except ε β} {e : ε}
    (h : x >>= f = .error e) : x = .error e ∨ ∃ a, x = .ok a ∧ f a = .error e := by
  cases x with
  | error e' =>
    cases h
    exact .inl rfl
  | ok a => exact .inr ⟨a, rfl, h⟩

theorem except_bind_error {ε α β : Type} {x : Except ε α} {e : ε} (h : x = .error e)
    (f : α → Except ε β) : x >>= f = .error e := by
  rw [h]
  rfl

theorem except_bind_ok {ε α β : Type} {x : Except ε α} {a : α} (h : x = .ok a)
    (f : α → Except ε β) : x >>= f = f a := by
  rw [h]
  rfl

/-! ## blanks -/

theorem blankClass : AsciiClass isBlank Grammar.isBlank where
  alike c hc := of_forall_lt (P := fun c => Grammar.isBlank c = isBlank (UInt8.ofNat c.toNat))
    (by decide) hc
  byte b hb := by
    simp only [isBlank, Bool.or_eq_true, beq_iff_eq] at hb
    rcases hb with ((rfl | rfl) | rfl) | rfl <;> decide
  char c hc := by
    simp only [Grammar.isBlank, Bool.or_eq_true, beq_iff_eq] at hc
    rcases hc with ((rfl | rfl) | rfl) | rfl <;> decide

theorem skip_encode (cs : List Char) : skip (encode cs) = encode (cs.dropWhile Grammar.isBlank) :=
  blankClass.dropWhile cs

theorem skip_ws {b : List Char} (h : b ∈ ws) (cs : List Char) :
    skip (encode (b ++ cs)) = skip (encode cs) := by
  rw [skip_encode, skip_encode, List.dropWhile_append_of_pos (mem_ws.1 h)]

theorem skip_skip (s : Bytes) : skip (skip s) = skip s := List.dropWhile_idempotent _ s

theorem value_skip (fuel : Nat) (s : Bytes) : value (fuel + 1) (skip s) = value (fuel + 1) s := by
  rw [value, value, skip_skip]

theorem exists_ws_of_skip (cs : List Char) :
    ∃ b ∈ ws, ∃ k, cs = b ++ k ∧ skip (encode cs) = encode k := by
  refine ⟨cs.takeWhile Grammar.isBlank, ?_, cs.dropWhile Grammar.isBlank, ?_, skip_encode cs⟩
  · exact mem_ws.2 fun c hc => List.mem_takeWhile_imp hc
  · exact List.takeWhile_append_dropWhile.symm

/-! ## strings -/

theorem hexDigit?_alike {c : Char} (hc : c.toNat < 0x80) :
    hexDigit? c = hexValue? (UInt8.ofNat c.toNat) :=
  of_forall_lt (P := fun c => hexDigit? c = hexValue? (UInt8.ofNat c.toNat)) (by decide) hc

theorem lt_of_hexDigit? {c : Char} {n : Nat} (h : hexDigit? c = some n) : c.toNat < 0x80 := by
  unfold hexDigit? at h
  split at h
  · omega
  · split at h
    · omega
    · split at h
      · omega
      · cases h

theorem charBytes_of_hexDigit? {c : Char} {n : Nat} (h : hexDigit? c = some n) :
    ∃ b, charBytes c = [b] ∧ hexValue? b = some n := by
  have hc := lt_of_hexDigit? h
  exact ⟨_, charBytes_of_lt hc, (hexDigit?_alike hc).symm.trans h⟩

theorem hexFour_encode {w : List Char} {n : Nat} (h : IsCode w n) (s : Bytes) :
    hexFour (encode w ++ s) = .ok (n, s) := by
  obtain ⟨ha, hb, hc, hd⟩ := h
  obtain ⟨a, ha, hav⟩ := charBytes_of_hexDigit? ha
  obtain ⟨b, hb, hbv⟩ := charBytes_of_hexDigit? hb
  obtain ⟨c, hc, hcv⟩ := charBytes_of_hexDigit? hc
  obtain ⟨d, hd, hdv⟩ := charBytes_of_hexDigit? hd
  simp only [encode_cons, encode_nil, ha, hb, hc, hd, List.cons_append, List.nil_append,
    hexFour, hav, hbv, hcv, hdv]
  congr 2
  omega

theorem exists_of_hexValue? {cs : List Char} {b : UInt8} {s : Bytes} {n : Nat}
    (h : encode cs = b :: s) (hb : hexValue? b = some n) :
    ∃ c k, cs = c :: k ∧ s = encode k ∧ hexDigit? c = some n := by
  have hall : ∀ b : UInt8, (hexValue? b).isSome = true →
      b < 0x80 ∧ hexDigit? (Char.ofNat b.toNat) = hexValue? b :=
    of_forall_byte (by decide +kernel)
  obtain ⟨hlt, hc⟩ := hall b (by rw [hb]; rfl)
  obtain ⟨k, rfl, rfl⟩ := exists_of_encode h hlt
  exact ⟨_, k, rfl, rfl, hc.trans hb⟩

theorem hexFour_eq_ok {s r : Bytes} {n : Nat} (h : hexFour s = .ok (n, r)) :
    ∃ a b c d w x y z, s = a :: b :: c :: d :: r ∧ hexValue? a = some w ∧ hexValue? b = some x ∧
      hexValue? c = some y ∧ hexValue? d = some z ∧ n = w * 4096 + x * 256 + y * 16 + z := by
  unfold hexFour at h
  split at h
  · rename_i a b c d rest
    split at h
    · rename_i w x y z ha hb hc hd
      cases h
      exact ⟨a, b, c, d, w, x, y, z, rfl, ha, hb, hc, hd, by omega⟩
    · cases h
  · cases h

theorem exists_isCode {cs : List Char} {r : Bytes} {n : Nat}
    (h : hexFour (encode cs) = .ok (n, r)) :
    ∃ w k, cs = w ++ k ∧ r = encode k ∧ IsCode w n := by
  obtain ⟨_, _, _, _, _, _, _, _, hs, ha, hb, hc, hd, rfl⟩ := hexFour_eq_ok h
  obtain ⟨a, k₁, rfl, h₁, ha⟩ := exists_of_hexValue? hs ha
  obtain ⟨b, k₂, rfl, h₂, hb⟩ := exists_of_hexValue? h₁.symm hb
  obtain ⟨c, k₃, rfl, h₃, hc⟩ := exists_of_hexValue? h₂.symm hc
  obtain ⟨d, k₄, rfl, h₄, hd⟩ := exists_of_hexValue? h₃.symm hd
  exact ⟨[a, b, c, d], k₄, rfl, h₄, .digits ha hb hc hd⟩

/-! ### escapes -/

theorem isHigh_iff (n : Nat) : Grammar.isHigh n ↔ isHighSurrogate n = true := by
  simp only [Grammar.isHigh, isHighSurrogate, Bool.and_eq_true, decide_eq_true_eq]
  omega

theorem isLow_iff (n : Nat) : Grammar.isLow n ↔ isLowSurrogate n = true := by
  simp only [Grammar.isLow, isLowSurrogate, Bool.and_eq_true, decide_eq_true_eq]
  omega

theorem not_isLow_of_isHigh {n : Nat} (h : isHighSurrogate n = true) :
    isLowSurrogate n = false := by
  simp only [isHighSurrogate, isLowSurrogate, Bool.and_eq_true, decide_eq_true_eq,
    Bool.and_eq_false_iff, decide_eq_false_iff_not] at *
  omega

theorem escape_code {w : List Char} {n : Nat} (h : IsCode w n) (hh : isHighSurrogate n = false)
    (hl : isLowSurrogate n = false) (s : Bytes) :
    escape (Ascii.lowerU :: (encode w ++ s)) = .ok (charBytes (Char.ofNat n), s) := by
  show unicodeEscape (encode w ++ s) = _
  simp [unicodeEscape, hexFour_encode h, bind, Except.bind, hh, hl]

theorem escape_pair {v w : List Char} {n m : Nat} (hv : IsCode v n) (hw : IsCode w m)
    (hh : isHighSurrogate n = true) (hl : isLowSurrogate m = true) (s : Bytes) :
    escape (Ascii.lowerU :: (encode v ++ Ascii.backslash :: Ascii.lowerU :: (encode w ++ s))) =
      .ok (charBytes (Char.ofNat (0x10000 + (n - 0xD800) * 0x400 + (m - 0xDC00))), s) := by
  show unicodeEscape _ = _
  simp [unicodeEscape, hexFour_encode hv, hexFour_encode hw, hexEscapeByte, bind, Except.bind, hh,
    hl, not_isLow_of_isHigh hh]

/-- what an escape consists of -/
theorem hexEscapeByte_eq_ok {b : UInt8} {s r : Bytes} (h : hexEscapeByte b s = .ok r) :
    s = b :: r := by
  unfold hexEscapeByte at h
  split at h
  · cases h
  · split at h
    · rename_i he
      cases h
      rw [he]
    · cases h

theorem unicodeEscape_eq_ok {s r c : Bytes} (h : unicodeEscape s = .ok (c, r)) :
    ∃ n t, hexFour s = .ok (n, t) ∧ isLowSurrogate n = false ∧
      ((isHighSurrogate n = false ∧ t = r) ∨
        ∃ u m, isHighSurrogate n = true ∧ t = Ascii.backslash :: Ascii.lowerU :: u ∧
          hexFour u = .ok (m, r) ∧ isLowSurrogate m = true) := by
  obtain ⟨⟨n, t⟩, hn, h⟩ := except_bind_eq_ok h
  refine ⟨n, t, hn, ?_⟩
  dsimp only at h
  split at h
  · cases h
  · rename_i hl
    refine ⟨Bool.eq_false_iff.2 hl, ?_⟩
    split at h
    · rename_i hh
      obtain ⟨t', ht, h⟩ := except_bind_eq_ok h
      obtain ⟨u, hu, h⟩ := except_bind_eq_ok h
      obtain ⟨⟨m, v⟩, hm, h⟩ := except_bind_eq_ok h
      dsimp only at h
      split at h
      · rename_i hlow
        rw [Except.ok.injEq, Prod.mk.injEq] at h
        obtain ⟨_, rfl⟩ := h
        refine .inr ⟨u, m, hh, ?_, hm, hlow⟩
        rw [hexEscapeByte_eq_ok ht, hexEscapeByte_eq_ok hu]
      · cases h
    · rename_i hh
      cases h
      exact .inl ⟨Bool.eq_false_iff.2 hh, rfl⟩

/-! ### bodies -/

/-- the scanner of strings passes these characters, and reads these bytes from them -/
def Spells (w : List Char) (bs : Bytes) : Prop :=
  ∀ (read s : Bytes), stringBody read (encode w ++ s) = stringBody (bs.reverse ++ read) s

theorem Spells.nil : Spells [] [] := fun _ _ => rfl

theorem Spells.append {v w : List Char} {as bs : Bytes} (hv : Spells v as) (hw : Spells w bs) :
    Spells (v ++ w) (as ++ bs) := by
  intro read s
  rw [encode_append, List.append_assoc, hv, hw, List.reverse_append, List.append_assoc]

theorem stringBody_quote (read s : Bytes) :
    stringBody read (Ascii.quote :: s) = .ok (read.reverse, s) := by
  rw [stringBody, if_pos rfl]

theorem stringBody_escape {s c r : Bytes} (h : escape s = .ok (c, r)) (read : Bytes) :
    stringBody read (Ascii.backslash :: s) = stringBody (c.reverse ++ read) r := by
  rw [stringBody, if_neg (by decide), if_pos rfl]
  split
  · rename_i h'
    rw [h] at h'
    cases h'
    rfl
  · rename_i h'
    rw [h] at h'
    cases h'

theorem stringBody_byte {b : UInt8} (hq : b ≠ Ascii.quote) (hb : b ≠ Ascii.backslash)
    (hc : ¬ b < 0x20) (read s : Bytes) : stringBody read (b :: s) = stringBody (b :: read) s := by
  rw [stringBody, if_neg hq, if_neg hb, if_neg hc]


theorem stringBody_bytes {bs : Bytes}
    (h : ∀ b ∈ bs, b ≠ Ascii.quote ∧ b ≠ Ascii.backslash ∧ ¬ b < 0x20) (read s : Bytes) :
    stringBody read (bs ++ s) = stringBody (bs.reverse ++ read) s := by
  induction bs generalizing read with
  | nil => rfl
  | cons b bs ih =>
    obtain ⟨hq, hb, hc⟩ := h b List.mem_cons_self
    rw [List.cons_append, stringBody_byte hq hb hc, ih fun d hd => h d (List.mem_cons_of_mem _ hd),
      List.reverse_cons, List.append_assoc, List.singleton_append]

/-- a character that is not escaped, with bounds on its code -/
def IsPlain (c : Char) : Prop := 0x20 ≤ c.toNat ∧ c ≠ '"' ∧ c ≠ '\\'

instance (c : Char) : Decidable (IsPlain c) := inferInstanceAs (Decidable (_ ∧ _))

theorem IsPlain.bytes {c : Char} (h : IsPlain c) {b : UInt8} (hb : b ∈ charBytes c) :
    b ≠ Ascii.quote ∧ b ≠ Ascii.backslash ∧ ¬ b < 0x20 := by
  by_cases hc : c.toNat < 0x80
  · rw [charBytes_of_lt hc, List.mem_singleton] at hb
    rw [hb]
    exact of_forall_lt (P := fun c => IsPlain c → UInt8.ofNat c.toNat ≠ Ascii.quote ∧
      UInt8.ofNat c.toNat ≠ Ascii.backslash ∧ ¬ UInt8.ofNat c.toNat < 0x20) (by decide) hc h
  · have hle := le_of_mem_charBytes (Nat.not_lt.1 hc) hb
    refine ⟨?_, ?_, ?_⟩
    · rintro rfl
      exact absurd hle (by decide)
    · rintro rfl
      exact absurd hle (by decide)
    · intro hlt
      exact absurd (UInt8.lt_of_le_of_lt hle hlt) (by decide)

theorem Spells.plain {c : Char} (h : IsPlain c) : Spells [c] (charBytes c) := by
  intro read s
  rw [encode_cons, encode_nil, List.append_nil]
  exact stringBody_bytes (fun b hb => h.bytes hb) read s

theorem Spells.escape {w : List Char} {c : Bytes}
    (h : ∀ s, escape (encode w ++ s) = .ok (c, s)) : Spells ('\\' :: w) c := by
  intro read s
  exact stringBody_escape (h s) read

theorem mem_unescaped {w : List Char} : w ∈ unescaped ↔ ∃ c, w = [c] ∧ IsPlain c := by
  have hcode : ∀ c : Char, c.toNat ≤ 0x10FFFF := by
    intro c
    have hc : c.toNat < 0xD800 ∨ (0xDFFF < c.toNat ∧ c.toNat < 0x110000) := c.valid
    omega
  have hne : ∀ c d : Char, c ≠ d ↔ c.toNat ≠ d.toNat := fun c d => Char.toNat_inj.symm.not
  have hiff : ∀ c : Char, ((0x20 ≤ c.toNat && c.toNat ≤ 0x21) ||
      (0x23 ≤ c.toNat && c.toNat ≤ 0x5B) || (0x5D ≤ c.toNat && c.toNat ≤ 0x10FFFF)) = true ↔
      IsPlain c := by
    intro c
    have := hcode c
    simp only [IsPlain, hne, Bool.or_eq_true, Bool.and_eq_true, decide_eq_true_eq,
      show '"'.toNat = 0x22 from rfl, show '\\'.toNat = 0x5C from rfl]
    omega
  constructor
  · rintro ⟨c, hc, rfl⟩
    exact ⟨c, rfl, (hiff c).1 hc⟩
  · rintro ⟨c, rfl, hc⟩
    exact ⟨c, (hiff c).2 hc, rfl⟩

theorem mem_code {p : Nat → Prop} {w : List Char} :
    w ∈ code p ↔ ∃ v n, w = '\\' :: 'u' :: v ∧ IsCode v n ∧ p n := by
  constructor
  · rintro ⟨_, rfl, _, ⟨_, rfl, v, ⟨n, hn, hp⟩, rfl⟩, rfl⟩
    exact ⟨v, n, rfl, hn, hp⟩
  · rintro ⟨v, n, rfl, hn, hp⟩
    exact ⟨_, rfl, _, ⟨_, rfl, v, ⟨n, hn, hp⟩, rfl⟩, rfl⟩

theorem exists_spells {w : List Char} (h : w ∈ character) : ∃ bs, Spells w bs := by
  rcases h with ((h | h) | h) | h
  · obtain ⟨c, rfl, hc⟩ := mem_unescaped.1 h
    exact ⟨_, Spells.plain hc⟩
  · obtain ⟨_, rfl, _, ⟨c, hc, rfl⟩, rfl⟩ := h
    have hall : (['"', '\\', '/', 'b', 'f', 'n', 'r', 't'].all fun c =>
        decide (c.toNat < 0x80) && (letterEscape? (UInt8.ofNat c.toNat)).isSome) = true := by decide
    have hletter := List.all_eq_true.1 hall c (of_decide_eq_true hc)
    rw [Bool.and_eq_true, decide_eq_true_eq] at hletter
    obtain ⟨hlt, hsome⟩ := hletter
    obtain ⟨d, hd⟩ := Option.isSome_iff_exists.1 hsome
    refine ⟨[d], Spells.escape fun s => ?_⟩
    show escape (encode [c] ++ s) = _
    rw [encode_cons, charBytes_of_lt hlt, encode_nil, List.append_nil, List.singleton_append,
      escape, hd]
  · obtain ⟨v, n, rfl, hn, hh, hl⟩ := mem_code.1 h
    rw [isHigh_iff, Bool.not_eq_true] at hh
    rw [isLow_iff, Bool.not_eq_true] at hl
    exact ⟨_, Spells.escape fun s => escape_code hn hh hl s⟩
  · obtain ⟨_, hv, _, hw, rfl⟩ := h
    obtain ⟨v, n, rfl, hn, hh⟩ := mem_code.1 hv
    obtain ⟨w, m, rfl, hm, hl⟩ := mem_code.1 hw
    have he : ∀ s, escape (encode ('u' :: v ++ '\\' :: 'u' :: w) ++ s) =
        .ok (charBytes (Char.ofNat (0x10000 + (n - 0xD800) * 0x400 + (m - 0xDC00))), s) := by
      intro s
      rw [encode_append, List.append_assoc]
      exact escape_pair hn hm ((isHigh_iff n).1 hh) ((isLow_iff m).1 hl) s
    exact ⟨_, Spells.escape he⟩

theorem exists_spells_star {w : List Char} (h : w ∈ character∗) : ∃ bs, Spells w bs := by
  obtain ⟨L, rfl, hL⟩ := Language.mem_kstar.1 h
  clear h
  induction L with
  | nil => exact ⟨[], Spells.nil⟩
  | cons v L ih =>
    obtain ⟨as, ha⟩ := exists_spells (hL v List.mem_cons_self)
    obtain ⟨bs, hb⟩ := ih fun y hy => hL y (List.mem_cons_of_mem _ hy)
    exact ⟨as ++ bs, ha.append hb⟩

/-- what stands behind a backslash in a string is an escape of the grammar -/
theorem exists_of_escape {cs : List Char} {c r : Bytes} (h : escape (encode cs) = .ok (c, r)) :
    ∃ u k, cs = u ++ k ∧ r = encode k ∧ '\\' :: u ∈ character := by
  unfold escape at h
  split at h
  · cases h
  · rename_i b rest hs
    split at h
    · rename_i d hd
      cases h
      have hall : ∀ b : UInt8, (letterEscape? b).isSome = true →
          b < 0x80 ∧ Char.ofNat b.toNat ∈ ['"', '\\', '/', 'b', 'f', 'n', 'r', 't'] :=
        of_forall_byte (by decide +kernel)
      obtain ⟨hb, hmem⟩ := hall b (by rw [hd]; rfl)
      obtain ⟨k, rfl, rfl⟩ := exists_of_encode hs hb
      have hletter : ['\\', Char.ofNat b.toNat] ∈ letter :=
        ⟨_, rfl, _, ⟨_, decide_eq_true hmem, rfl⟩, rfl⟩
      exact ⟨[_], k, rfl, rfl, .inl (.inl (.inr hletter))⟩
    · split at h
      · rename_i hb
        subst hb
        obtain ⟨k, rfl, rfl⟩ := exists_of_encode hs (by decide)
        obtain ⟨n, t, hn, hl, ⟨hh, rfl⟩ | ⟨u, m, hh, rfl, hm, hlow⟩⟩ := unicodeEscape_eq_ok h
        · obtain ⟨w, k, rfl, rfl, hw⟩ := exists_isCode hn
          refine ⟨'u' :: w, k, rfl, rfl, .inl (.inr (mem_code.2 ⟨w, n, rfl, hw, ?_, ?_⟩))⟩
          · rw [isHigh_iff, hh]
            decide
          · rw [isLow_iff, hl]
            decide
        · obtain ⟨v, k, rfl, hk, hv⟩ := exists_isCode hn
          obtain ⟨k, rfl, hu⟩ := exists_of_encode hk.symm (by decide)
          obtain ⟨k, rfl, rfl⟩ := exists_of_encode hu.symm (by decide)
          obtain ⟨w, k, rfl, rfl, hw⟩ := exists_isCode hm
          have hhigh : '\\' :: 'u' :: v ∈ code Grammar.isHigh :=
            mem_code.2 ⟨v, n, rfl, hv, (isHigh_iff n).2 hh⟩
          have hlow : '\\' :: 'u' :: w ∈ code Grammar.isLow :=
            mem_code.2 ⟨w, m, rfl, hw, (isLow_iff m).2 hlow⟩
          refine ⟨'u' :: (v ++ '\\' :: 'u' :: w), k, ?_, rfl, .inr ⟨_, hhigh, _, hlow, rfl⟩⟩
          simp
          decide
      · cases h

theorem stringBody_escape_eq_ok {read s : Bytes} {x : Bytes × Bytes}
    (h : stringBody read (Ascii.backslash :: s) = .ok x) :
    ∃ c r, escape s = .ok (c, r) ∧ stringBody (c.reverse ++ read) r = .ok x := by
  cases he : escape s with
  | ok p => exact ⟨p.1, p.2, rfl, (stringBody_escape he read).symm.trans h⟩
  | error e =>
    rw [stringBody, if_neg (by decide), if_pos rfl] at h
    split at h
    · rename_i h'
      rw [he] at h'
      cases h'
    · cases h

/-- what stands behind the opening quote of a string is a word of characters and a quote -/
theorem exists_of_stringBody {cs : List Char} {read bs r : Bytes}
    (h : stringBody read (encode cs) = .ok (bs, r)) :
    ∃ body k, cs = body ++ '"' :: k ∧ r = encode k ∧ body ∈ character∗ := by
  -- an escape takes several characters, so the induction is on the length
  induction hn : cs.length using Nat.strong_induction_on generalizing cs read with
  | _ n ih =>
    subst hn
    cases cs with
    | nil =>
      rw [encode_nil, stringBody] at h
      cases h
    | cons c k =>
      by_cases hq : c = '"'
      · subst hq
        rw [show encode ('"' :: k) = Ascii.quote :: encode k from rfl, stringBody_quote] at h
        cases h
        exact ⟨[], k, rfl, rfl, Language.nil_mem_kstar _⟩
      by_cases hb : c = '\\'
      · subst hb
        obtain ⟨d, t, he, h⟩ := stringBody_escape_eq_ok h
        obtain ⟨u, k', rfl, rfl, hu⟩ := exists_of_escape he
        have hlen : k'.length < ('\\' :: (u ++ k')).length := by
          rw [List.length_cons, List.length_append]
          omega
        obtain ⟨body, l, rfl, rfl, hbody⟩ := ih _ hlen h rfl
        exact ⟨'\\' :: u ++ body, l, by simp, rfl, append_mem_star hu hbody⟩
      by_cases hc : c.toNat < 0x20
      · have hall : ∀ n < 0x20, UInt8.ofNat n ≠ Ascii.quote ∧ UInt8.ofNat n ≠ Ascii.backslash ∧
            UInt8.ofNat n < 0x20 := by decide
        obtain ⟨hq, hb, hlt⟩ := hall c.toNat hc
        rw [encode_cons, charBytes_of_lt (Nat.lt_trans hc (by decide)), List.singleton_append,
          stringBody, if_neg hq, if_neg hb, if_pos hlt] at h
        cases h
      · have hplain : IsPlain c := ⟨Nat.not_lt.1 hc, hq, hb⟩
        have hstep := Spells.plain hplain read (encode k)
        rw [← encode_append, List.singleton_append] at hstep
        rw [hstep] at h
        obtain ⟨body, l, rfl, rfl, hbody⟩ := ih _ (by simp) h rfl
        refine ⟨[c] ++ body, l, rfl, rfl, append_mem_star ?_ hbody⟩
        exact .inl (.inl (.inl (mem_unescaped.2 ⟨c, rfl, hplain⟩)))

/-! ### whole strings -/

theorem string_encode {body : List Char} {bs : Bytes} (h : Spells body bs) (k : List Char) :
    string (encode (body ++ '"' :: k)) = .ok ((ofBytes? bs).getD "", encode k) := by
  have hbody : stringBody [] (encode (body ++ '"' :: k)) = .ok (bs, encode k) := by
    rw [encode_append, h, show encode ('"' :: k) = Ascii.quote :: encode k from rfl,
      stringBody_quote, List.append_nil, List.reverse_reverse]
  rw [string, hbody]
  rfl

theorem exists_string {w : List Char} (h : w ∈ Grammar.string) :
    ∃ u t, w = '"' :: u ∧ ∀ k, string (encode (u ++ k)) = .ok (t, encode k) := by
  obtain ⟨_, rfl, _, ⟨body, hbody, _, rfl, rfl⟩, rfl⟩ := h
  obtain ⟨bs, hbs⟩ := exists_spells_star hbody
  refine ⟨body ++ ['"'], (ofBytes? bs).getD "", rfl, fun k => ?_⟩
  rw [List.append_assoc]
  exact string_encode hbs k

theorem exists_of_string {cs : List Char} {t : String} {r : Bytes}
    (h : string (encode cs) = .ok (t, r)) :
    ∃ u k, cs = u ++ k ∧ r = encode k ∧ '"' :: u ∈ Grammar.string := by
  obtain ⟨⟨bs, s⟩, hs, h⟩ := except_bind_eq_ok h
  cases h
  obtain ⟨body, k, rfl, rfl, hbody⟩ := exists_of_stringBody hs
  exact ⟨body ++ ['"'], k, by simp, rfl, _, rfl, _, ⟨body, hbody, _, rfl, rfl⟩, rfl⟩

end TagTree.Json.Reader
