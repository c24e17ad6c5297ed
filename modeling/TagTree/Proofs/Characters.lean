import TagTree.Json.Reader

/-!
# Bytes of characters

The reader works on bytes, and texts are made of characters.  A character below `0x80` is one byte,
its code; every byte of any other character is `0x80` or more.  So a byte below `0x80` is always a
character of its own.

* `bytes_eq_encode`        the bytes of a text are those of its characters;
* `exists_of_encode`       a byte below `0x80` is a character;
* `AsciiClass`             a class of bytes and the class of their characters;
* `AsciiClass.dropWhile`, `AsciiClass.takeWhile`   such a class is skipped alike on both sides.
-/

namespace TagTree.Text

def encode (cs : List Char) : List UInt8 := cs.flatMap charBytes

theorem encode_nil : encode [] = [] := rfl

theorem encode_cons (c : Char) (cs : List Char) : encode (c :: cs) = charBytes c ++ encode cs := rfl

theorem encode_append (cs ds : List Char) : encode (cs ++ ds) = encode cs ++ encode ds :=
  List.flatMap_append

theorem bytes_eq_encode (s : String) : bytes s = encode s.toList := by
  conv => lhs; rw [← String.ofList_toList (s := s)]
  rw [bytes, String.toByteArray_ofList, List.utf8Encode, List.data_toByteArray]
  rfl

/-! ## single characters -/

theorem charBytes_of_lt {c : Char} (h : c.toNat < 0x80) : charBytes c = [UInt8.ofNat c.toNat] := by
  have hc : c.val.toNat ≤ 127 := Nat.le_of_lt_succ h
  rw [charBytes, String.utf8EncodeChar.eq_1, if_pos hc]
  rfl

theorem le_of_mem_charBytes {c : Char} (h : 0x80 ≤ c.toNat) {b : UInt8} (hb : b ∈ charBytes c) :
    0x80 ≤ b := by
  have hc : c.val.toNat = c.toNat := rfl
  have h80 : (0x80 : UInt8).toNat = 0x80 := rfl
  rw [UInt8.le_iff_toNat_le, h80]
  rw [charBytes, String.utf8EncodeChar.eq_1] at hb
  split at hb
  · omega
  · split at hb
    · simp only [List.mem_cons, List.not_mem_nil, or_false] at hb
      rcases hb with rfl | rfl <;> simp <;> omega
    · split at hb
      · simp only [List.mem_cons, List.not_mem_nil, or_false] at hb
        rcases hb with rfl | rfl | rfl <;> simp <;> omega
      · simp only [List.mem_cons, List.not_mem_nil, or_false] at hb
        rcases hb with rfl | rfl | rfl | rfl <;> simp <;> omega

/-- a byte below `0x80` is a character -/
theorem exists_of_encode {cs : List Char} {b : UInt8} {s : List UInt8} (h : encode cs = b :: s)
    (hb : b < 0x80) : ∃ k : List Char, cs = Char.ofNat b.toNat :: k ∧ s = encode k := by
  cases cs with
  | nil => cases h
  | cons c k =>
    rw [encode_cons] at h
    by_cases hc : c.toNat < 0x80
    · rw [charBytes_of_lt hc, List.singleton_append] at h
      obtain ⟨rfl, rfl⟩ := List.cons.inj h
      have hsize : c.toNat < UInt8.size := Nat.lt_trans hc (by decide)
      refine ⟨k, ?_, rfl⟩
      rw [UInt8.toNat_ofNat_of_lt' hsize, Char.ofNat_toNat]
    · have hmem : b ∈ charBytes c := by
        have hne : charBytes c ≠ [] := String.utf8EncodeChar_ne_nil
        cases hs : charBytes c with
        | nil => exact absurd hs hne
        | cons d ds =>
          rw [hs] at h
          obtain ⟨rfl, _⟩ := List.cons.inj h
          exact List.mem_cons_self
      have hle := UInt8.le_iff_toNat_le.1 (le_of_mem_charBytes (Nat.not_lt.1 hc) hmem)
      exact absurd (UInt8.lt_iff_toNat_lt.1 hb) (Nat.not_lt.2 hle)

theorem exists_of_char {c : Char} (hc : c.toNat < 0x80) {cs : List Char} {s : List UInt8}
    (h : encode cs = UInt8.ofNat c.toNat :: s) : ∃ k : List Char, cs = c :: k ∧ s = encode k := by
  have hcode : (UInt8.ofNat c.toNat).toNat = c.toNat :=
    UInt8.toNat_ofNat_of_lt' (Nat.lt_trans hc (by decide))
  have hlt : UInt8.ofNat c.toNat < 0x80 := by
    rw [UInt8.lt_iff_toNat_lt, hcode]
    exact hc
  obtain ⟨k, rfl, rfl⟩ := exists_of_encode h hlt
  exact ⟨k, by rw [hcode, Char.ofNat_toNat], rfl⟩

theorem exists_of_encode_append {cs : List Char} {bs s : List UInt8} (h : encode cs = bs ++ s)
    (hb : ∀ b ∈ bs, b < 0x80) :
    ∃ k : List Char, cs = bs.map (fun b => Char.ofNat b.toNat) ++ k ∧ s = encode k := by
  induction bs generalizing cs with
  | nil => exact ⟨cs, rfl, h.symm⟩
  | cons b bs ih =>
    obtain ⟨k, rfl, hk⟩ := exists_of_encode h (hb b List.mem_cons_self)
    obtain ⟨l, rfl, hl⟩ := ih hk.symm fun d hd => hb d (List.mem_cons_of_mem _ hd)
    exact ⟨l, rfl, hl⟩

/-- what is checked for the first 128 codes holds of all characters below `0x80` -/
theorem of_forall_lt {P : Char → Prop} (h : ∀ n < 0x80, P (Char.ofNat n)) {c : Char}
    (hc : c.toNat < 0x80) : P c := by
  rw [← Char.ofNat_toNat c]
  exact h c.toNat hc

theorem of_forall_byte {P : UInt8 → Prop} (h : ∀ n < 256, P (UInt8.ofNat n)) (b : UInt8) : P b := by
  rw [← UInt8.ofNat_toNat (x := b)]
  exact h b.toNat b.toNat_lt

/-! ## classes -/

/-- a class of bytes below `0x80`, and the class of their characters -/
structure AsciiClass (p : UInt8 → Bool) (q : Char → Bool) : Prop where
  alike : ∀ c : Char, c.toNat < 0x80 → q c = p (UInt8.ofNat c.toNat)
  byte : ∀ b : UInt8, p b = true → b < 0x80
  char : ∀ c : Char, q c = true → c.toNat < 0x80

namespace AsciiClass
variable {p : UInt8 → Bool} {q : Char → Bool}

theorem exists_head (h : AsciiClass p q) {c : Char} (hc : q c = false) :
    ∃ b s, charBytes c = b :: s ∧ p b = false := by
  by_cases ha : c.toNat < 0x80
  · exact ⟨_, [], charBytes_of_lt ha, (h.alike c ha).symm.trans hc⟩
  · cases hs : charBytes c with
    | nil => exact absurd hs String.utf8EncodeChar_ne_nil
    | cons b s =>
      refine ⟨b, s, rfl, Bool.eq_false_iff.2 fun hb => ?_⟩
      have hle := le_of_mem_charBytes (Nat.not_lt.1 ha) (hs ▸ List.mem_cons_self : b ∈ charBytes c)
      have hlt := UInt8.lt_iff_toNat_lt.1 (h.byte b hb)
      exact absurd hlt (Nat.not_lt.2 (UInt8.le_iff_toNat_le.1 hle))

theorem exists_of_byte (h : AsciiClass p q) {cs : List Char} {b : UInt8} {s : List UInt8}
    (hs : encode cs = b :: s) (hb : p b = true) :
    ∃ c k, cs = c :: k ∧ s = encode k ∧ b = UInt8.ofNat c.toNat ∧ q c = true := by
  have hlt : b.toNat < 0x80 := UInt8.lt_iff_toNat_lt.1 (h.byte b hb)
  have hcode : (Char.ofNat b.toNat).toNat = b.toNat := by
    rw [Char.ofNat, dif_pos (Or.inl (Nat.lt_trans hlt (by decide)))]
    rfl
  have hof : UInt8.ofNat (Char.ofNat b.toNat).toNat = b := by rw [hcode, UInt8.ofNat_toNat]
  obtain ⟨k, rfl, rfl⟩ := exists_of_encode hs (h.byte b hb)
  refine ⟨_, k, rfl, rfl, hof.symm, ?_⟩
  rw [h.alike _ (Nat.lt_of_le_of_lt (Nat.le_of_eq hcode) hlt), hof]
  exact hb

theorem dropWhile (h : AsciiClass p q) (cs : List Char) :
    (encode cs).dropWhile p = encode (cs.dropWhile q) := by
  induction cs with
  | nil => rfl
  | cons c cs ih =>
    cases hc : q c with
    | true =>
      have ha := h.char c hc
      rw [encode_cons, charBytes_of_lt ha, List.singleton_append,
        List.dropWhile_cons_of_pos ((h.alike c ha).symm.trans hc), ih,
        List.dropWhile_cons_of_pos hc]
    | false =>
      obtain ⟨b, s, hs, hb⟩ := h.exists_head hc
      rw [List.dropWhile_cons_of_neg (Bool.eq_false_iff.1 hc), encode_cons, hs, List.cons_append,
        List.dropWhile_cons_of_neg (Bool.eq_false_iff.1 hb)]

theorem takeWhile (h : AsciiClass p q) (cs : List Char) :
    (encode cs).takeWhile p = (cs.takeWhile q).map fun c => UInt8.ofNat c.toNat := by
  induction cs with
  | nil => rfl
  | cons c cs ih =>
    cases hc : q c with
    | true =>
      have ha := h.char c hc
      rw [encode_cons, charBytes_of_lt ha, List.singleton_append,
        List.takeWhile_cons_of_pos ((h.alike c ha).symm.trans hc), ih,
        List.takeWhile_cons_of_pos hc, List.map_cons]
    | false =>
      obtain ⟨b, s, hs, hb⟩ := h.exists_head hc
      rw [List.takeWhile_cons_of_neg (Bool.eq_false_iff.1 hc), encode_cons, hs, List.cons_append,
        List.takeWhile_cons_of_neg (Bool.eq_false_iff.1 hb), List.map_nil]

end AsciiClass
end TagTree.Text
