import TagTree.Proofs.Scanning

/-!
# Written numbers

The scanner of numbers takes all digits that follow, a point and an exponent, so a number of the
grammar is read to its end if nothing behind it continues it; and what is read is a number of the
grammar.

* `Ends cs`             what follows does not continue a number;
* `numeral_int`         an integer is read as its digits;
* `exists_numeral`      every number of the grammar is read, its sign apart;
* `exists_of_numeral`   what is read is a number of the grammar.
-/

namespace TagTree.Json.Reader
open Text Grammar
open scoped Computability

/-! ## digits -/

theorem digitClass : AsciiClass isDigit Char.isDigit where
  alike c hc :=
    of_forall_lt (P := fun c => c.isDigit = isDigit (UInt8.ofNat c.toNat)) (by decide) hc
  byte b hb := by
    simp only [isDigit, Bool.and_eq_true, decide_eq_true_eq] at hb
    exact UInt8.lt_of_le_of_lt hb.2 (by decide)
  char c hc := by
    simp only [Char.isDigit, Bool.and_eq_true, decide_eq_true_eq] at hc
    exact Nat.lt_of_le_of_lt (UInt32.le_iff_toNat_le.1 hc.2) (by decide)

def digitOf (c : Char) : Nat := digitValue (UInt8.ofNat c.toNat)

theorem digits_eq (cs : List Char) : digits (encode cs) =
    ((cs.takeWhile Char.isDigit).map digitOf, encode (cs.dropWhile Char.isDigit)) := by
  rw [digits, digitClass.takeWhile, digitClass.dropWhile, List.map_map]
  rfl

def NoDigit (cs : List Char) : Prop := ∀ c ∈ cs.head?, c.isDigit = false

namespace NoDigit
variable {cs : List Char}

theorem dropWhile (h : NoDigit cs) : cs.dropWhile Char.isDigit = cs := by
  cases cs with
  | nil => rfl
  | cons c cs => exact List.dropWhile_cons_of_neg (Bool.eq_false_iff.1 (h c rfl))

theorem takeWhile (h : NoDigit cs) : cs.takeWhile Char.isDigit = [] := by
  cases cs with
  | nil => rfl
  | cons c cs => exact List.takeWhile_cons_of_neg (Bool.eq_false_iff.1 (h c rfl))

theorem byte (h : NoDigit cs) {b : UInt8} {s : Bytes} (hs : encode cs = b :: s) :
    isDigit b = false := by
  rw [← Bool.not_eq_true]
  intro hb
  obtain ⟨c, k, rfl, -, -, hc⟩ := digitClass.exists_of_byte hs hb
  rw [h c rfl] at hc
  cases hc

end NoDigit

theorem digits_encode {ds k : List Char} (hd : ∀ c ∈ ds, c.isDigit = true) (hk : NoDigit k) :
    digits (encode (ds ++ k)) = (ds.map digitOf, encode k) := by
  rw [digits_eq, List.takeWhile_append_of_pos hd, List.dropWhile_append_of_pos hd, hk.dropWhile,
    hk.takeWhile, List.append_nil]

theorem encode_digit {c : Char} (hc : c.isDigit = true) (k : List Char) :
    ∃ b, encode (c :: k) = b :: encode k ∧ isDigit b = true ∧ digitValue b = digitOf c := by
  have hlt := digitClass.char c hc
  refine ⟨UInt8.ofNat c.toNat, ?_, (digitClass.alike c hlt).symm.trans hc, rfl⟩
  rw [encode_cons, charBytes_of_lt hlt, List.singleton_append]

theorem exists_digits (cs : List Char) : ∃ w k, cs = w ++ k ∧
    digits (encode cs) = (w.map digitOf, encode k) ∧ ∀ c ∈ w, c.isDigit = true :=
  ⟨_, _, List.takeWhile_append_dropWhile.symm, digits_eq cs, fun _ hc => List.mem_takeWhile_imp hc⟩

/-! ## whole part -/

theorem isDigit_of_nonzero {c : Char} (hc : (0x31 ≤ c.toNat && c.toNat ≤ 0x39) = true) :
    c.isDigit = true ∧ c ≠ '0' := by
  have hlt : c.toNat < 0x80 := by
    simp only [Bool.and_eq_true, decide_eq_true_eq] at hc
    omega
  exact of_forall_lt (P := fun c => (0x31 ≤ c.toNat && c.toNat ≤ 0x39) = true →
    c.isDigit = true ∧ c ≠ '0') (by decide) hlt hc

theorem exists_digit_of_int {i : List Char} (h : i ∈ int) :
    ∃ c u, i = c :: u ∧ c.isDigit = true := by
  rcases h with rfl | ⟨_, ⟨c, hc, rfl⟩, ds, -, rfl⟩
  · exact ⟨'0', [], rfl, by decide⟩
  · exact ⟨c, ds, rfl, (isDigit_of_nonzero hc).1⟩

theorem nonzero_of_isDigit {c : Char} (hc : c.isDigit = true) (h0 : c ≠ '0') :
    (0x31 ≤ c.toNat && c.toNat ≤ 0x39) = true :=
  of_forall_lt (P := fun c => c.isDigit = true → c ≠ '0' →
    (0x31 ≤ c.toNat && c.toNat ≤ 0x39) = true) (by decide) (digitClass.char c hc) hc h0

theorem wholePart_digits {b : UInt8} (hb : isDigit b = true) (h0 : b ≠ Ascii.zero) (s : Bytes) :
    wholePart (b :: s) = .ok (digitValue b :: (digits s).1, (digits s).2) := by
  simp only [wholePart, if_neg h0, if_pos hb]

theorem wholePart_zero {k : List Char} (hk : NoDigit k) :
    wholePart (Ascii.zero :: encode k) = .ok ([0], encode k) := by
  simp only [wholePart, if_pos]
  split
  · rename_i b s hs
    rw [if_neg (Bool.eq_false_iff.1 (hk.byte hs)), hs]
  · rename_i hs
    rw [hs]

theorem wholePart_eq_ok {s r : Bytes} {ds : List Nat} (h : wholePart s = .ok (ds, r)) :
    s = Ascii.zero :: r ∨
      ∃ b t, s = b :: t ∧ isDigit b = true ∧ b ≠ Ascii.zero ∧ (digits t).2 = r := by
  unfold wholePart at h
  split at h
  · cases h
  · split at h
    · rename_i h0
      subst h0
      split at h
      · split at h
        · cases h
        · cases h
          exact .inl rfl
      · cases h
        exact .inl rfl
    · rename_i h0
      split at h
      · rename_i hb
        cases h
        exact .inr ⟨_, _, rfl, hb, h0, rfl⟩
      · cases h

theorem wholePart_encode {i k : List Char} (h : i ∈ int) (hk : NoDigit k) :
    wholePart (encode (i ++ k)) = .ok (i.map digitOf, encode k) := by
  rcases h with rfl | ⟨_, ⟨c, hc, rfl⟩, ds, hds, rfl⟩
  · exact wholePart_zero hk
  · obtain ⟨hc, h0⟩ := isDigit_of_nonzero hc
    obtain ⟨b, hb, hdigit, hvalue⟩ := encode_digit hc (ds ++ k)
    have hne : b ≠ Ascii.zero := by
      rintro rfl
      obtain ⟨_, hcons, -⟩ := exists_of_encode hb (by decide)
      exact h0 (List.cons.inj hcons).1
    show wholePart (encode (c :: (ds ++ k))) = _
    rw [hb, wholePart_digits hdigit hne, digits_encode (mem_star_one.1 hds) hk, hvalue]
    rfl

theorem exists_of_wholePart {cs : List Char} {ds : List Nat} {r : Bytes}
    (h : wholePart (encode cs) = .ok (ds, r)) : ∃ i k, cs = i ++ k ∧ r = encode k ∧ i ∈ int := by
  rcases wholePart_eq_ok h with hs | ⟨b, t, hs, hb, h0, rfl⟩
  · obtain ⟨k, rfl, rfl⟩ := exists_of_encode hs (by decide)
    exact ⟨['0'], k, rfl, rfl, .inl rfl⟩
  · obtain ⟨c, k, rfl, rfl, rfl, hc⟩ := digitClass.exists_of_byte hs hb
    obtain ⟨w, k, rfl, hdigits, hw⟩ := exists_digits k
    have hne : c ≠ '0' := by
      rintro rfl
      exact h0 rfl
    have hhead : [c] ∈ one fun c => 0x31 ≤ c.toNat && c.toNat ≤ 0x39 :=
      ⟨c, nonzero_of_isDigit hc hne, rfl⟩
    exact ⟨c :: w, k, rfl, by rw [hdigits], .inr ⟨[c], hhead, w, mem_star_one.2 hw, rfl⟩⟩

/-! ## fraction and exponent -/

/-- a text that does not go on with a part of a number -/
def Ends (cs : List Char) : Prop :=
  ∀ c ∈ cs.head?, c.isDigit = false ∧ c ≠ '.' ∧ c ≠ 'e' ∧ c ≠ 'E'

theorem Ends.noDigit {cs : List Char} (h : Ends cs) : NoDigit cs := fun c hc => (h c hc).1

theorem ends_cons {c : Char} (hc : c.isDigit = false ∧ c ≠ '.' ∧ c ≠ 'e' ∧ c ≠ 'E')
    (k : List Char) : Ends (c :: k) := by
  rintro d ⟨⟩
  exact hc

theorem ends_ws {a k : List Char} (ha : a ∈ ws) (hk : Ends k) : Ends (a ++ k) := by
  cases a with
  | nil => exact hk
  | cons c a =>
    have hc := mem_ws.1 ha c List.mem_cons_self
    simp only [Grammar.isBlank, Bool.or_eq_true, beq_iff_eq] at hc
    rcases hc with ((rfl | rfl) | rfl) | rfl <;> exact ends_cons (by decide) _

theorem fractionPart_point {ds k : List Char} (h : ds ∈ Grammar.digits) (hk : NoDigit k) :
    fractionPart (encode ('.' :: (ds ++ k))) = .ok (ds.map digitOf, encode k) := by
  obtain ⟨hne, hd⟩ := mem_digits.1 h
  show fractionPart (Ascii.point :: encode (ds ++ k)) = _
  simp only [fractionPart, if_pos]
  rw [digits_encode hd hk]
  cases ds with
  | nil => exact absurd rfl hne
  | cons c ds => rfl

theorem fractionPart_none {k : List Char} (hk : k.head? ≠ some '.') :
    fractionPart (encode k) = .ok ([], encode k) := by
  unfold fractionPart
  split
  · rename_i hs
    rw [hs]
  · rename_i b s hs
    have hne : b ≠ Ascii.point := by
      rintro rfl
      obtain ⟨_, rfl, -⟩ := exists_of_encode hs (by decide)
      exact hk rfl
    rw [if_neg hne, hs]

theorem exists_of_fractionPart {cs : List Char} {ds : List Nat} {r : Bytes}
    (h : fractionPart (encode cs) = .ok (ds, r)) :
    ∃ f k, cs = f ++ k ∧ r = encode k ∧ f ∈ optional frac := by
  unfold fractionPart at h
  split at h
  · rename_i hs
    cases h
    exact ⟨[], cs, rfl, hs.symm, .inl rfl⟩
  · rename_i b s hs
    split at h
    · rename_i hb
      subst hb
      obtain ⟨k, rfl, rfl⟩ := exists_of_encode hs (by decide)
      split at h
      · cases h
      · cases h
      · rename_i ds' r' hne hne' hd
        cases h
        obtain ⟨w, k, rfl, hdigits, hw⟩ := exists_digits k
        obtain ⟨rfl, rfl⟩ := Prod.mk.inj (hdigits.symm.trans hd)
        have hw' : w ∈ Grammar.digits := by
          refine mem_digits.2 ⟨?_, hw⟩
          rintro rfl
          exact hne' rfl
        exact ⟨'.' :: w, k, rfl, rfl, .inr ⟨_, rfl, w, hw', rfl⟩⟩
    · cases h
      exact ⟨[], cs, rfl, hs.symm, .inl rfl⟩

theorem exponentPart_none {k : List Char} (he : k.head? ≠ some 'e') (hE : k.head? ≠ some 'E') :
    exponentPart (encode k) = .ok (none, encode k) := by
  unfold exponentPart
  split
  · rename_i hs
    rw [hs]
  · rename_i b s hs
    rw [if_neg, hs]
    rintro (rfl | rfl)
    · obtain ⟨_, rfl, -⟩ := exists_of_encode hs (by decide)
      exact he rfl
    · obtain ⟨_, rfl, -⟩ := exists_of_encode hs (by decide)
      exact hE rfl

theorem exponentSign_digit {b : UInt8} (hb : isDigit b = true) (s : Bytes) :
    exponentSign (b :: s) = (false, b :: s) := by
  have hplus : b ≠ Ascii.plus := by
    rintro rfl
    cases hb
  have hminus : b ≠ Ascii.minus := by
    rintro rfl
    cases hb
  rw [exponentSign, if_neg hplus, if_neg hminus]

theorem exponentPart_mark {b c : UInt8} (hb : b = 0x65 ∨ b = 0x45) {s t : Bytes} {down : Bool}
    (hs : exponentSign s = (down, c :: t)) (hc : isDigit c = true) :
    exponentPart (b :: s) = .ok (some (down, digitValue c :: (digits t).1), (digits t).2) := by
  simp only [exponentPart, if_pos hb, hs, if_pos hc]

/-- an exponent of the grammar is read to its end -/
theorem exists_exponentPart {e k : List Char} (h : e ∈ Grammar.exp) (hk : NoDigit k) :
    ∃ x, exponentPart (encode (e ++ k)) = .ok (x, encode k) := by
  obtain ⟨m, hm, _, ⟨sign, hsign, _, ⟨_, ⟨c, hc, rfl⟩, ds, hds, rfl⟩, rfl⟩, rfl⟩ := h
  have hall := mem_star_one.1 hds
  obtain ⟨b, hb, hdigit, -⟩ := encode_digit hc (ds ++ k)
  have hs : ∃ down,
      exponentSign (encode (sign ++ c :: (ds ++ k))) = (down, b :: encode (ds ++ k)) := by
    rcases hsign with rfl | rfl | rfl
    · exact ⟨false, by rw [List.nil_append, hb, exponentSign_digit hdigit]⟩
    · exact ⟨true, by rw [← hb]; rfl⟩
    · exact ⟨false, by rw [← hb]; rfl⟩
  obtain ⟨down, hs⟩ := hs
  have hmark : ∃ a : UInt8, (a = 0x65 ∨ a = 0x45) ∧ ∀ l, encode (m ++ l) = a :: encode l := by
    rcases hm with rfl | rfl
    · exact ⟨0x65, .inl rfl, fun l => rfl⟩
    · exact ⟨0x45, .inr rfl, fun l => rfl⟩
  obtain ⟨a, ha, hencode⟩ := hmark
  refine ⟨some (down, digitValue b :: (digits (encode (ds ++ k))).1), ?_⟩
  have happend : m ++ (sign ++ ([c] ++ ds)) ++ k = m ++ (sign ++ c :: (ds ++ k)) := by simp
  show exponentPart (encode (m ++ (sign ++ ([c] ++ ds)) ++ k)) = _
  rw [happend, hencode, exponentPart_mark ha hs hdigit, digits_encode hall hk]

theorem exists_of_exponentSign {s t : Bytes} {down : Bool} (h : exponentSign s = (down, t)) :
    s = t ∨ s = Ascii.plus :: t ∨ s = Ascii.minus :: t := by
  unfold exponentSign at h
  split at h
  · cases h
    exact .inl rfl
  · split at h
    · rename_i hb
      cases h
      exact .inr (.inl (by rw [hb]))
    · split at h
      · rename_i hb
        cases h
        exact .inr (.inr (by rw [hb]))
      · cases h
        exact .inl rfl

theorem exponentPart_eq_ok {s r : Bytes} {x : Option (Bool × List Nat)}
    (h : exponentPart s = .ok (x, r)) :
    s = r ∨ ∃ b t down c u, s = b :: t ∧ (b = 0x65 ∨ b = 0x45) ∧ exponentSign t = (down, c :: u) ∧
      isDigit c = true ∧ (digits u).2 = r := by
  unfold exponentPart at h
  split at h
  · cases h
    exact .inl rfl
  · split at h
    · rename_i hb
      split at h
      · cases h
      · rename_i hs
        split at h
        · rename_i hc
          cases h
          exact .inr ⟨_, _, _, _, _, rfl, hb, hs, hc, rfl⟩
        · cases h
    · cases h
      exact .inl rfl

theorem exists_of_exponentPart {cs : List Char} {x : Option (Bool × List Nat)} {r : Bytes}
    (h : exponentPart (encode cs) = .ok (x, r)) :
    ∃ e k, cs = e ++ k ∧ r = encode k ∧ e ∈ optional Grammar.exp := by
  rcases exponentPart_eq_ok h with rfl | ⟨b, t, down, c, u, hs, hb, hsign, hc, rfl⟩
  · exact ⟨[], cs, rfl, rfl, .inl rfl⟩
  · have hmark : ∃ m k, cs = m ++ k ∧ t = encode k ∧ m ∈ char 'e' + char 'E' := by
      rcases hb with rfl | rfl
      · obtain ⟨k, rfl, rfl⟩ := exists_of_encode hs (by decide)
        exact ⟨['e'], k, rfl, rfl, .inl rfl⟩
      · obtain ⟨k, rfl, rfl⟩ := exists_of_encode hs (by decide)
        exact ⟨['E'], k, rfl, rfl, .inr rfl⟩
    obtain ⟨m, k, rfl, rfl, hm⟩ := hmark
    have hsigned : ∃ sign l, k = sign ++ l ∧ c :: u = encode l ∧
        sign ∈ optional (char '-' + char '+') := by
      rcases exists_of_exponentSign hsign with hk | hk | hk
      · exact ⟨[], k, rfl, hk.symm, .inl rfl⟩
      · obtain ⟨l, rfl, hl⟩ := exists_of_encode hk (by decide)
        exact ⟨['+'], l, rfl, hl, .inr (.inr rfl)⟩
      · obtain ⟨l, rfl, hl⟩ := exists_of_encode hk (by decide)
        exact ⟨['-'], l, rfl, hl, .inr (.inl rfl)⟩
    obtain ⟨sign, l, rfl, hl, hmem⟩ := hsigned
    obtain ⟨d, l, rfl, rfl, rfl, hd⟩ := digitClass.exists_of_byte hl.symm hc
    obtain ⟨w, l, rfl, hdigits, hw⟩ := exists_digits l
    have hword : d :: w ∈ Grammar.digits := ⟨[d], ⟨d, hd, rfl⟩, w, mem_star_one.2 hw, rfl⟩
    refine ⟨m ++ (sign ++ (d :: w)), l, by simp, by rw [hdigits], .inr ?_⟩
    exact ⟨m, hm, _, ⟨sign, hmem, _, hword, rfl⟩, rfl⟩

/-! ## numbers -/

theorem head_exp {e k : List Char} (he : e ∈ optional Grammar.exp) (hk : Ends k) :
    ∀ c ∈ (e ++ k).head?, c.isDigit = false ∧ c ≠ '.' := by
  rcases he with rfl | ⟨_, rfl | rfl, _, _, rfl⟩
  · exact fun c hc => ⟨(hk c hc).1, (hk c hc).2.1⟩
  · rintro c ⟨⟩
    decide
  · rintro c ⟨⟩
    decide

theorem noDigit_frac {f l : List Char} (hf : f ∈ optional frac) (hl : NoDigit l) :
    NoDigit (f ++ l) := by
  rcases hf with rfl | ⟨_, rfl, _, _, rfl⟩
  · exact hl
  · rintro c ⟨⟩
    decide

theorem exists_numeral {u k : List Char} (h : u ∈ int * (optional frac * optional Grammar.exp))
    (hk : Ends k) (negative : Bool) :
    ∃ x, numeral negative (encode (u ++ k)) = .ok (x, encode k) := by
  obtain ⟨i, hi, _, ⟨f, hf, e, he, rfl⟩, rfl⟩ := h
  -- each part ends where the next begins: nothing that follows a part continues it
  have hhead := head_exp he hk
  have hnodigit : NoDigit (e ++ k) := fun c hc => (hhead c hc).1
  have hwhole := wholePart_encode hi (noDigit_frac hf hnodigit)
  have hfraction : ∃ ds, fractionPart (encode (f ++ (e ++ k))) = .ok (ds, encode (e ++ k)) := by
    rcases hf with rfl | ⟨_, rfl, ds, hds, rfl⟩
    · exact ⟨[], fractionPart_none fun hc => (hhead _ hc).2 rfl⟩
    · exact ⟨_, fractionPart_point hds hnodigit⟩
  have hexponent : ∃ x, exponentPart (encode (e ++ k)) = .ok (x, encode k) := by
    rcases he with rfl | he
    · exact ⟨none, exponentPart_none (fun hc => (hk _ hc).2.2.1 rfl) fun hc => (hk _ hc).2.2.2 rfl⟩
    · exact exists_exponentPart he hk.noDigit
  obtain ⟨ds, hfraction⟩ := hfraction
  obtain ⟨x, hexponent⟩ := hexponent
  refine ⟨⟨negative, i.map digitOf, ds, x⟩, ?_⟩
  have happend : i ++ (f ++ e) ++ k = i ++ (f ++ (e ++ k)) := by simp
  show numeral negative (encode (i ++ (f ++ e) ++ k)) = _
  simp only [happend, numeral, hwhole, bind, Except.bind, hfraction, hexponent]

theorem numeral_int {i k : List Char} (hi : i ∈ int) (hk : Ends k) (negative : Bool) :
    numeral negative (encode (i ++ k)) = .ok (⟨negative, i.map digitOf, [], none⟩, encode k) := by
  have hf : fractionPart (encode k) = .ok ([], encode k) :=
    fractionPart_none fun hc => (hk _ hc).2.1 rfl
  have he : exponentPart (encode k) = .ok (none, encode k) :=
    exponentPart_none (fun hc => (hk _ hc).2.2.1 rfl) (fun hc => (hk _ hc).2.2.2 rfl)
  simp only [numeral, wholePart_encode hi hk.noDigit, bind, Except.bind, hf, he]

theorem exists_of_numeral {cs : List Char} {negative : Bool} {x : Numeral} {r : Bytes}
    (h : numeral negative (encode cs) = .ok (x, r)) :
    ∃ u k, cs = u ++ k ∧ r = encode k ∧ u ∈ int * (optional frac * optional Grammar.exp) := by
  obtain ⟨⟨_, s⟩, hi, h⟩ := except_bind_eq_ok h
  obtain ⟨⟨_, t⟩, hf, h⟩ := except_bind_eq_ok h
  obtain ⟨⟨_, _⟩, he, h⟩ := except_bind_eq_ok h
  cases h
  obtain ⟨i, k, rfl, rfl, hmi⟩ := exists_of_wholePart hi
  obtain ⟨f, k, rfl, rfl, hmf⟩ := exists_of_fractionPart hf
  obtain ⟨e, k, rfl, rfl, hme⟩ := exists_of_exponentPart he
  exact ⟨i ++ (f ++ e), k, by simp, rfl, i, hmi, _, ⟨f, hmf, e, hme, rfl⟩, rfl⟩

end TagTree.Json.Reader
