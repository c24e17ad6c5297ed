import TagTree.Proofs.Numerals

/-!
# Steps of the reader

One value, one element of an array or one field of an object at a time: what the reader does next,
and how it can have succeeded.  The lemmas named `_eq_ok` say all that there is to a success, so
nothing later opens the reader itself.

* `scalar_eq_ok`, `value_eq_ok`, `items_eq_ok`, `fields_eq_ok`   successes of each part;
* `items_last`, `items_next`, `fields_last`, `fields_next`       the steps of arrays and objects;
* `value_of_scalar`                                              a value that is neither;
* `head_or_error`                                                what cannot start a value.
-/

namespace TagTree.Json.Reader
open Text Grammar
open scoped Computability

/-! ## scalars -/

theorem word_eq_ok {es s r : Bytes} (h : word es s = .ok r) : s = es ++ r := by
  induction es generalizing s with
  | nil =>
    cases h
    rfl
  | cons e es ih =>
    cases s with
    | nil => cases h
    | cons b s =>
      rw [word] at h
      split at h
      · rename_i hb
        rw [hb, ih h, List.cons_append]
      · cases h

theorem scalar_quote (s : Bytes) :
    scalar Ascii.quote s = (string s).map fun x => (.string x.1, x.2) := by
  rw [scalar, if_pos rfl]
  cases string s <;> rfl

theorem scalar_minus (s : Bytes) :
    scalar Ascii.minus s = (number true s).map fun x => (.number x.1, x.2) := by
  rw [scalar, if_neg (by decide), if_pos rfl]
  cases number true s <;> rfl

theorem scalar_digit {b : UInt8} (hb : isDigit b = true) (s : Bytes) :
    scalar b s = (number false (b :: s)).map fun x => (.number x.1, x.2) := by
  have hquote : b ≠ Ascii.quote := by
    rintro rfl
    cases hb
  have hminus : b ≠ Ascii.minus := by
    rintro rfl
    cases hb
  rw [scalar, if_neg hquote, if_neg hminus, if_pos hb]
  cases number false (b :: s) <;> rfl

theorem scalar_eq_ok {b : UInt8} {s r : Bytes} {v : Json} (h : scalar b s = .ok (v, r)) :
    (b = Ascii.quote ∧ ∃ t, v = .string t ∧ string s = .ok (t, r)) ∨
      (b = Ascii.minus ∧ ∃ n, v = .number n ∧ number true s = .ok (n, r)) ∨
      (isDigit b = true ∧ ∃ n, v = .number n ∧ number false (b :: s) = .ok (n, r)) ∨
      ∃ w, b :: s = bytes w ++ r ∧
        ((w = "null" ∧ v = .null) ∨ (w = "true" ∧ v = .bool true) ∨
          (w = "false" ∧ v = .bool false)) := by
  unfold scalar at h
  split at h
  · rename_i hb
    obtain ⟨⟨t, _⟩, ht, h⟩ := except_bind_eq_ok h
    cases h
    exact .inl ⟨hb, t, rfl, ht⟩
  split at h
  · rename_i hb
    obtain ⟨⟨n, _⟩, hn, h⟩ := except_bind_eq_ok h
    cases h
    exact .inr (.inl ⟨hb, n, rfl, hn⟩)
  split at h
  · rename_i hb
    obtain ⟨⟨n, _⟩, hn, h⟩ := except_bind_eq_ok h
    cases h
    exact .inr (.inr (.inl ⟨hb, n, rfl, hn⟩))
  refine .inr (.inr (.inr ?_))
  split at h
  · rename_i hb
    obtain ⟨_, hw, h⟩ := except_bind_eq_ok h
    cases h
    exact ⟨"null", by rw [hb, word_eq_ok hw]; rfl, .inl ⟨rfl, rfl⟩⟩
  split at h
  · rename_i hb
    obtain ⟨_, hw, h⟩ := except_bind_eq_ok h
    cases h
    exact ⟨"true", by rw [hb, word_eq_ok hw]; rfl, .inr (.inl ⟨rfl, rfl⟩)⟩
  split at h
  · rename_i hb
    obtain ⟨_, hw, h⟩ := except_bind_eq_ok h
    cases h
    exact ⟨"false", by rw [hb, word_eq_ok hw]; rfl, .inr (.inr ⟨rfl, rfl⟩)⟩
  · cases h

theorem number_eq_ok {negative : Bool} {s r : Bytes} {n : Number}
    (h : number negative s = .ok (n, r)) :
    ∃ x, numeral negative s = .ok (x, r) ∧ x.value = .ok n := by
  obtain ⟨⟨x, t⟩, hx, h⟩ := except_bind_eq_ok h
  dsimp only at h
  split at h
  · rename_i hn
    cases h
    exact ⟨x, hx, hn⟩
  · cases h

/-! ## single values -/

section
variable {fuel : Nat} {s t r : Bytes}

theorem value_scalar {b : UInt8} (hs : skip s = b :: t) (hb : b ≠ Ascii.openBracket)
    (hb' : b ≠ Ascii.openBrace) : value (fuel + 1) s = scalar b t := by
  simp only [value, hs, if_neg hb, if_neg hb']

theorem value_emptyArray (hs : skip s = Ascii.openBracket :: t)
    (ht : skip t = Ascii.closeBracket :: r) :
    value (fuel + 1) s = .ok (.array [], r) := by
  simp only [value, hs, ht, if_pos]

theorem value_array {c : UInt8} (hs : skip s = Ascii.openBracket :: t) (ht : skip t = c :: r)
    (hc : c ≠ Ascii.closeBracket) : value (fuel + 1) s = items fuel [] (skip t) := by
  simp only [value, hs, ht, if_pos, if_neg hc]

theorem value_emptyObject (hs : skip s = Ascii.openBrace :: t)
    (ht : skip t = Ascii.closeBrace :: r) :
    value (fuel + 1) s = .ok (.object [], r) := by
  simp only [value, hs, ht, if_pos, if_neg (show Ascii.openBrace ≠ Ascii.openBracket by decide)]

theorem value_object {c : UInt8} (hs : skip s = Ascii.openBrace :: t) (ht : skip t = c :: r)
    (hc : c ≠ Ascii.closeBrace) : value (fuel + 1) s = fields fuel [] .endInObject (skip t) := by
  simp only [value, hs, ht, if_pos, if_neg hc,
    if_neg (show Ascii.openBrace ≠ Ascii.openBracket by decide)]

theorem value_eq_ok {v : Json} (h : value (fuel + 1) s = .ok (v, r)) :
    ∃ b t, skip s = b :: t ∧
      ((b = Ascii.openBracket ∧
          ((skip t = Ascii.closeBracket :: r ∧ v = .array []) ∨
            items fuel [] (skip t) = .ok (v, r))) ∨
        (b = Ascii.openBrace ∧
          ((skip t = Ascii.closeBrace :: r ∧ v = .object []) ∨
            fields fuel [] .endInObject (skip t) = .ok (v, r))) ∨
        scalar b t = .ok (v, r)) := by
  rw [value] at h
  split at h
  · cases h
  · rename_i b t hs
    refine ⟨b, t, hs, ?_⟩
    split at h
    · rename_i hb
      refine .inl ⟨hb, ?_⟩
      split at h
      · cases h
      · rename_i c u ht
        split at h
        · rename_i hc
          cases h
          exact .inl ⟨by rw [ht, hc], rfl⟩
        · exact .inr (by rw [ht]; exact h)
    · split at h
      · rename_i hb
        refine .inr (.inl ⟨hb, ?_⟩)
        split at h
        · cases h
        · rename_i c u ht
          split at h
          · rename_i hc
            cases h
            exact .inl ⟨by rw [ht, hc], rfl⟩
          · exact .inr (by rw [ht]; exact h)
      · exact .inr (.inr h)

/-! ## elements -/

theorem items_last {read : List Json} {x : Json} (hx : value fuel s = .ok (x, t))
    (ht : skip t = Ascii.closeBracket :: r) :
    items (fuel + 1) read s = .ok (.array (x :: read).reverse, r) := by
  simp only [items, hx, bind, Except.bind, ht, if_pos]

theorem items_next {read : List Json} {x : Json} {c : UInt8} {u : Bytes}
    (hx : value fuel s = .ok (x, t)) (ht : skip t = Ascii.comma :: u) (hu : skip u = c :: r)
    (hc : c ≠ Ascii.closeBracket) :
    items (fuel + 1) read s = items fuel (x :: read) (skip u) := by
  simp only [items, hx, bind, Except.bind, ht, if_pos, hu, if_neg hc,
    if_neg (show Ascii.comma ≠ Ascii.closeBracket by decide)]

theorem items_error {read : List Json} {e : Fault} (h : value fuel s = .error e) :
    items (fuel + 1) read s = .error e := by
  simp only [items, h, bind, Except.bind]

theorem items_eq_ok {read : List Json} {v : Json} (h : items (fuel + 1) read s = .ok (v, r)) :
    ∃ x t, value fuel s = .ok (x, t) ∧
      ((skip t = Ascii.closeBracket :: r ∧ v = .array (x :: read).reverse) ∨
        ∃ u, skip t = Ascii.comma :: u ∧ items fuel (x :: read) (skip u) = .ok (v, r)) := by
  rw [items] at h
  obtain ⟨⟨x, t⟩, hx, h⟩ := except_bind_eq_ok h
  refine ⟨x, t, hx, ?_⟩
  dsimp only at h
  split at h
  · cases h
  · rename_i c u ht
    split at h
    · rename_i hc
      cases h
      exact .inl ⟨by rw [ht, hc], rfl⟩
    · split at h
      · rename_i hc
        refine .inr ⟨u, by rw [ht, hc], ?_⟩
        split at h
        · cases h
        · rename_i hu
          split at h
          · cases h
          · rw [hu]
            exact h
      · cases h

/-! ## fields -/

theorem key_colon {atEnd : Problem} {k : String} (hk : string s = .ok (k, t))
    (ht : skip t = Ascii.colon :: r) : key atEnd (Ascii.quote :: s) = .ok (k, r) := by
  simp only [key, if_pos, hk, bind, Except.bind, ht]

theorem key_eq_ok {atEnd : Problem} {k : String} (h : key atEnd s = .ok (k, r)) :
    ∃ t u, s = Ascii.quote :: t ∧ string t = .ok (k, u) ∧ skip u = Ascii.colon :: r := by
  unfold key at h
  split at h
  · cases h
  · rename_i b t
    split at h
    · rename_i hb
      obtain ⟨⟨k', u⟩, hk, h⟩ := except_bind_eq_ok h
      dsimp only at h
      split at h
      · cases h
      · rename_i c w hu
        split at h
        · rename_i hc
          cases h
          exact ⟨t, u, by rw [hb], hk, by rw [hu, hc]⟩
        · cases h
    · cases h

theorem fields_last {read : List (String × Json)} {atEnd : Problem} {k : String} {x : Json}
    {u : Bytes} (hk : key atEnd s = .ok (k, t)) (hx : value fuel t = .ok (x, u))
    (hu : skip u = Ascii.closeBrace :: r) :
    fields (fuel + 1) read atEnd s = .ok (.object (insertField k x read), r) := by
  simp only [fields, hk, hx, bind, Except.bind, hu, if_pos]

theorem fields_next {read : List (String × Json)} {atEnd : Problem} {k : String} {x : Json}
    {c : UInt8} {u w : Bytes} (hk : key atEnd s = .ok (k, t)) (hx : value fuel t = .ok (x, u))
    (hu : skip u = Ascii.comma :: w) (hw : skip w = c :: r) (hc : c ≠ Ascii.closeBrace) :
    fields (fuel + 1) read atEnd s = fields fuel (insertField k x read) .endInValue (skip w) := by
  simp only [fields, hk, hx, bind, Except.bind, hu, if_pos, hw, if_neg hc,
    if_neg (show Ascii.comma ≠ Ascii.closeBrace by decide)]

theorem fields_error {read : List (String × Json)} {atEnd : Problem} {k : String} {e : Fault}
    (hk : key atEnd s = .ok (k, t)) (h : value fuel t = .error e) :
    fields (fuel + 1) read atEnd s = .error e := by
  simp only [fields, hk, h, bind, Except.bind]

theorem fields_eq_ok {read : List (String × Json)} {atEnd : Problem} {v : Json}
    (h : fields (fuel + 1) read atEnd s = .ok (v, r)) :
    ∃ k x t u, key atEnd s = .ok (k, t) ∧ value fuel t = .ok (x, u) ∧
      ((skip u = Ascii.closeBrace :: r ∧ v = .object (insertField k x read)) ∨
        ∃ w, skip u = Ascii.comma :: w ∧
          fields fuel (insertField k x read) .endInValue (skip w) = .ok (v, r)) := by
  rw [fields] at h
  obtain ⟨⟨k, t⟩, hk, h⟩ := except_bind_eq_ok h
  obtain ⟨⟨x, u⟩, hx, h⟩ := except_bind_eq_ok h
  refine ⟨k, x, t, u, hk, hx, ?_⟩
  dsimp only at h
  split at h
  · cases h
  · rename_i c w hu
    split at h
    · rename_i hc
      cases h
      exact .inl ⟨by rw [hu, hc], rfl⟩
    · split at h
      · rename_i hc
        refine .inr ⟨w, by rw [hu, hc], ?_⟩
        split at h
        · cases h
        · rename_i hw
          split at h
          · cases h
          · rw [hw]
            exact h
      · cases h

/-! ## whole texts -/

theorem document_of_value {s r : Bytes} {v : Json} (hv : value (2 * s.length + 2) s = .ok (v, r))
    (hr : skip r = []) : document s = .ok v := by
  simp only [document, hv, bind, Except.bind, hr]

theorem document_eq_ok {s : Bytes} {v : Json} (h : document s = .ok v) :
    ∃ r, value (2 * s.length + 2) s = .ok (v, r) ∧ skip r = [] := by
  obtain ⟨⟨x, r⟩, hx, h⟩ := except_bind_eq_ok h
  dsimp only at h
  split at h
  · rename_i hr
    cases h
    exact ⟨r, hx, hr⟩
  · cases h

end

theorem read_eq (text : String) :
    Json.read text =
      (document (encode text.toList)).mapError (Fault.locate (encode text.toList)) := by
  rw [Json.read, bytes_eq_encode]

/-! ## texts as characters -/

theorem skip_cons {c : Char} (hc : Grammar.isBlank c = false) (k : List Char) :
    skip (encode (c :: k)) = encode (c :: k) := by
  rw [skip_encode, List.dropWhile_cons_of_neg (Bool.eq_false_iff.1 hc)]

theorem skip_mark {a : List Char} (ha : a ∈ ws) {c : Char} (hc : Grammar.isBlank c = false)
    (k : List Char) : skip (encode (a ++ c :: k)) = encode (c :: k) := by
  rw [skip_ws ha, skip_cons hc]

theorem value_ws {a : List Char} (ha : a ∈ ws) (fuel : Nat) (k : List Char) :
    value (fuel + 1) (encode (a ++ k)) = value (fuel + 1) (encode k) := by
  rw [← value_skip, skip_ws ha, value_skip]

theorem length_encode_append (v k : List Char) : (encode k).length ≤ (encode (v ++ k)).length := by
  rw [encode_append, List.length_append]
  omega

theorem length_encode_lt (v : List Char) (c : Char) (k : List Char) :
    (encode k).length < (encode (v ++ c :: k)).length := by
  have hne : 0 < (charBytes c).length := List.length_pos_of_ne_nil String.utf8EncodeChar_ne_nil
  rw [encode_append, encode_cons, List.length_append, List.length_append]
  omega

/-- a character that starts neither an array nor an object decides on its own -/
theorem value_of_scalar {c : Char} (hlt : c.toNat < 0x80)
    (hc : Grammar.isBlank c = false ∧ c ≠ '[' ∧ c ≠ '\x7b') (fuel : Nat) (u : List Char) :
    value (fuel + 1) (encode (c :: u)) = scalar (UInt8.ofNat c.toNat) (encode u) := by
  obtain ⟨hblank, hbracket, hbrace⟩ := hc
  have hskip : skip (encode (c :: u)) = UInt8.ofNat c.toNat :: encode u := by
    rw [skip_cons hblank, encode_cons, charBytes_of_lt hlt, List.singleton_append]
  have hbytes : UInt8.ofNat c.toNat ≠ Ascii.openBracket ∧ UInt8.ofNat c.toNat ≠ Ascii.openBrace :=
    of_forall_lt (P := fun c => c ≠ '[' → c ≠ '\x7b' →
      UInt8.ofNat c.toNat ≠ Ascii.openBracket ∧ UInt8.ofNat c.toNat ≠ Ascii.openBrace)
      (by decide) hlt hbracket hbrace
  exact value_scalar hskip hbytes.1 hbytes.2

theorem scalar_of_digit {c : Char} (hc : c.isDigit = true) (u : List Char) :
    scalar (UInt8.ofNat c.toNat) (encode u) =
      (number false (encode (c :: u))).map fun x => (.number x.1, x.2) := by
  have hlt := digitClass.char c hc
  rw [scalar_digit ((digitClass.alike c hlt).symm.trans hc), encode_cons, charBytes_of_lt hlt,
    List.singleton_append]

theorem start_of_digit {c : Char} (hc : c.isDigit = true) :
    Grammar.isBlank c = false ∧ c ≠ '[' ∧ c ≠ '\x7b' :=
  of_forall_lt (P := fun c => c.isDigit = true → Grammar.isBlank c = false ∧ c ≠ '[' ∧ c ≠ '\x7b')
    (by decide) (digitClass.char c hc) hc

theorem head_or_error (fuel : Nat) (s : Bytes) :
    (∃ c t, skip s = c :: t ∧ c ≠ Ascii.closeBracket) ∨
      ∃ p t, (p = .endInValue ∨ p = .expectedValue) ∧
        value (fuel + 1) s = .error (Problem.behind p t) := by
  cases hs : skip s with
  | nil =>
    refine .inr ⟨.endInValue, [], .inl rfl, ?_⟩
    rw [value, hs]
  | cons c t =>
    by_cases hc : c = Ascii.closeBracket
    · subst hc
      refine .inr ⟨.expectedValue, Ascii.closeBracket :: t, .inr rfl, ?_⟩
      rw [value_scalar hs (by decide) (by decide)]
      rfl
    · exact .inl ⟨c, t, rfl, hc⟩

end TagTree.Json.Reader
