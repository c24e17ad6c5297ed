import TagTree.Proofs.Causality

/-!
# The scanners are causal

Each scanner is causal because its parts are.  Escapes and words are said together with what stands
behind them, since a refusal may follow them at once; everything else stops at the byte in front of
which the next scanner starts.

* `reads_hexFour`, `causal_word`         digits of escapes and letters of words, and what follows;
* `causal_string`, `reads_number`        strings and numbers;
* `causal_scalar`, `reads_key`           scalars and keys;
* `reads_opened`, `reads_separated`      what stands behind a bracket, and behind an element;
* `items_succ`, `fields_succ`            elements and fields, one after the other;
* `reads_all`                            values, by induction on the fuel.
-/

namespace TagTree.Json.Reader
variable {α : Type}

/-! ## strings -/

theorem reads_hexFour {h : Nat × Bytes → Except Fault (α × Bytes)}
    (hh : ∀ n, Causal fun s => h (n, s)) : Reads fun s => hexFour s >>= h := by
  apply Reads.of_cons rfl (by decide)
  intro a
  apply Reads.causal
  apply Reads.of_cons rfl (by decide)
  intro b
  apply Reads.causal
  apply Reads.of_cons rfl (by decide)
  intro c
  apply Reads.causal
  apply Reads.of_cons rfl (by decide)
  intro d
  simp only [hexFour]
  -- the digits are looked at when all four have been read
  split
  · exact hh _
  · exact Causal.refuse .invalidEscape

theorem reads_hexEscapeByte (b : UInt8) {h : Bytes → Except Fault (α × Bytes)} (hh : Causal h) :
    Reads fun s => hexEscapeByte b s >>= h := by
  apply Reads.of_cons rfl (by decide)
  intro c
  by_cases hc : c = b
  · simp only [hexEscapeByte, if_pos hc]
    exact hh
  · simp only [hexEscapeByte, if_neg hc]
    exact Causal.refuse .endOfHexEscape

theorem causal_unicodeEscape : Causal unicodeEscape := by
  apply Reads.causal
  apply reads_hexFour
  intro n
  apply Causal.ite
  · intro _
    exact Causal.refuse .loneSurrogate
  intro _
  apply Causal.ite
  · intro _
    apply Reads.causal
    apply reads_hexEscapeByte
    apply Reads.causal
    apply reads_hexEscapeByte
    apply Reads.causal
    apply reads_hexFour
    intro m
    apply Causal.ite
    · intro _
      exact Causal.pure _
    · intro _
      exact Causal.refuse .loneSurrogate
  · intro _
    exact Causal.pure _

theorem reads_escape : Reads escape := by
  apply Reads.of_cons rfl (by decide)
  intro b
  cases hb : letterEscape? b with
  | some c =>
    simp only [escape, hb]
    exact Causal.pure [c]
  | none =>
    simp only [escape, hb]
    apply Causal.ite
    · intro _
      exact causal_unicodeEscape
    · intro _
      exact Causal.refuse .invalidEscape

theorem stringBody_backslash (read s : Bytes) :
    stringBody read (Ascii.backslash :: s) =
      escape s >>= fun x => stringBody (x.1.reverse ++ read) x.2 := by
  cases h : escape s with
  | ok x => exact stringBody_escape h read
  | error e =>
    rw [stringBody, if_neg (by decide), if_pos rfl]
    split
    · rename_i h'
      rw [h] at h'
      cases h'
    · rename_i h'
      rw [h] at h'
      exact h'.symm

theorem causal_stringBody (read : Bytes) : Causal (stringBody read) where
  passed h := by
    obtain ⟨w, rfl, hw⟩ := stringBody_local h
    exact ⟨w, rfl, fun r' _ => hw r'⟩
  refused {s e} he hd := by
    -- an escape takes several bytes, so the induction is on the length
    induction hn : s.length using Nat.strong_induction_on generalizing s read with
    | _ n ih =>
      subst hn
      cases s with
      | nil =>
        rw [stringBody] at he
        cases he
        exact absurd hd (by decide)
      | cons b t =>
        by_cases hq : b = Ascii.quote
        · subst hq
          rw [stringBody_quote] at he
          cases he
        by_cases hb : b = Ascii.backslash
        · subst hb
          rw [stringBody_backslash] at he
          rcases except_bind_eq_error he with hescape | ⟨⟨c, u⟩, hescape, hbody⟩
          · obtain ⟨w, r, rfl, hr, hw⟩ := reads_escape.refused hescape hd
            refine ⟨Ascii.backslash :: w, r, rfl, hr, fun r' => ?_⟩
            rw [List.cons_append, stringBody_backslash]
            exact except_bind_error (hw r') _
          · have hlen := escape_shorter hescape
            obtain ⟨v, rfl, hv⟩ := escape_local hescape
            obtain ⟨w, r, rfl, hr, hw⟩ :=
              ih u.length (by rw [List.length_cons]; omega) _ hbody rfl
            refine ⟨Ascii.backslash :: (v ++ w), r, by simp, hr, fun r' => ?_⟩
            rw [List.cons_append, List.append_assoc, stringBody_backslash, except_bind_ok (hv _)]
            exact hw r'
        by_cases hc : b < 0x20
        · have hrefuse (u : Bytes) :
              stringBody read (b :: u) = .error (Problem.controlCharacter.before u) := by
            rw [stringBody, if_neg hq, if_neg hb, if_pos hc]
          rw [hrefuse] at he
          cases he
          exact ⟨[b], t, rfl, rfl, hrefuse⟩
        · rw [stringBody_byte hq hb hc] at he
          obtain ⟨w, r, rfl, hr, hw⟩ := ih t.length (by simp) _ he rfl
          refine ⟨b :: w, r, rfl, hr, fun r' => ?_⟩
          rw [List.cons_append, stringBody_byte hq hb hc]
          exact hw r'

theorem causal_string : Causal string :=
  (causal_stringBody []).bind fun _ => Forward.pure _

/-! ## numbers -/

theorem digitless_congr {r r' : Bytes} (hr : Digitless r) (h : r'.head? = r.head?) :
    Digitless r' := by
  intro b hb
  exact hr b (h ▸ hb)

theorem digitless_digits (s : Bytes) : Digitless (digits s).2 := by
  intro b hb
  have hhead := List.head?_dropWhile_not isDigit s
  have hb : (s.dropWhile isDigit).head? = some b := hb
  rw [hb] at hhead
  exact hhead

/-- digits are read up to the first byte that is none -/
theorem causal_digits (k : List Nat → α) : Causal fun s => .ok (k (digits s).1, (digits s).2) where
  passed {s a r} ha := by
    cases ha
    obtain ⟨w, hs, hw⟩ := digits_local s
    refine ⟨w, hs, fun r' hr' => ?_⟩
    rw [hw r' (digitless_congr (digitless_digits s) hr')]
  refused he := nomatch he

theorem reads_wholePart : Reads wholePart := by
  apply Reads.of_cons rfl (by decide)
  intro b
  by_cases h0 : b = Ascii.zero
  · -- zero stands alone: the next byte is refused if it is a digit, and left otherwise
    simp only [wholePart, if_pos h0]
    apply Forward.toCausal
    apply Forward.optional (P := fun c => isDigit c = true) rfl
    · intro c s hc
      exact if_neg hc
    · intro c hc
      simp only [if_pos hc]
      exact Causal.refuse .invalidNumber
  · simp only [wholePart, if_neg h0]
    apply Causal.ite
    · intro _
      exact causal_digits _
    · intro _
      exact Causal.refuse .invalidNumber

def someDigits : Bytes → Except Fault (List Nat × Bytes)
  | [] => .error (Problem.endInValue.before [])
  | b :: s =>
    if isDigit b then .ok (digitValue b :: (digits s).1, (digits s).2)
    else .error (Problem.invalidNumber.before s)

theorem reads_someDigits : Reads someDigits := by
  apply Reads.of_cons rfl (by decide)
  intro b
  apply Causal.ite
  · intro _
    exact causal_digits (digitValue b :: ·)
  · intro _
    exact Causal.refuse .invalidNumber

theorem fractionPart_point_eq (s : Bytes) : fractionPart (Ascii.point :: s) = someDigits s := by
  cases s with
  | nil => rfl
  | cons b s =>
    by_cases hb : isDigit b = true
    · have hdigits : digits (b :: s) = (digitValue b :: (digits s).1, (digits s).2) := by
        simp only [digits, List.takeWhile_cons, List.dropWhile_cons, if_pos hb, List.map_cons]
      rw [fractionPart, if_pos rfl, hdigits, someDigits, if_pos hb]
    · have hdigits : digits (b :: s) = ([], b :: s) := by
        simp only [digits, List.takeWhile_cons, List.dropWhile_cons, if_neg hb, List.map_nil]
      rw [fractionPart, if_pos rfl, hdigits, someDigits, if_neg hb]
      rfl

theorem forward_fractionPart : Forward fractionPart := by
  apply Forward.optional (P := (· = Ascii.point)) rfl
  · intro b s hb
    exact if_neg hb
  · rintro b rfl
    simp only [fractionPart_point_eq]
    exact reads_someDigits.causal

theorem exponentPart_mark_eq {b : UInt8} (hb : b = 0x65 ∨ b = 0x45) (s : Bytes) :
    exponentPart (b :: s) = someDigits (exponentSign s).2 >>= fun x =>
      .ok (some ((exponentSign s).1, x.1), x.2) := by
  rw [exponentPart, if_pos hb]
  rcases exponentSign s with ⟨down, _ | ⟨c, t⟩⟩
  · rfl
  · by_cases hc : isDigit c = true
    · simp only [someDigits, if_pos hc]
      rfl
    · simp only [someDigits, if_neg hc]
      rfl

theorem forward_exponentPart : Forward exponentPart := by
  have hdigits (down : Bool) : Reads fun s => someDigits s >>= fun x =>
      (.ok (some (down, x.1), x.2) : Except Fault (Option (Bool × List Nat) × Bytes)) :=
    reads_someDigits.bind fun ds => Forward.pure (some (down, ds))
  apply Forward.optional (P := fun b => b = 0x65 ∨ b = 0x45) rfl
  · intro b s hb
    exact if_neg hb
  · intro b hb
    simp only [exponentPart_mark_eq hb]
    apply Reads.causal
    apply Reads.of_cons rfl (by decide)
    intro c
    -- where there is no sign, this byte is the first of the digits
    by_cases hplus : c = Ascii.plus
    · simp only [exponentSign, if_pos hplus]
      exact (hdigits false).causal
    by_cases hminus : c = Ascii.minus
    · simp only [exponentSign, if_neg hplus, if_pos hminus]
      exact (hdigits true).causal
    · simp only [exponentSign, if_neg hplus, if_neg hminus]
      exact (hdigits false).cons c

theorem reads_numeral (negative : Bool) : Reads (numeral negative) := by
  apply reads_wholePart.bind
  intro whole
  apply forward_fractionPart.bind
  intro fraction
  apply forward_exponentPart.bind
  intro exponent
  exact Forward.pure _

theorem reads_number (negative : Bool) : Reads (number negative) := by
  apply (reads_numeral negative).bind
  intro x
  cases hx : x.value with
  | ok n =>
    simp only [hx]
    exact Forward.pure n
  | error unread =>
    simp only [hx]
    have hrange : ¬ Problem.numberOutOfRange.IsDecided := by decide
    exact (Reads.undecided fun s => ⟨_, rfl, hrange⟩).toForward

/-! ## scalars and keys -/

theorem causal_word (es : Bytes) {h : Bytes → Except Fault (α × Bytes)} (hh : Causal h) :
    Causal fun s => word es s >>= h := by
  induction es with
  | nil => exact hh
  | cons e es ih =>
    apply Reads.causal
    apply Reads.of_cons rfl (by decide)
    intro b
    by_cases hb : b = e
    · simp only [word, if_pos hb]
      exact ih
    · simp only [word, if_neg hb]
      exact Causal.refuse .expectedWord

theorem causal_scalar (b : UInt8) : Causal (scalar b) := by
  have hword (es : Bytes) (x : Json) : Causal fun s => word es s >>= fun r =>
      (.ok (x, r) : Except Fault (Json × Bytes)) :=
    causal_word es (Causal.pure x)
  apply Causal.ite
  · intro _
    exact causal_string.bind fun _ => Forward.pure _
  intro _
  apply Causal.ite
  · intro _
    exact (reads_number true).causal.bind fun _ => Forward.pure _
  intro _
  apply Causal.ite
  · intro _
    exact ((reads_number false).bind fun n => Forward.pure (Json.number n)).cons b
  intro _
  apply Causal.ite
  · intro _
    exact hword _ _
  intro _
  apply Causal.ite
  · intro _
    exact hword _ _
  intro _
  apply Causal.ite
  · intro _
    exact hword _ _
  intro _
  exact Causal.refuse .expectedValue

theorem reads_key {atEnd : Problem} (he : ¬ atEnd.IsDecided) : Reads (key atEnd) := by
  apply Reads.of_cons rfl he
  intro b
  apply Causal.ite
  · intro _
    apply causal_string.bind
    intro k
    apply Reads.toForward
    apply Reads.of_skip (fun s => by simp only [skip_skip]) rfl (by decide)
    intro c hc
    simp only [hc]
    apply Causal.ite
    · intro _
      exact Causal.pure k
    · intro _
      exact Causal.refuse .expectedColon
  · intro _
    exact Causal.refuse .keyNotString

/-! ## values -/

section
variable {close : UInt8} {atEnd : Problem} {v : Json} {next : Bytes → Except Fault (Json × Bytes)}

/-- behind an opening bracket, where the closing one may follow at once -/
theorem reads_opened (he : ¬ atEnd.IsDecided) (hnext : Reads next) :
    Reads fun s => match skip s with
      | [] => .error (atEnd.behind [])
      | c :: r => if c = close then .ok (v, r) else next (c :: r) := by
  apply Reads.of_skip (fun s => by simp only [skip_skip]) rfl he
  intro c hc
  simp only [hc]
  apply Causal.ite
  · intro _
    exact Causal.pure v
  · intro _
    exact hnext.cons c

/-- what stands behind an element: a closing bracket, or a comma and the next one -/
def separated (close : UInt8) (atEnd wanted : Problem) (v : Json)
    (next : Bytes → Except Fault (Json × Bytes)) (s : Bytes) : Except Fault (Json × Bytes) :=
  match skip s with
  | [] => .error (atEnd.behind [])
  | c :: r =>
    if c = close then .ok (v, r)
    else if c = Ascii.comma then
      match skip r with
      | [] => .error (Problem.endInValue.behind [])
      | d :: r => if d = close then .error (Problem.trailingComma.behind (d :: r)) else next (d :: r)
    else .error (wanted.behind (c :: r))

theorem reads_separated {wanted : Problem} (he : ¬ atEnd.IsDecided) (hnext : Reads next) :
    Reads (separated close atEnd wanted v next) := by
  apply Reads.of_skip (fun s => by simp only [separated, skip_skip]) rfl he
  intro c hc
  simp only [separated, hc]
  apply Causal.ite
  · intro _
    exact Causal.pure v
  intro _
  apply Causal.ite
  · intro _
    apply Reads.causal
    apply Reads.of_skip (fun s => by simp only [skip_skip]) rfl (by decide)
    intro d hd
    simp only [hd]
    apply Causal.ite
    · intro _
      exact Causal.refuse .trailingComma
    · intro _
      exact hnext.cons d
  · intro _
    exact Causal.refuse wanted

theorem length_lt_of_skip {s t : Bytes} {b : UInt8} (h : skip s = b :: t) :
    t.length < s.length := by
  obtain ⟨a, _, rfl⟩ := exists_leads h
  rw [List.length_append, List.length_cons]
  omega

/-- the next element is shorter than what stands behind the last one -/
theorem separated_congr {wanted : Problem} {next' : Bytes → Except Fault (Json × Bytes)} {s : Bytes}
    (h : ∀ t : Bytes, t.length < s.length → next t = next' t) :
    separated close atEnd wanted v next s = separated close atEnd wanted v next' s := by
  rw [separated, separated]
  cases hs : skip s with
  | nil => rfl
  | cons c r =>
    have hr := length_lt_of_skip hs
    dsimp only
    cases hu : skip r with
    | nil => rfl
    | cons d u =>
      have hu := length_lt_of_skip hu
      dsimp only
      rw [h (d :: u) (by rw [List.length_cons]; omega)]

end

theorem items_succ (fuel : Nat) (read : List Json) (s : Bytes) :
    items (fuel + 1) read s = value fuel s >>= fun x =>
      separated Ascii.closeBracket .endInArray .expectedArrayEnd (.array (x.1 :: read).reverse)
        (items fuel (x.1 :: read)) x.2 := by
  rw [items]
  rfl

theorem fields_succ (fuel : Nat) (read : List (String × Json)) (atEnd : Problem) (s : Bytes) :
    fields (fuel + 1) read atEnd s = key atEnd s >>= fun k => value fuel k.2 >>= fun x =>
      separated Ascii.closeBrace .endInObject .expectedObjectEnd
        (.object (insertField k.1 x.1 read)) (fields fuel (insertField k.1 x.1 read) .endInValue)
        x.2 := by
  rw [fields]
  rfl

theorem reads_items {fuel : Nat} {read : List Json} (hv : Reads (value fuel))
    (hi : ∀ read, Reads (items fuel read)) : Reads (items (fuel + 1) read) := by
  have hend : ¬ Problem.endInArray.IsDecided := by decide
  rw [funext (items_succ fuel read)]
  apply hv.bind
  intro x
  dsimp only
  exact (reads_separated hend (hi (x :: read))).toForward

theorem reads_fields {fuel : Nat} {read : List (String × Json)} {atEnd : Problem}
    (he : ¬ atEnd.IsDecided) (hv : Reads (value fuel))
    (hf : ∀ read, Reads (fields fuel read .endInValue)) :
    Reads (fields (fuel + 1) read atEnd) := by
  have hend : ¬ Problem.endInObject.IsDecided := by decide
  rw [funext (fields_succ fuel read atEnd)]
  apply (reads_key he).bind
  intro k
  dsimp only
  apply Reads.toForward
  apply hv.bind
  intro x
  dsimp only
  exact (reads_separated hend (hf (insertField k x read))).toForward

theorem reads_value {fuel : Nat} (hi : ∀ read, Reads (items fuel read))
    (hf : ∀ read, Reads (fields fuel read .endInObject)) : Reads (value (fuel + 1)) := by
  apply Reads.of_skip (value_skip fuel) rfl (by decide)
  intro b hb
  simp only [value, hb]
  apply Causal.ite
  · intro _
    exact (reads_opened (by decide) (hi [])).causal
  intro _
  apply Causal.ite
  · intro _
    exact (reads_opened (by decide) (hf [])).causal
  · intro _
    exact causal_scalar b

theorem reads_all (fuel : Nat) :
    Reads (value fuel) ∧ (∀ read, Reads (items fuel read)) ∧
      ∀ read {atEnd}, ¬ atEnd.IsDecided → Reads (fields fuel read atEnd) := by
  induction fuel with
  | zero =>
    have hend : ¬ Problem.endInValue.IsDecided := by decide
    refine ⟨?_, fun read => ?_, fun read atEnd _ => ?_⟩
    · exact Reads.undecided fun s => ⟨Problem.endInValue.behind s, by rw [value], hend⟩
    · exact Reads.undecided fun s => ⟨Problem.endInValue.behind s, by rw [items], hend⟩
    · exact Reads.undecided fun s => ⟨Problem.endInValue.behind s, by rw [fields], hend⟩
  | succ fuel ih =>
    obtain ⟨hv, hi, hf⟩ := ih
    refine ⟨?_, fun read => ?_, fun read atEnd he => ?_⟩
    · exact reads_value hi fun read => hf read (by decide)
    · exact reads_items hv hi
    · exact reads_fields he hv fun read => hf read (by decide)

end TagTree.Json.Reader
