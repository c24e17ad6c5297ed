import TagTree.Decimal.Shortest

/-!
# Writing a double

A `Layout` fixes what the digits leave open: which exponents are written out, whether a whole
number gets a fraction, and the tie rule of the digit search.  The sign of zero is kept.

* `mem_positional`, `mem_scientific`   the characters of a number without its sign;
* `Layout.toList_text`                 a finite double is its sign and such a number.
-/

namespace TagTree.Decimal

structure Layout where
  tie : Tie
  /-- the leading exponents that are written without an exponent part -/
  plain : Int → Bool
  /-- a whole number written plainly ends in `.0` -/
  pointed : Bool

/-- digits with the point at its place and zeros filled in -/
def positional (pointed : Bool) (d : Decimal) : List Char :=
  let ds := Nat.toDigits 10 d.digits
  let whole : Int := ds.length + d.exponent
  if 0 ≤ d.exponent then
    ds ++ List.replicate d.exponent.toNat '0' ++ (if pointed then ['.', '0'] else [])
  else if 0 < whole then
    ds.take whole.toNat ++ '.' :: ds.drop whole.toNat
  else
    '0' :: '.' :: (List.replicate (-whole).toNat '0' ++ ds)

/-- one digit before the point, then the exponent with its sign -/
def scientific (d : Decimal) : List Char :=
  let ds := Nat.toDigits 10 d.digits
  let e : Int := ds.length + d.exponent - 1
  let fraction := if ds.length ≤ 1 then [] else '.' :: ds.drop 1
  ds.take 1 ++ fraction ++ 'e' :: (if e < 0 then '-' else '+') :: Nat.toDigits 10 e.natAbs

def Layout.finite (l : Layout) (magnitude : Nat) : List Char :=
  let d := shortest l.tie magnitude
  let e : Int := (Nat.toDigits 10 d.digits).length + d.exponent - 1
  if l.plain e then positional l.pointed d else scientific d

def Layout.text (l : Layout) (x : Binary64) : String :=
  if x.isNaN then "NaN"
  else
    let sign := if x.negative then ['-'] else []
    String.ofList (sign ++ if x.isFinite then l.finite x.magnitude else ['i', 'n', 'f'])

/-- every digit is written out and whole numbers carry no point -/
def full : Layout := ⟨.up, fun _ => true, false⟩

/-! ## characters -/

theorem isDigit_of_mem_zeros {n : Nat} {c : Char} (h : c ∈ List.replicate n '0') :
    c.isDigit = true := by
  rw [List.eq_of_mem_replicate h]
  decide

theorem isDigit_of_mem_digits {n : Nat} {c : Char} (h : c ∈ Nat.toDigits 10 n) : c.isDigit = true :=
  Nat.isDigit_of_mem_toDigits (by decide) (by decide) h

theorem mem_positional {pointed : Bool} {d : Decimal} {c : Char} (h : c ∈ positional pointed d) :
    c.isDigit = true ∨ c = '.' := by
  unfold positional at h
  dsimp only at h
  split at h
  · rcases List.mem_append.1 h with h | h
    · rcases List.mem_append.1 h with h | h
      · exact .inl (isDigit_of_mem_digits h)
      · exact .inl (isDigit_of_mem_zeros h)
    · cases pointed with
      | true =>
        have h : c = '.' ∨ c = '0' := by simpa using h
        rcases h with rfl | rfl
        · exact .inr rfl
        · exact .inl (by decide)
      | false => cases h
  · split at h
    · rw [List.mem_append, List.mem_cons] at h
      rcases h with h | h | h
      · exact .inl (isDigit_of_mem_digits (List.mem_of_mem_take h))
      · exact .inr h
      · exact .inl (isDigit_of_mem_digits (List.mem_of_mem_drop h))
    · rw [List.mem_cons, List.mem_cons, List.mem_append] at h
      rcases h with rfl | h | h | h
      · exact .inl (by decide)
      · exact .inr h
      · exact .inl (isDigit_of_mem_zeros h)
      · exact .inl (isDigit_of_mem_digits h)

theorem mem_scientific {d : Decimal} {c : Char} (h : c ∈ scientific d) :
    c.isDigit = true ∨ c ∈ ['.', 'e', '+', '-'] := by
  unfold scientific at h
  dsimp only at h
  rw [List.mem_append, List.mem_append, List.mem_cons, List.mem_cons] at h
  rcases h with (h | h) | rfl | h | h
  · exact .inl (isDigit_of_mem_digits (List.mem_of_mem_take h))
  · split at h
    · cases h
    · rcases List.mem_cons.1 h with rfl | h
      · exact .inr (by decide)
      · exact .inl (isDigit_of_mem_digits (List.mem_of_mem_drop h))
  · exact .inr (by decide)
  · split at h
    · exact .inr (by simp [h])
    · exact .inr (by simp [h])
  · exact .inl (isDigit_of_mem_digits h)

theorem point_mem_positional (d : Decimal) : '.' ∈ positional true d := by
  unfold positional
  dsimp only
  split
  · simp
  · split <;> simp

theorem e_mem_scientific (d : Decimal) : 'e' ∈ scientific d := by
  simp [scientific]

theorem Layout.toList_text (l : Layout) {x : Binary64} (hx : x.isFinite = true) :
    (l.text x).toList = (if x.negative then ['-'] else []) ++ l.finite x.magnitude := by
  rw [text, Binary64.isNaN_of_isFinite hx, hx]
  exact String.toList_ofList

end TagTree.Decimal
