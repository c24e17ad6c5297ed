/-!
# Binary64: double-precision numbers with exact rounding

A double is a sign and a magnitude field (exponent and fraction read as one number).  Every
finite double is a whole number of UNITS of `2^-1074`, so products and quotients are compared
as natural numbers and rounded once.

* `round_magnitude`   the field of a rounded quotient is `shift * hiddenBit + nearest`, also when the
                      nearest integer carries into the next exponent;
* `agrees_iff`        on finite numbers, `agrees` is equality up to the sign of zero.
-/

namespace TagTree

structure Binary64 where
  negative : Bool
  /-- exponent and fraction fields as one number; it grows with the absolute value -/
  magnitude : Nat
  magnitude_lt : magnitude < 0x8000000000000000
deriving DecidableEq

namespace Binary64

/-- units of `2^-1074` in one -/
def unitsPerOne : Nat := 1 <<< 1074

/-- the bit `2^52` above the fraction: the lowest of the exponent, and the leading one of a normal
significand -/
def hiddenBit : Nat := 0x10000000000000

/-- the magnitude field of infinity; finite numbers lie below it and NaNs above -/
def infinityField : Nat := 0x7FF0000000000000

def isFinite (x : Binary64) : Bool := x.magnitude < infinityField
def isNaN (x : Binary64) : Bool := infinityField < x.magnitude
def isZero (x : Binary64) : Bool := x.magnitude == 0

/-- the absolute value belonging to a magnitude field, in units of `2^-1074` -/
def unitsOf (magnitude : Nat) : Nat :=
  if magnitude < hiddenBit then magnitude
  else (hiddenBit + magnitude % hiddenBit) <<< (magnitude / hiddenBit - 1)

def units (x : Binary64) : Nat := unitsOf x.magnitude

/-- the number with this field; fields past infinity become infinity -/
def ofField (negative : Bool) (field : Nat) : Binary64 where
  negative := negative
  magnitude := min field infinityField
  magnitude_lt := by unfold infinityField; omega

def neg (x : Binary64) : Binary64 := { x with negative := !x.negative }

/-- equality of numbers: NaN equals nothing, and the two zeros are equal -/
def agrees (x y : Binary64) : Bool :=
  !x.isNaN && !y.isNaN && (x == y || (x.isZero && y.isZero))

/-! ## rounding -/

/-- `n / d` to the nearest integer, a half to the even neighbour -/
def divNearest (n d : Nat) : Nat :=
  let q := n / d
  let r := n % d
  if 2 * r < d then q else if d < 2 * r then q + 1 else q + q % 2

/-- how many low bits do not fit into a 53-bit significand -/
def excess (n : Nat) : Nat := n.log2 - 52

/-- the double nearest to `n / d` units, a half to the even neighbour -/
def round (negative : Bool) (n d : Nat) : Binary64 :=
  let shift := excess (n / d)
  ofField negative (shift * hiddenBit + divNearest n (d <<< shift))

def ofNat (n : Nat) : Binary64 := round false (n * unitsPerOne) 1

def mul (x y : Binary64) : Binary64 :=
  round (x.negative != y.negative) (x.units * y.units) unitsPerOne

def div (x y : Binary64) : Binary64 :=
  round (x.negative != y.negative) (x.units * unitsPerOne) y.units

/-- the double nearest to `10^k` -/
def tenPow (k : Nat) : Binary64 := ofNat (Nat.pow 10 k)

/-! ## facts -/

/-- zero is a magnitude: the sign bit, the least number that is none, is positive -/
theorem signBit_pos : 0 < 0x8000000000000000 := by decide

theorem ext {x y : Binary64} (hn : x.negative = y.negative) (hm : x.magnitude = y.magnitude) :
    x = y := by
  cases x; cases y; cases hn; cases hm; rfl

theorem round_magnitude (b : Bool) (n d : Nat) :
    (round b n d).magnitude =
      min (excess (n / d) * hiddenBit + divNearest n (d <<< excess (n / d))) infinityField := rfl

theorem isNaN_of_isFinite {x : Binary64} (h : x.isFinite = true) : x.isNaN = false := by
  simp only [isFinite, isNaN, decide_eq_true_eq, decide_eq_false_iff_not] at *
  omega

theorem agrees_iff {x y : Binary64} (hx : x.isFinite = true) (hy : y.isFinite = true) :
    x.agrees y = true ↔ x = y ∨ (x.isZero = true ∧ y.isZero = true) := by
  simp [agrees, isNaN_of_isFinite hx, isNaN_of_isFinite hy]

theorem divNearest_le (n d : Nat) : divNearest n d ≤ n / d + 1 := by
  simp only [divNearest]
  split
  · omega
  · split <;> omega

end Binary64
end TagTree
