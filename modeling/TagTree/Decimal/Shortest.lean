import TagTree.Binary64

/-!
# The fewest decimal digits that read back

A double stands for every real number that rounds to it: those between the midpoints to its
two neighbours (`Reach`).  On the grid of `n`-digit decimals only the two neighbours of the value
can be the nearest, so the search tries `n = 1, 2, …` and takes the first grid with a hit.
Membership is a comparison of natural numbers, no real is formed.
-/

namespace TagTree

/-- the number `digits * 10^exponent` -/
structure Decimal where
  digits : Nat
  exponent : Int
deriving DecidableEq, Repr

namespace Decimal

/-- which neighbour is taken when a value lies halfway between two candidates -/
inductive Tie where
  | toEven
  | up
deriving DecidableEq

/-- twice the ends of the interval that rounds to one double, in units of `2^-1074` -/
structure Reach where
  low : Nat
  high : Nat
  /-- the ends belong to the interval -/
  closed : Bool

/-- the ends are the midpoints to both neighbours; they round here iff the field is even -/
def reach (magnitude : Nat) : Reach where
  low := Binary64.unitsOf magnitude + Binary64.unitsOf (magnitude - 1)
  high := Binary64.unitsOf magnitude + Binary64.unitsOf (magnitude + 1)
  closed := magnitude % 2 == 0

/-- `d * b / a` units lie in the interval -/
def Reach.holds (r : Reach) (a b d : Nat) : Bool :=
  if r.closed then r.low * a ≤ 2 * d * b && 2 * d * b ≤ r.high * a
  else r.low * a < 2 * d * b && 2 * d * b < r.high * a

/-- of two neighbours `d` and `d + 1` of a value, the nearer; `twice` is twice the distance to
`d` and `step` the distance between them -/
def nearer (tie : Tie) (twice step d : Nat) : Nat :=
  if twice < step then d
  else if step < twice then d + 1
  else match tie with
    | .up => d + 1
    | .toEven => d + d % 2

/-- a point of the grid `10^k` that reads back, if there is one -/
def onGrid? (tie : Tie) (magnitude : Nat) (k : Int) : Option Nat :=
  let u := Binary64.unitsOf magnitude
  let r := reach magnitude
  let a := Nat.pow 10 (-k).toNat
  let b := Binary64.unitsPerOne * Nat.pow 10 k.toNat
  let d := u * a / b
  match r.holds a b d, r.holds a b (d + 1) with
  | true, true => some (nearer tie (2 * (u * a - d * b)) b d)
  | true, false => some d
  | false, true => some (d + 1)
  | false, false => none

def countDigits (n : Nat) : Nat := if n = 0 then 0 else (Nat.toDigits 10 n).length

/-- the exponent of the leading decimal digit of `u` units, `u` not zero -/
def leading (u : Nat) : Int :=
  if Binary64.unitsPerOne ≤ u then (countDigits (u / Binary64.unitsPerOne) : Int) - 1
  else -(countDigits ((Binary64.unitsPerOne - 1) / u) : Int)

def strip (d : Nat) (e : Int) : Decimal :=
  if d ≠ 0 ∧ d % 10 = 0 then strip (d / 10) (e + 1) else ⟨d, e⟩
termination_by d

/-- the shortest decimal that rounds to the magnitude, and of those the nearest -/
def shortest (tie : Tie) (magnitude : Nat) : Decimal :=
  if magnitude = 0 then ⟨0, 0⟩
  else
    let e := leading (Binary64.unitsOf magnitude)
    let grids := (List.range 17).map fun (n : Nat) => e - n
    match grids.findSome? fun k => (onGrid? tie magnitude k).map (strip · k) with
    | some d => d
    | none => ⟨0, 0⟩

end Decimal
end TagTree
