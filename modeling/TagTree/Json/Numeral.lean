import TagTree.Json.Basic

/-!
# The value of a written number

A numeral is its digits as they stand in the text.  An integer that fits stays an integer.  All
else is a double: as many leading digits as fit into 64 bits are gathered, rounded, and multiplied
or divided by a rounded power of ten, so the result may miss the nearest double by a few steps.
-/

namespace TagTree.Json

structure Numeral where
  negative : Bool
  whole : List Nat
  /-- digits after the point; none without a point -/
  fraction : List Nat
  /-- the sign (true is minus) and the digits of the exponent -/
  exponent : Option (Bool × List Nat)

/-- appends decimal digits to a number up to a limit: the number reached, and how many digits are
left from the first that would pass the limit -/
def gather (limit : Nat) : Nat → List Nat → Nat × Nat
  | n, [] => (n, 0)
  | n, d :: ds => if limit < n * 10 + d then (n, ds.length + 1) else gather limit (n * 10 + d) ds

def maxSignificand : Nat := 0xFFFFFFFFFFFFFFFF
def maxExponent : Nat := 0x7FFFFFFF

/-- division by `10^m` in steps of at most `10^308` -/
def shrink (f : Binary64) (m : Nat) : Binary64 :=
  if m ≤ 308 then f.div (Binary64.tenPow m)
  else if f.isZero then f
  else shrink (f.div (Binary64.tenPow 308)) (m - 308)
termination_by m

/-- `f * 10^e`, if that is finite -/
def scale (f : Binary64) (e : Int) : Option Binary64 :=
  if e < 0 then some (shrink f e.natAbs)
  else if e ≤ 308 then some (f.mul (Binary64.tenPow e.natAbs))
  else if f.isZero then some f
  else none

/-- a double with a sign, refused if it is not finite; the refusal says that no digit is unread -/
def signed (negative : Bool) (x : Binary64) : Except Nat Number :=
  let y := if negative then x.neg else x
  if h : y.isFinite = true then .ok (.double y h) else .error 0

/-- an integer, or a double where no 64-bit integer type holds it -/
def integer (negative : Bool) (n : Nat) : Except Nat Number :=
  if negative then
    if h : 0 < n ∧ n ≤ 0x8000000000000000 then .ok (.negative n h.1 h.2)
    else signed true (Binary64.ofNat n)
  else if h : n < 0x10000000000000000 then .ok (.natural n h)
  else signed false (Binary64.ofNat n)

/-- `n * 10^e` -/
def scaled (negative : Bool) (n : Nat) (e : Int) : Except Nat Number :=
  match scale (Binary64.ofNat n) e with
  | some x => signed negative x
  | none => .error 0

/-- the value of a numeral; a number out of range is refused with the count of exponent digits
that are unread at that point -/
def Numeral.value (x : Numeral) : Except Nat Number :=
  let (n, dropped) := gather maxSignificand 0 x.whole
  let (m, skipped) := gather maxSignificand n x.fraction
  let e : Int := dropped - (x.fraction.length - skipped : Nat)
  match x.exponent with
  | some (down, ds) =>
    let (k, unread) := gather maxExponent 0 ds
    if unread = 0 then scaled x.negative m (if down then e - k else e + k)
    else if m ≠ 0 ∧ !down then .error (unread - 1)
    else signed x.negative (Binary64.ofNat 0)
  | none =>
    if x.fraction.isEmpty ∧ dropped = 0 then integer x.negative n
    else scaled x.negative m e

end TagTree.Json
