import TagTree.Binary64

/-!
# Json values

A number is an unsigned or a negative 64-bit integer or a finite double; the ranges are part of
the type.  An object keeps its fields in the order in which they are written: trees that were
read have their keys sorted (`insertField`), documents of nodes keep the order of declaration.
-/

namespace TagTree

inductive Number where
  | natural (n : Nat) (lt : n < 0x10000000000000000)
  /-- the number `-n` -/
  | negative (n : Nat) (pos : 0 < n) (le : n ≤ 0x8000000000000000)
  | double (x : Binary64) (finite : x.isFinite = true)
deriving DecidableEq

/-- integers are rounded to the nearest double, a half to the even one -/
def Number.toDouble : Number → Binary64
  | .natural n _ => Binary64.ofNat n
  | .negative n _ _ => (Binary64.ofNat n).neg
  | .double x _ => x

inductive Json where
  | null
  | bool (b : Bool)
  | number (n : Number)
  | string (s : String)
  | array (items : List Json)
  | object (fields : List (String × Json))

namespace Json

/-- the type of a value, as messages name it -/
def typeName : Json → String
  | .null => "null"
  | .bool _ => "a boolean"
  | .number _ => "a number"
  | .string _ => "a string"
  | .array _ => "an array"
  | .object _ => "an object"

def isNull : Json → Bool
  | .null => true
  | _ => false

/-- sets a field of a list sorted by key; a later value replaces an earlier one -/
def insertField (key : String) (value : Json) : List (String × Json) → List (String × Json)
  | [] => [(key, value)]
  | (k, v) :: rest =>
    if key < k then (key, value) :: (k, v) :: rest
    else if key = k then (key, value) :: rest
    else (k, v) :: insertField key value rest

mutual

/-- the number of arrays and objects around the deepest value, itself included -/
def depth : Json → Nat
  | .array items => depthList items + 1
  | .object fields => depthFields fields + 1
  | _ => 1

def depthList : List Json → Nat
  | [] => 0
  | x :: xs => max x.depth (depthList xs)

def depthFields : List (String × Json) → Nat
  | [] => 0
  | (_, x) :: xs => max x.depth (depthFields xs)

end

theorem depth_pos (j : Json) : 0 < j.depth := by
  cases j <;> simp [depth]

theorem depth_le_of_mem {x : Json} {xs : List Json} (h : x ∈ xs) : x.depth ≤ depthList xs := by
  induction xs with
  | nil => cases h
  | cons y ys ih =>
    rw [depthList]
    cases h with
    | head => exact Nat.le_max_left _ _
    | tail _ h => exact Nat.le_trans (ih h) (Nat.le_max_right _ _)

theorem depth_lt_of_mem {x : Json} {xs : List Json} (h : x ∈ xs) :
    x.depth < (Json.array xs).depth := by
  rw [depth]
  exact Nat.lt_succ_of_le (depth_le_of_mem h)

end Json
end TagTree
