import TagTree.Json.Basic

/-!
# Why a tree is refused

A refusal names the construct that is at fault and holds the array (or other value) in which the
fault lies.
-/

namespace TagTree

/-- what a slot is read as -/
inductive Wanted where
  | node
  | array
  | number
  | string
deriving DecidableEq

/-- a flaw in the shape of a value; `found` is the type that stands there, if anything does -/
inductive Flaw where
  | notTagged (found : String)
  | tagNotString
  | notArray (found : String)
  | missing (slot : Nat) (wanted : Wanted)
  | wrongType (slot : Nat) (wanted : Wanted) (found : String)
  | parameter (index : Nat) (found : String)
  | assignmentOperator (found : Option String)
  | propertyKey (found : Option String)
  | accessor (found : String)
deriving DecidableEq

def Wanted.missingName : Wanted → String
  | .node => "child node"
  | .array => "array"
  | .number => "number"
  | .string => "string"

def Wanted.typeName : Wanted → String
  | .node => "an array"
  | .array => "an array"
  | .number => "a number"
  | .string => "a string"

def Flaw.message : Flaw → String
  | .notTagged found => s!"expected a tagged array, found {found}"
  | .tagNotString => "slot 0 must be a tag string"
  | .notArray found => s!"expected an array, found {found}"
  | .missing slot wanted => s!"slot {slot} ({wanted.missingName}) is missing"
  | .wrongType slot wanted found => s!"slot {slot} must be {wanted.typeName}, found {found}"
  | .parameter index found => s!"parameter {index} must be a string, found {found}"
  | .assignmentOperator found =>
    "slot 1 must be `true` or an operator string, found " ++ found.getD "nothing"
  | .propertyKey found => "slot 0 must be a property key, found " ++ found.getD "nothing"
  | .accessor found => "slot 2 must be \"get\" or \"set\", found \"" ++ found ++ "\""

inductive Refusal where
  /-- the array starts with a text that is no tag -/
  | unknown (tag : String) (raw : Json)
  | malformed (construct : String) (flaw : Flaw) (raw : Json)

end TagTree
