import TagTree.Decode.Traced
import TagTree.Decode.Refusal

/-!
# Slots of an array

An array is read by position.  A slot that is missing and a slot that holds `null` are both
absent; slots that nobody asks for are ignored.  Readers of child nodes take the decoder of
children as an argument, so that nothing here is recursive.
-/

namespace TagTree

structure Slots where
  /-- the name of the construct in refusals -/
  construct : String
  items : List Json

namespace Slots
variable {α β : Type}

def refuse (s : Slots) (flaw : Flaw) : Traced Refusal α :=
  .fail (.malformed s.construct flaw (.array s.items))

/-- the slots of an array without tag -/
def positional (construct : String) (t : Json) : Traced Refusal Slots :=
  match t with
  | .array items => pure ⟨construct, items⟩
  | t => .fail (.malformed construct (.notArray t.typeName) t)

/-- the value of a slot that is not absent -/
def present? (s : Slots) (i : Nat) : Option Json := s.items[i]?.filter (!·.isNull)

def required (s : Slots) (i : Nat) (wanted : Wanted) : Traced Refusal Json :=
  match s.present? i with
  | some t => pure t
  | none => s.refuse (.missing i wanted)

/-! ## texts and numbers -/

def string? (s : Slots) (i : Nat) : Traced Refusal (Option String) :=
  match s.present? i with
  | none => pure none
  | some (.string x) => pure (some x)
  | some t => s.refuse (.wrongType i .string t.typeName)

def string (s : Slots) (i : Nat) : Traced Refusal String := do
  match ← s.string? i with
  | some x => pure x
  | none => s.refuse (.missing i .string)

def number (s : Slots) (i : Nat) : Traced Refusal Binary64 := do
  match ← s.required i .number with
  | .number n => pure n.toDouble
  | t => s.refuse (.wrongType i .number t.typeName)

/-! ## arrays and children -/

def array (s : Slots) (i : Nat) : Traced Refusal (List Json) := do
  match ← s.required i .array with
  | .array items => pure items
  | t => s.refuse (.wrongType i .array t.typeName)

def each (s : Slots) (i : Nat) (decode : Json → Traced Refusal β) : Traced Refusal (List β) := do
  let items ← s.array i
  Traced.each decode items

/-- every element of an array that may be absent, decoded -/
def each? (s : Slots) (i : Nat) (decode : Json → Traced Refusal β) :
    Traced Refusal (Option (List β)) :=
  match s.present? i with
  | none => pure none
  | some _ => do
    let xs ← s.each i decode
    pure (some xs)

def rest (s : Slots) (i : Nat) (decode : Json → Traced Refusal β) : Traced Refusal (List β) :=
  Traced.each decode (s.items.drop i)

def child (s : Slots) (i : Nat) (decode : Json → Traced Refusal α) : Traced Refusal α := do
  let t ← s.required i .node
  decode t

def child? (s : Slots) (i : Nat) (decode : Json → Traced Refusal α) : Traced Refusal (Option α) :=
  Traced.optional decode (s.present? i)

end Slots
end TagTree
