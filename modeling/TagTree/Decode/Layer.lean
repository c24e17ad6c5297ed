import TagTree.Decode.Slots
import TagTree.Json.Token
import TagTree.Construct

/-!
# One layer of a tagged tree

The layout of every construct, slot by slot.  A tagged array starts with its tag; bindings,
properties, cases and handlers are arrays known by their place.  Slots are read in a fixed order,
and the first flaw decides.
-/

namespace TagTree.Decode
variable {α : Type}

/-! ## parts -/

/-- the names of parameters, the first of which has the given index -/
def params (s : Slots) : Nat → List Json → Traced Refusal (List String)
  | _, [] => pure []
  | i, .string x :: ts => do
    let xs ← params s (i + 1) ts
    pure (x :: xs)
  | i, t :: _ => s.refuse (.parameter i t.typeName)

/-- `true` is plain assignment; a text is an operator that is applied first -/
def assignmentOperator (s : Slots) : Traced Refusal String :=
  match s.present? 1 with
  | some (.bool true) => pure "="
  | some (.string op) => pure (op ++ "=")
  | found => s.refuse (.assignmentOperator (found.map Json.typeName))

/-- a text, or a number as it is written -/
def propertyKey (s : Slots) : Traced Refusal String :=
  match s.present? 0 with
  | some (.string key) => pure key
  | some (.number n) => pure n.text
  | found => s.refuse (.propertyKey (found.map Json.typeName))

def accessor (s : Slots) : Traced Refusal (Option Accessor) := do
  match ← s.string? 2 with
  | none => pure none
  | some x =>
    if x = "get" then pure (some .get)
    else if x = "set" then pure (some .set)
    else s.refuse (.accessor x)

section
variable (decode : Json → Traced Refusal α)

/-- `[name, init?]` -/
def binding (t : Json) : Traced Refusal (Binding α) := do
  let s ← Slots.positional "binding" t
  let name ← s.string 0
  let init ← s.child? 1 decode
  pure ⟨name, init⟩

/-- `[key, value, accessor?]`; the accessor is read before the value -/
def property (t : Json) : Traced Refusal (Property α) := do
  let s ← Slots.positional "property" t
  let key ← propertyKey s
  let accessor ← accessor s
  let value ← s.child 1 decode
  pure ⟨key, value, accessor⟩

/-- `[test?, body]` -/
def switchCase (t : Json) : Traced Refusal (Case α) := do
  let s ← Slots.positional "case" t
  let test ← s.child? 0 decode
  let body ← s.each 1 decode
  pure ⟨test, body⟩

/-- `[param, body]` -/
def handler (t : Json) : Traced Refusal (Handler α) := do
  let s ← Slots.positional "exception handler" t
  let param ← s.string 0
  let body ← s.each 1 decode
  pure ⟨param, body⟩

/-- `[tag, name?, params, body]`; the parameters are read before the name -/
def function (form : FunctionForm) (s : Slots) : Traced Refusal (Construct α) := do
  let ts ← s.array 2
  let params ← params s 0 ts
  let name ← s.string? 1
  let body ← s.each 3 decode
  pure (.function form name params body)

/-! ## constructs -/

def construct (tag : Tag) (s : Slots) : Traced Refusal (Construct α) :=
  match tag with
  | .toplevel => do
    let body ← s.each 1 decode
    pure (.program body)
  | .defun => function decode .declaration s
  | .function => function decode .expression s
  | .returns => do
    let value ← s.child? 1 decode
    pure (.returns value)
  | .vars => do
    let bindings ← s.each 1 (binding decode)
    pure (.vars bindings)
  | .stat => do
    let e ← s.child 1 decode
    pure (.statement e)
  | .num => do
    let x ← s.number 1
    pure (.literal (.number x))
  | .string => do
    let x ← s.string 1
    pure (.literal (.string x))
  | .name => do
    let name ← s.string 1
    pure (.identifier name)
  | .binary => do
    let op ← s.string 1
    let l ← s.child 2 decode
    let r ← s.child 3 decode
    pure (.binary op l r)
  | .array => do
    let elements ← s.each 1 decode
    pure (.array elements)
  | .call => do
    let callee ← s.child 1 decode
    let args ← s.each 2 decode
    pure (.call callee args)
  | .regexp => do
    let pattern ← s.string 1
    let flags ← s.string? 2
    pure (.regex pattern (flags.getD ""))
  | .object => do
    let properties ← s.each 1 (property decode)
    pure (.object properties)
  | .block => do
    let body ← s.each? 1 decode
    pure (.block (body.getD []))
  | .ifElse => do
    let c ← s.child 1 decode
    let t ← s.child 2 decode
    let e ← s.child? 3 decode
    pure (.ifElse c t e)
  | .assign => do
    let op ← assignmentOperator s
    let t ← s.child 2 decode
    let v ← s.child 3 decode
    pure (.assignment op t v)
  | .unaryPrefix => do
    let op ← s.string 1
    let x ← s.child 2 decode
    pure (.unaryPrefix op x)
  | .unaryPostfix => do
    let op ← s.string 1
    let x ← s.child 2 decode
    pure (.unaryPostfix op x)
  | .new => do
    let c ← s.child 1 decode
    let args ← s.each? 2 decode
    pure (.new c (args.getD []))
  | .dot => do
    let o ← s.child 1 decode
    let name ← s.string 2
    pure (.member o name)
  | .sub => do
    let o ← s.child 1 decode
    let i ← s.child 2 decode
    pure (.index o i)
  | .tryCatch => do
    let body ← s.each 1 decode
    let h ← s.child? 2 (handler decode)
    let fin ← s.each? 3 decode
    pure (.tryCatch body h fin)
  | .throws => do
    let v ← s.child 1 decode
    pure (.throws v)
  | .whileLoop => do
    let c ← s.child 1 decode
    let b ← s.child 2 decode
    pure (.whileLoop c b)
  | .doWhile => do
    let c ← s.child 1 decode
    let b ← s.child 2 decode
    pure (.doWhile c b)
  | .switch => do
    let d ← s.child 1 decode
    let cases ← s.each 2 (switchCase decode)
    pure (.switch d cases)
  | .forLoop => do
    let i ← s.child? 1 decode
    let c ← s.child? 2 decode
    let u ← s.child? 3 decode
    let b ← s.child 4 decode
    pure (.forLoop i c u b)
  | .forIn => do
    let i ← s.child 1 decode
    let l ← s.child 2 decode
    let o ← s.child 3 decode
    let b ← s.child 4 decode
    pure (.forIn i l o b)
  | .seq => do
    let es ← s.rest 1 decode
    pure (.sequence es)
  | .conditional => do
    let c ← s.child 1 decode
    let t ← s.child 2 decode
    let e ← s.child 3 decode
    pure (.ternary c t e)
  | .breaks => do
    let label ← s.string? 1
    pure (.breaks label)
  | .continues => do
    let label ← s.string? 1
    pure (.continues label)
  | .label => do
    let label ← s.string 1
    let b ← s.child 2 decode
    pure (.labeled label b)

/-- the tag of a tagged array and its slots, tag included -/
def tagged (t : Json) : Traced Refusal (Tag × Slots) :=
  match t with
  | .array items =>
    match items with
    | .string raw :: _ =>
      match Tag.ofSpelling? raw with
      | some tag => pure (tag, ⟨tag.spelling, items⟩)
      | none => .fail (.unknown raw t)
    | _ => .fail (.malformed "tagged tree" .tagNotString t)
  | _ => .fail (.malformed "tagged tree" (.notTagged t.typeName) t)

/-- one layer of a tagged tree; the tag is noted before its slots are read -/
def layer (t : Json) : Traced Refusal (Construct α) := do
  let (tag, s) ← tagged t
  Traced.note ⟨tag, tag.kind⟩
  construct decode tag s

end
end TagTree.Decode
