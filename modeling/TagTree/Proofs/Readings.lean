import Mathlib.Data.List.Basic
import TagTree.Proofs.NodeArrays

/-!
# How the slots of an array are read

The slots of an array are read one after the other, and no reading depends on what the readings
before it gave.  So a decoder runs the readings of a table, and its refusal is the first refusal
among them: a reading has a flaw of its own, or it passes on the refusal of what stands in its slot.

* `ItemForm.decode`                     the decoder of each form of item;
* `Tag.readings`, `ItemForm.readings`   the readings of an array, in their order;
* `Reading.run`                         readings one after the other;
* `construct_eq_run`                    a construct is decoded by the readings of its tag;
* `Reading.flaw?`                       what is wrong with a slot, the inside of nodes apart;
* `Reading.refusal?_run`                the first refusal of the readings decides;
* `ItemForm.refusal?_decode_of_fit`     so it does for a value of any form, once it is an array of
                                        the form at all.
-/

namespace TagTree
open Layout

/-! ## refusals of computations -/

namespace Traced
variable {ε α β : Type}

def refusal? (x : Traced ε α) : Option ε :=
  match x.result with
  | .ok _ => none
  | .error e => some e

theorem refusal?_eq_some {x : Traced ε α} {e : ε} : x.refusal? = some e ↔ x.result = .error e := by
  unfold refusal?
  cases x.result <;> simp

theorem refusal?_eq_none {x : Traced ε α} : x.refusal? = none ↔ ∃ a, x.result = .ok a := by
  unfold refusal?
  cases x.result <;> simp

theorem refusal?_bind_ok {x : Traced ε α} {a : α} (h : x.result = .ok a) (k : α → Traced ε β) :
    (x >>= k).refusal? = (k a).refusal? := by
  rw [bind_ok h]
  rfl

/-- steps that fail alike, whatever they are given: the first failure decides -/
theorem refusal?_bind {x : Traced ε α} {k : α → Traced ε β} {o : Option ε}
    (h : ∀ a, (k a).refusal? = o) : (x >>= k).refusal? = x.refusal?.or o := by
  cases hx : x.result with
  | ok a =>
    rw [refusal?_bind_ok hx, h, refusal?, hx]
    rfl
  | error e =>
    rw [bind_error hx, refusal?, refusal?, hx]
    rfl

theorem refusal?_bind_pure (x : Traced ε α) (f : α → β) :
    (x >>= fun a => pure (f a)).refusal? = x.refusal? := by
  rw [refusal?_bind (o := none) fun _ => rfl, Option.or_none]

theorem refusal?_each (f : α → Traced ε β) (xs : List α) :
    (each f xs).refusal? = xs.findSome? fun x => (f x).refusal? := by
  induction xs with
  | nil => rfl
  | cons x xs ih =>
    have step (y : β) : (each f xs >>= fun ys => pure (y :: ys)).refusal? =
        xs.findSome? fun x => (f x).refusal? := by
      rw [refusal?_bind_pure, ih]
    rw [each, refusal?_bind step, List.findSome?_cons]
    cases (f x).refusal? <;> rfl

theorem refusal?_optional (f : α → Traced ε β) (x : Option α) :
    (optional f x).refusal? = x.bind fun x => (f x).refusal? := by
  cases x with
  | none => rfl
  | some x => exact refusal?_bind_pure (f x) some

end Traced

/-! ## slots -/

theorem Layout.slot?_congr {items items' : List Json} {i : Nat} (h : items'[i]? = items[i]?) :
    slot? items' i = slot? items i := by
  unfold slot?
  rw [h]

theorem Tag.ofItems?_eq (items : List Json) :
    Tag.ofItems? items = match slot? items 0 with
      | some (.string raw) => Tag.ofSpelling? raw
      | _ => none := by
  cases items with
  | nil => rfl
  | cons x xs => cases x <;> rfl

theorem Tag.ofItems?_congr {items items' : List Json} (h : slot? items' 0 = slot? items 0) :
    Tag.ofItems? items' = Tag.ofItems? items := by
  rw [ofItems?_eq, ofItems?_eq, h]

/-! ## forms of items -/

namespace ItemForm

def Value : ItemForm → Type
  | .node => Node
  | .binding => Binding Node
  | .property => Property Node
  | .switchCase => Case Node
  | .handler => Handler Node

def decode : (f : ItemForm) → Json → Traced Refusal f.Value
  | .node => Node.decode
  | .binding => Decode.binding Node.decode
  | .property => Decode.property Node.decode
  | .switchCase => Decode.switchCase Node.decode
  | .handler => Decode.handler Node.decode

/-- the form as refusals name it; a node is named by its tag, once it has one -/
def name : ItemForm → String
  | .node => "tagged tree"
  | .binding => "binding"
  | .property => "property"
  | .switchCase => "case"
  | .handler => "exception handler"

def slots (f : ItemForm) (items : List Json) : Slots where
  construct := match f with
    | .node => (Tag.ofItems? items).elim f.name Tag.spelling
    | _ => f.name
  items := items

/-- why a value is no array of the form at all -/
def misfit? : ItemForm → Json → Option Refusal
  | .node, t => (Decode.tagged t).refusal?
  | f, t => (Slots.positional f.name t).refusal?

end ItemForm

/-- what the decoders refuse in a value of a given role -/
def Role.refusal? : Role → Json → Option Refusal
  | .other, _ => none
  | .one f, t => (f.decode t).refusal?
  | .each f, .array ts => ts.findSome? fun t => (f.decode t).refusal?
  | .each _, _ => none

/-! ## readings -/

/-- one reading of a slot -/
inductive Reading where
  | text (i : Nat)
  | text? (i : Nat)
  | number (i : Nat)
  | params (i : Nat)
  | operator
  | key
  | accessor
  | one (f : ItemForm) (i : Nat)
  | one? (f : ItemForm) (i : Nat)
  | each (f : ItemForm) (i : Nat)
  | each? (f : ItemForm) (i : Nat)
  /-- an element of a sequence, which must be present -/
  | element (f : ItemForm) (i : Nat)
deriving DecidableEq

/-- the first parameter that is no text, the parameters being numbered from `i` on -/
def paramFlaw? (i : Nat) : List Json → Option Flaw
  | [] => none
  | .string _ :: ts => paramFlaw? (i + 1) ts
  | t :: _ => some (.parameter i t.typeName)

namespace Reading

def slot : Reading → Nat
  | .key => 0
  | .operator => 1
  | .accessor => 2
  | .text i | .text? i | .number i | .params i => i
  | .one _ i | .one? _ i | .each _ i | .each? _ i | .element _ i => i

def role : Reading → Role
  | .one f _ | .one? f _ | .element f _ => .one f
  | .each f _ | .each? f _ => .each f
  | _ => .other

/-- what the reading finds; in a sequence `null` counts -/
def found? (items : List Json) : Reading → Option Json
  | .element _ i => items[i]?
  | r => slot? items r.slot

/-- what is wrong with what the reading finds, the inside of nodes apart -/
def flaw? : Reading → Option Json → Option Flaw
  | .text _, some (.string _) | .text? _, some (.string _) | .text? _, none => none
  | .text i, none => some (.missing i .string)
  | .text i, some t | .text? i, some t => some (.wrongType i .string t.typeName)
  | .number _, some (.number _) => none
  | .number i, none => some (.missing i .number)
  | .number i, some t => some (.wrongType i .number t.typeName)
  | .params _, some (.array ts) => paramFlaw? 0 ts
  | .params i, none => some (.missing i .array)
  | .params i, some t => some (.wrongType i .array t.typeName)
  | .operator, some (.bool true) | .operator, some (.string _) => none
  | .operator, t => some (.assignmentOperator (t.map Json.typeName))
  | .key, some (.string _) | .key, some (.number _) => none
  | .key, t => some (.propertyKey (t.map Json.typeName))
  | .accessor, none => none
  | .accessor, some (.string x) => if x = "get" ∨ x = "set" then none else some (.accessor x)
  | .accessor, some t => some (.wrongType 2 .string t.typeName)
  | .one _ i, none => some (.missing i .node)
  | .one .., some _ | .one? .., _ | .element .., _ => none
  | .each .., some (.array _) | .each? .., some (.array _) | .each? .., none => none
  | .each _ i, none => some (.missing i .array)
  | .each _ i, some t | .each? _ i, some t => some (.wrongType i .array t.typeName)

/-- a flaw refuses the array itself; without one, the refusal comes from inside the slot -/
def refusal? (s : Slots) (r : Reading) : Option Refusal :=
  match r.flaw? (r.found? s.items) with
  | some flaw => some (.malformed s.construct flaw (.array s.items))
  | none => (r.found? s.items).bind r.role.refusal?

theorem found?_congr {items items' : List Json} {r : Reading}
    (h : items'[r.slot]? = items[r.slot]?) : r.found? items' = r.found? items := by
  cases r with
  | element f i => exact h
  | _ => exact slot?_congr h

theorem found?_array {items ts : List Json} {r : Reading}
    (h : items[r.slot]? = some (.array ts)) : r.found? items = some (.array ts) := by
  cases r with
  | element f i => exact h
  | _ =>
    show slot? items _ = _
    unfold slot?
    rw [h]

theorem getElem?_of_found? {items : List Json} {r : Reading} {x : Json}
    (h : r.found? items = some x) : items[r.slot]? = some x := by
  cases r with
  | element f i => exact h
  | _ => exact slot?_eq_some h

theorem refusal?_of_flaw {s : Slots} {r : Reading} {flaw : Flaw}
    (h : r.flaw? (r.found? s.items) = some flaw) :
    r.refusal? s = some (.malformed s.construct flaw (.array s.items)) := by
  rw [refusal?, h]

theorem refusal?_of_sound {s : Slots} {r : Reading} (h : r.flaw? (r.found? s.items) = none) :
    r.refusal? s = (r.found? s.items).bind r.role.refusal? := by
  rw [refusal?, h]

end Reading

/-- the readings of the slots after a tag, of which there are `arity`, in the order of reading -/
def Tag.readings (arity : Nat) : Tag → List Reading
  | .toplevel | .array => [.each .node 1]
  | .defun | .function => [.params 2, .text? 1, .each .node 3]
  | .returns => [.one? .node 1]
  | .vars => [.each .binding 1]
  | .stat | .throws => [.one .node 1]
  | .num => [.number 1]
  | .string | .name => [.text 1]
  | .binary => [.text 1, .one .node 2, .one .node 3]
  | .call => [.one .node 1, .each .node 2]
  | .regexp => [.text 1, .text? 2]
  | .object => [.each .property 1]
  | .block => [.each? .node 1]
  | .ifElse => [.one .node 1, .one .node 2, .one? .node 3]
  | .assign => [.operator, .one .node 2, .one .node 3]
  | .unaryPrefix | .unaryPostfix | .label => [.text 1, .one .node 2]
  | .new => [.one .node 1, .each? .node 2]
  | .dot => [.one .node 1, .text 2]
  | .sub | .whileLoop | .doWhile => [.one .node 1, .one .node 2]
  | .tryCatch => [.each .node 1, .one? .handler 2, .each? .node 3]
  | .switch => [.one .node 1, .each .switchCase 2]
  | .forLoop => [.one? .node 1, .one? .node 2, .one? .node 3, .one .node 4]
  | .forIn => [.one .node 1, .one .node 2, .one .node 3, .one .node 4]
  | .seq => (List.range' 1 arity).map (.element .node)
  | .conditional => [.one .node 1, .one .node 2, .one .node 3]
  | .breaks | .continues => [.text? 1]

/-- only the readings of a sequence depend on the number of slots -/
theorem Tag.readings_eq {tag : Tag} (h : tag ≠ .seq) (m n : Nat) :
    tag.readings m = tag.readings n := by
  cases tag with
  | seq => exact absurd rfl h
  | _ => rfl

def ItemForm.readings (items : List Json) : ItemForm → List Reading
  | .node => (Tag.ofItems? items).elim [] (Tag.readings (items.length - 1))
  | .binding => [.text 0, .one? .node 1]
  | .property => [.key, .accessor, .one .node 1]
  | .switchCase => [.one? .node 0, .each .node 1]
  | .handler => [.text 0, .each .node 1]

theorem Tag.role_of_mem_readings {tag : Tag} {arity : Nat} {r : Reading}
    (h : r ∈ tag.readings arity) : (.other :: tag.roles arity).getD r.slot .other = r.role := by
  cases tag with
  | seq =>
    obtain ⟨i, hi, rfl⟩ := List.mem_map.1 h
    obtain ⟨hpos, hlt⟩ := List.mem_range'_1.1 hi
    obtain ⟨k, rfl⟩ : ∃ k, i = k + 1 := ⟨i - 1, by omega⟩
    show (List.replicate arity (Role.one .node)).getD k .other = .one .node
    rw [List.getD_eq_getElem?_getD, List.getElem?_replicate_of_lt (by omega)]
    rfl
  | _ =>
    simp only [Tag.readings, List.mem_cons, List.not_mem_nil, or_false] at h
    rcases h with rfl | rfl | rfl | rfl <;> rfl

theorem ItemForm.role_of_mem_readings {f : ItemForm} {items : List Json} {r : Reading}
    (h : r ∈ f.readings items) : (f.roles items).getD r.slot .other = r.role := by
  cases f with
  | node =>
    unfold readings at h
    unfold roles
    cases ht : Tag.ofItems? items with
    | none =>
      rw [ht] at h
      cases h
    | some tag =>
      rw [ht] at h
      exact Tag.role_of_mem_readings h
  | _ =>
    simp only [readings, List.mem_cons, List.not_mem_nil, or_false] at h
    rcases h with rfl | rfl | rfl <;> rfl

/-! ## reading slots one after the other -/

namespace Reading

/-- what a reading gives; an element is there whenever it is asked for -/
def Value : Reading → Type
  | .text _ | .operator | .key => String
  | .text? _ => Option String
  | .number _ => Binary64
  | .params _ => List String
  | .accessor => Option Accessor
  | .one f _ => f.Value
  | .one? f _ | .element f _ => Option f.Value
  | .each f _ => List f.Value
  | .each? f _ => Option (List f.Value)

def read (s : Slots) : (r : Reading) → Traced Refusal r.Value
  | .text i => s.string i
  | .text? i => s.string? i
  | .number i => s.number i
  | .params i => s.array i >>= Decode.params s 0
  | .operator => Decode.assignmentOperator s
  | .key => Decode.propertyKey s
  | .accessor => Decode.accessor s
  | .one f i => s.child i f.decode
  | .one? f i => s.child? i f.decode
  | .each f i => s.each i f.decode
  | .each? f i => s.each? i f.decode
  | .element f i => Traced.optional f.decode s.items[i]?

/-- a function of what the readings give -/
def Into (β : Type) : List Reading → Type
  | [] => β
  | r :: rs => r.Value → Into β rs

/-- the readings one after the other, up to the first refusal -/
def run {β : Type} (s : Slots) : (rs : List Reading) → Into β rs → Traced Refusal β
  | [], b => pure b
  | r :: rs, k => do
    let x ← r.read s
    run s rs (k x)

/-- a function of the elements of a sequence, as a function of `n` readings -/
def intoList {β : Type} : (n i : Nat) → (List Node → β) →
    Into β ((List.range' i n).map (.element .node))
  | 0, _, k => k []
  | n + 1, i, k => fun (x : Option Node) => intoList n (i + 1) fun xs => k (x.toList ++ xs)

theorem run_intoList {β : Type} {s : Slots} {n i : Nat} (hn : s.items.length - i = n)
    (k : List Node → β) :
    run s _ (intoList n i k) = s.rest i Node.decode >>= fun xs => pure (k xs) := by
  induction n generalizing i k with
  | zero =>
    rw [Slots.rest, List.drop_eq_nil_of_le (Nat.sub_eq_zero_iff_le.1 hn)]
    rfl
  | succ n ih =>
    have hi : i < s.items.length := by omega
    show Traced.optional Node.decode s.items[i]? >>= (fun x => run s _ (intoList n (i + 1) _)) = _
    rw [List.getElem?_eq_getElem hi, Slots.rest, List.drop_eq_getElem_cons hi]
    simp only [ih (by omega : s.items.length - (i + 1) = n), Traced.optional, Traced.each,
      Traced.bind_assoc, Traced.pure_bind]
    rfl

end Reading

/-- the construct of a tag, from what its readings give -/
def Tag.assemble (arity : Nat) : (tag : Tag) → Reading.Into (Construct Node) (tag.readings arity)
  | .toplevel => Construct.program
  | .defun => fun params name body => .function .declaration name params body
  | .function => fun params name body => .function .expression name params body
  | .returns => Construct.returns
  | .vars => Construct.vars
  | .stat => Construct.statement
  | .num => fun x => .literal (.number x)
  | .string => fun x => .literal (.string x)
  | .name => Construct.identifier
  | .binary => Construct.binary
  | .array => Construct.array
  | .call => Construct.call
  | .regexp => fun pattern flags => .regex pattern (Option.getD flags "")
  | .object => Construct.object
  | .block => fun body => .block (Option.getD body [])
  | .ifElse => Construct.ifElse
  | .assign => Construct.assignment
  | .unaryPrefix => Construct.unaryPrefix
  | .unaryPostfix => Construct.unaryPostfix
  | .new => fun c args => .new c (Option.getD args [])
  | .dot => Construct.member
  | .sub => Construct.index
  | .tryCatch => Construct.tryCatch
  | .throws => Construct.throws
  | .whileLoop => Construct.whileLoop
  | .doWhile => Construct.doWhile
  | .switch => Construct.switch
  | .forLoop => Construct.forLoop
  | .forIn => Construct.forIn
  | .seq => Reading.intoList arity 1 Construct.sequence
  | .conditional => Construct.ternary
  | .breaks => Construct.breaks
  | .continues => Construct.continues
  | .label => Construct.labeled

theorem Decode.construct_eq_run (tag : Tag) (s : Slots) :
    construct Node.decode tag s =
      Reading.run s (tag.readings (s.items.length - 1)) (tag.assemble (s.items.length - 1)) := by
  cases tag with
  | defun | function =>
    exact (Traced.bind_assoc (s.array 2) (params s 0) _).symm
  | seq => exact (Reading.run_intoList rfl Construct.sequence).symm
  | _ => rfl

/-! ## refusals, reader by reader -/

namespace Slots
open Traced Decode
variable (s : Slots) (i : Nat)

theorem refusal?_string? : (s.string? i).refusal? = (Reading.text? i).refusal? s := by
  simp only [string?, present?_eq, Reading.refusal?, Reading.found?, Reading.slot]
  cases slot? s.items i with
  | none => rfl
  | some t => cases t <;> rfl

theorem refusal?_string : (s.string i).refusal? = (Reading.text i).refusal? s := by
  simp only [string, string?, present?_eq, Reading.refusal?, Reading.found?, Reading.slot]
  cases slot? s.items i with
  | none => rfl
  | some t => cases t <;> rfl

theorem refusal?_number : (s.number i).refusal? = (Reading.number i).refusal? s := by
  simp only [number, required, present?_eq, Reading.refusal?, Reading.found?, Reading.slot]
  cases slot? s.items i with
  | none => rfl
  | some t => cases t <;> rfl

theorem refusal?_params (j : Nat) (ts : List Json) :
    (params s j ts).refusal? =
      (paramFlaw? j ts).map (.malformed s.construct · (.array s.items)) := by
  induction ts generalizing j with
  | nil => rfl
  | cons t ts ih =>
    cases t with
    | string x =>
      rw [params, refusal?_bind_pure, ih]
      rfl
    | _ => rfl

theorem refusal?_array_params :
    (s.array i >>= params s 0).refusal? = (Reading.params i).refusal? s := by
  simp only [array, required, present?_eq, Reading.refusal?, Reading.found?, Reading.slot]
  cases slot? s.items i with
  | none => rfl
  | some t =>
    cases t with
    | array ts =>
      show (params s 0 ts).refusal? = _
      rw [refusal?_params]
      simp only [Reading.flaw?]
      cases paramFlaw? 0 ts <;> rfl
    | _ => rfl

theorem refusal?_assignmentOperator :
    (assignmentOperator s).refusal? = Reading.operator.refusal? s := by
  simp only [assignmentOperator, present?_eq, Reading.refusal?, Reading.found?, Reading.slot]
  cases slot? s.items 1 with
  | none => rfl
  | some t =>
    cases t with
    | bool b => cases b <;> rfl
    | _ => rfl

theorem refusal?_propertyKey : (propertyKey s).refusal? = Reading.key.refusal? s := by
  simp only [propertyKey, present?_eq, Reading.refusal?, Reading.found?, Reading.slot]
  cases slot? s.items 0 with
  | none => rfl
  | some t => cases t <;> rfl

theorem refusal?_accessor : (accessor s).refusal? = Reading.accessor.refusal? s := by
  simp only [accessor, string?, present?_eq, Reading.refusal?, Reading.found?, Reading.slot]
  cases slot? s.items 2 with
  | none => rfl
  | some t =>
    cases t with
    | string x =>
      show (if x = "get" then _ else if x = "set" then _ else _ : Traced Refusal _).refusal? = _
      by_cases hget : x = "get"
      · rw [if_pos hget]
        simp only [Reading.flaw?, hget, true_or, if_true]
        rfl
      · by_cases hset : x = "set"
        · rw [if_neg hget, if_pos hset]
          simp only [Reading.flaw?, hset, or_true, if_true]
          rfl
        · rw [if_neg hget, if_neg hset]
          simp only [Reading.flaw?, hget, hset, or_self, if_false]
          rfl
    | _ => rfl

variable (f : ItemForm)

theorem refusal?_child : (s.child i f.decode).refusal? = (Reading.one f i).refusal? s := by
  simp only [child, required, present?_eq, Reading.refusal?, Reading.found?, Reading.slot]
  cases slot? s.items i <;> rfl

theorem refusal?_child? : (s.child? i f.decode).refusal? = (Reading.one? f i).refusal? s := by
  rw [child?, refusal?_optional, present?_eq]
  rfl

theorem refusal?_each : (s.each i f.decode).refusal? = (Reading.each f i).refusal? s := by
  simp only [each, array, required, present?_eq, Reading.refusal?, Reading.found?, Reading.slot]
  cases slot? s.items i with
  | none => rfl
  | some t =>
    cases t with
    | array ts => exact Traced.refusal?_each f.decode ts
    | _ => rfl

theorem refusal?_each? : (s.each? i f.decode).refusal? = (Reading.each? f i).refusal? s := by
  have present (xs : Traced Refusal (List f.Value)) : (xs >>= fun xs => pure (some xs)).refusal? =
      xs.refusal? := refusal?_bind_pure xs some
  have h := s.refusal?_each i f
  simp only [each?, present?_eq, Reading.refusal?, Reading.found?, Reading.slot] at h ⊢
  cases hs : slot? s.items i with
  | none => rfl
  | some t =>
    rw [hs] at h
    show (s.each i f.decode >>= fun xs => pure (some xs)).refusal? = _
    rw [present, h]
    cases t <;> rfl

end Slots

/-! ## refusals of arrays -/

theorem Reading.refusal?_read (s : Slots) (r : Reading) : (r.read s).refusal? = r.refusal? s := by
  cases r with
  | text i => exact s.refusal?_string i
  | text? i => exact s.refusal?_string? i
  | number i => exact s.refusal?_number i
  | params i => exact s.refusal?_array_params i
  | operator => exact s.refusal?_assignmentOperator
  | key => exact s.refusal?_propertyKey
  | accessor => exact s.refusal?_accessor
  | one f i => exact s.refusal?_child i f
  | one? f i => exact s.refusal?_child? i f
  | each f i => exact s.refusal?_each i f
  | each? f i => exact s.refusal?_each? i f
  | element f i => exact Traced.refusal?_optional f.decode s.items[i]?

theorem Reading.refusal?_run {β : Type} (s : Slots) (rs : List Reading) (k : Into β rs) :
    (run s rs k).refusal? = rs.findSome? (·.refusal? s) := by
  induction rs with
  | nil => rfl
  | cons r rs ih =>
    have step (x : r.Value) : (run s rs (k x)).refusal? = rs.findSome? (·.refusal? s) := ih (k x)
    rw [run, Traced.refusal?_bind step, refusal?_read, List.findSome?_cons]
    cases r.refusal? s <;> rfl

namespace ItemForm
open Traced Decode

theorem refusal?_node (t : Json) : (Node.decode t).refusal? = (layer Node.decode t).refusal? := by
  rw [Node.decode_eq, ← bind_pure_comp, refusal?_bind_pure]

theorem refusal?_decode_of_misfit {f : ItemForm} {t : Json} {r : Refusal}
    (h : f.misfit? t = some r) : (f.decode t).refusal? = some r := by
  cases f with
  | node =>
    show (Node.decode t).refusal? = some r
    rw [refusal?_node, layer, bind_error (refusal?_eq_some.1 h)]
    rfl
  | binding | property | switchCase | handler =>
    refine refusal?_eq_some.2 (congrArg result (bind_error (refusal?_eq_some.1 h) _))

theorem eq_array_of_fit {f : ItemForm} {t : Json} (h : f.misfit? t = none) :
    ∃ items, t = .array items := by
  cases t with
  | array items => exact ⟨items, rfl⟩
  | _ => cases f <;> cases h

theorem refusal?_decode_of_fit {f : ItemForm} {items : List Json}
    (h : f.misfit? (.array items) = none) :
    (f.decode (.array items)).refusal? =
      (f.readings items).findSome? (·.refusal? (f.slots items)) := by
  cases f with
  | node =>
    obtain ⟨⟨tag, s⟩, hs⟩ := refusal?_eq_none.1 h
    obtain ⟨rest, ht, rfl⟩ := tagged_eq_ok.1 hs
    cases ht
    have htag : Tag.ofItems? (.string tag.spelling :: rest) = some tag := tag.ofSpelling?_spelling
    show (Node.decode _).refusal? = _
    rw [refusal?_node, layer, refusal?_bind_ok hs]
    simp only [readings, slots, htag, Option.elim]
    rw [refusal?_bind_ok rfl, construct_eq_run, Reading.refusal?_run]
  | binding => exact Reading.refusal?_run _ [.text 0, .one? .node 1] Binding.mk
  | property =>
    exact Reading.refusal?_run _ [.key, .accessor, .one .node 1] fun key accessor value =>
      (⟨key, value, accessor⟩ : Property Node)
  | switchCase => exact Reading.refusal?_run _ [.one? .node 0, .each .node 1] Case.mk
  | handler => exact Reading.refusal?_run _ [.text 0, .each .node 1] Handler.mk

end ItemForm
end TagTree
