import TagTree.Log.Entry
import TagTree.Pattern.Form
import TagTree.Text.Decimal
import TagTree.Text.Split

/-!
# Filters of the log

A filter is a comma list of directives: a level, or `target[span{field=value}]=level`, of which
all parts but one may be missing.  A target covers all targets that start with it.  A directive
without a span and without a value speaks of single entries; the most specific one that covers an
entry decides, and an entry that none covers is off.  A directive with a span or a field also speaks
of the batch: it shows everything within a batch that it matches, up to its level.
-/

namespace TagTree

/-! ## directives -/

/-- what is asked of the value of a field -/
inductive ValueTest where
  | present
  | equals (n : Nat)
  /-- a value that no count has -/
  | never
deriving DecidableEq

structure FieldTest where
  name : String
  value : ValueTest
deriving DecidableEq

structure Directive where
  /-- empty for every target -/
  target : String := ""
  span : Option String := none
  field : Option FieldTest := none
  verbosity : Nat := Level.trace.verbosity
deriving DecidableEq

namespace Directive

/-- it speaks of single entries -/
def judgesEntries (d : Directive) : Bool := d.span.isNone && d.field.all (·.value == .present)

/-- it speaks of batches -/
def judgesBatches (d : Directive) : Bool := d.span.isSome || d.field.isSome

def coversTarget (d : Directive) (target : String) : Bool :=
  d.target.toList.isPrefixOf target.toList

def coversEntry (d : Directive) (e : LogEntry) : Bool :=
  d.coversTarget e.target && d.field.all fun f => e.hasField f.name

def coversBatch (d : Directive) : Bool :=
  d.coversTarget Batch.target && d.span.all (· == Batch.name) &&
    d.field.all fun f => f.name == Batch.field

/-- the batch has the value that is asked for -/
def matchesBatch (d : Directive) : Bool :=
  d.field.all fun f => match f.value with
    | .present => true
    | .equals n => n == Batch.size
    | .never => false

/-- the first is at least as specific as the second: by the length of the target, then by having a
field, then by its name -/
def outranks (a b : Directive) : Bool :=
  let m := a.target.utf8ByteSize
  let n := b.target.utf8ByteSize
  if m = n then
    match a.field, b.field with
    | _, none => true
    | none, some _ => false
    | some f, some g => !(f.name < g.name)
  else n < m

/-- both speak of the same, so that the later one replaces the earlier -/
def sameScope (a b : Directive) : Bool :=
  a.target == b.target && a.span == b.span && a.field == b.field

end Directive

/-! ## reading directives -/

/-- a verbosity by name, in any case, or by number -/
def verbosity? (cs : List Char) : Option Nat :=
  match Text.natural? cs with
  | some n => if n ≤ 5 then some n else none
  | none =>
    let name := String.ofList (cs.map Char.toLower)
    if name = "off" then some 0
    else if name = "error" then some 1
    else if name = "warn" then some 2
    else if name = "info" then some 3
    else if name = "debug" then some 4
    else if name = "trace" then some 5
    else none

namespace Directive

/-- characters that a directive without brackets may start with -/
def startsTarget (c : Char) : Bool := Text.isAlphanumeric c || c == '-' || c == ':' || c == '_'

/-- sets the level that stands after an equals sign; no level is the highest -/
def withLevel? (d : Directive) (cs : List Char) : Option Directive :=
  if cs.isEmpty then some { d with verbosity := Level.trace.verbosity }
  else (verbosity? cs).map fun v => { d with verbosity := v }

/-- what follows the closing bracket: a level, or nothing but blanks -/
def afterBracket? (d : Directive) (cs : List Char) : Option Directive :=
  if cs.all Text.isBlank then some d
  else match cs with
    | '=' :: level => d.withLevel? level
    | _ => none

/-- a whole number is looked for; other numbers and patterns over text are no counts, but a pattern
that is not well formed makes no sense -/
def valueTest? (cs : List Char) : Option ValueTest :=
  match Text.natural? cs with
  | some n => some (if n < 0x10000000000000000 then .equals n else .never)
  | none => if Text.isDecimal cs || Pattern.isWellFormed cs then some .never else none

/-- `name` or `name=value` -/
def fieldTest? (cs : List Char) : Option FieldTest :=
  match Text.pieces '=' cs with
  | name :: value :: _ => (valueTest? value).map fun v => ⟨String.ofList name, v⟩
  | _ => some ⟨String.ofList cs, .present⟩

/-- what stands in brackets, after the opening one -/
def span? (target : String) (cs : List Char) : Option Directive :=
  let inName (c : Char) : Bool := c != ']' && c != '\x7b'
  let name := String.ofList (cs.takeWhile inName)
  match cs.dropWhile inName with
  | ']' :: rest => afterBracket? { target, span := some name } rest
  | '\x7b' :: rest =>
    let inField (c : Char) : Bool := c != '\x7d'
    match rest.takeWhile inField, rest.dropWhile inField with
    | f :: fs, '\x7d' :: ']' :: rest => do
      let field ← fieldTest? (f :: fs)
      afterBracket? { target, span := if name = "" then none else some name, field } rest
    | _, _ => none
  | _ => none

/-- one piece of a filter; a target alone shows everything, and what makes no sense is ignored -/
def parse? (piece : List Char) : Option Directive :=
  match piece with
  | [] => none
  | '[' :: cs => span? "" cs
  | c :: cs =>
    if !startsTarget c then none
    else
      let inTarget (c : Char) : Bool := c != '=' && c != '['
      let target := String.ofList ((c :: cs).takeWhile inTarget)
      match (c :: cs).dropWhile inTarget with
      | '=' :: level => withLevel? { target } level
      | '[' :: rest => span? target rest
      | _ => match verbosity? piece with
        | some v => some { verbosity := v }
        | none => some { target }

end Directive

/-! ## filters -/

abbrev Filter := List Directive

namespace Filter

def parse (s : String) : Filter := (Text.pieces ',' s.toList).filterMap Directive.parse?

/-- the most specific directive, and of equally specific ones the last -/
def decisive? (ds : List Directive) : Option Directive :=
  ds.foldl
    (fun best d => match best with
      | none => some d
      | some b => if d.outranks b then some d else some b)
    none

/-- the directives that are not replaced by a later one -/
def latest : List Directive → List Directive
  | [] => []
  | d :: ds => if ds.any d.sameScope then latest ds else d :: latest ds

/-- the decisive directive of those that cover something allows its level -/
def allows (f : Filter) (covers : Directive → Bool) (l : Level) : Bool :=
  match decisive? (f.filter fun d => d.judgesEntries && covers d) with
  | some d => l.verbosity ≤ d.verbosity
  | none => false

/-- the directives that speak of the batch -/
def onBatch (f : Filter) : List Directive :=
  latest (f.filter fun d => d.judgesBatches && d.coversBatch)

/-- up to which verbosity everything within the batch is shown -/
def withinBatch (f : Filter) : Nat :=
  ((f.onBatch.filter Directive.matchesBatch).map Directive.verbosity).foldl max 0

/-- entries name the batch they lie in -/
def showsBatch (f : Filter) : Bool :=
  !f.onBatch.isEmpty || f.allows (fun d => d.coversTarget Batch.target) Batch.level

def shows (f : Filter) (within : Bool) (e : LogEntry) : Bool :=
  f.allows (fun d => d.coversEntry e) e.level || (within && e.level.verbosity ≤ f.withinBatch)

end Filter
end TagTree
