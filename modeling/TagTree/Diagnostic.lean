import TagTree.Decode.Refusal
import TagTree.Json.Reader
import TagTree.Json.Token

/-!
# Diagnostics

What is reported about a failure: its cause, and a context that may hold the source it belongs to,
a span in that source and advice.  A source is attached once; later ones do not replace it.

* `Diagnostic.withSource_withSource`   the first source stays.
-/

namespace TagTree

/-- a named text -/
structure Source where
  name : String
  text : String
deriving DecidableEq

/-- a range of bytes -/
structure Span where
  start : Nat
  stop : Nat
deriving DecidableEq

/-- the length that a label covers: an empty span is shown as one byte -/
def Span.labelLength (s : Span) : Nat := if s.start < s.stop then s.stop - s.start else 1

structure Context where
  source : Option Source := none
  span : Option Span := none
  help : Option String := none
deriving DecidableEq

/-- why something failed; `raw` is the offending value as Json text, `cause` the failure below -/
inductive Cause where
  | unknownConstruct (tag raw : String)
  | malformedShape (construct message raw : String)
  | parse (message : String) (cause : Option String)
  | io (message : String) (cause : Option String)
deriving DecidableEq

structure Label where
  start : Nat
  length : Nat
  text : String
deriving DecidableEq

structure Diagnostic where
  cause : Cause
  context : Context := {}
deriving DecidableEq

def Cause.category : Cause → String
  | .unknownConstruct .. => "unknown_construct"
  | .malformedShape .. => "malformed_shape"
  | .parse .. => "parse"
  | .io .. => "io"

def Cause.stage : Cause → String
  | .unknownConstruct .. | .malformedShape .. => "materialize"
  | .parse .. => "syntax"
  | .io .. => "driver"

def Cause.message : Cause → String
  | .unknownConstruct tag raw => "unknown construct '" ++ tag ++ "' in " ++ raw
  | .malformedShape construct message raw => "malformed " ++ construct ++ ": " ++ message ++ " in " ++ raw
  | .parse message _ => "Parse error: " ++ message
  | .io message _ => "IO error: " ++ message

def Cause.below? : Cause → Option String
  | .parse _ cause | .io _ cause => cause
  | _ => none

/-- what is written at the span -/
def Cause.label : Cause → String
  | .unknownConstruct tag _ => "unknown tag '" ++ tag ++ "'"
  | .malformedShape _ message _ => message
  | .parse message _ => message
  | .io message _ => message

namespace Diagnostic

def code (d : Diagnostic) : String := "arbor::" ++ d.cause.stage ++ "::" ++ d.cause.category

/-- there is a label iff there is a span -/
def label? (d : Diagnostic) : Option Label :=
  d.context.span.map fun s => ⟨s.start, s.labelLength, d.cause.label⟩

/-- the diagnostic can show its place in the text -/
def pointsIntoSource (d : Diagnostic) : Bool := d.context.span.isSome && d.context.source.isSome

/-- attaches a source to a diagnostic that has none -/
def withSource (d : Diagnostic) (s : Source) : Diagnostic :=
  { d with context := { d.context with source := d.context.source.or (some s) } }

/-! ## making diagnostics -/

def unknownHelp : String :=
  "the upstream parser produced a construct this materializer does not register"

def unknownConstruct (tag : String) (raw : Json) : Diagnostic :=
  ⟨.unknownConstruct tag raw.compact, { help := some unknownHelp }⟩

def malformedShape (construct message : String) (raw : Json) : Diagnostic :=
  ⟨.malformedShape construct message raw.compact, {}⟩

def ofRefusal : Refusal → Diagnostic
  | .unknown tag raw => unknownConstruct tag raw
  | .malformed construct flaw raw => malformedShape construct flaw.message raw

def ofReadError (e : Json.ReadError) : Diagnostic :=
  ⟨.parse ("invalid tagged tree: " ++ e.message) (some e.message),
    { span := some ⟨e.offset, e.offset⟩ }⟩

/-! ## facts -/

theorem span_withSource (d : Diagnostic) (s : Source) :
    (d.withSource s).context.span = d.context.span := rfl

theorem withSource_withSource (d : Diagnostic) (s t : Source) :
    (d.withSource s).withSource t = d.withSource s := by
  cases d with
  | mk cause context => cases context with
    | mk source span help => cases source <;> rfl

end Diagnostic

def readTree (text : String) : Except Diagnostic Json :=
  (Json.read text).mapError Diagnostic.ofReadError

end TagTree
