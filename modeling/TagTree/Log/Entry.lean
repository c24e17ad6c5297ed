import TagTree.Outcome

/-!
# Log entries

Every entry has a level, a target that tells the part of the work it comes from, and fields.  With a
single source the work on it is done within the batch, and entries name the batch they lie in; with
more sources the batch is spread over workers, and entries stand alone.
-/

namespace TagTree

inductive Level where
  | error
  | warn
  | info
  | debug
  | trace
deriving DecidableEq

/-- a higher verbosity shows more -/
def Level.verbosity : Level → Nat
  | .error => 1
  | .warn => 2
  | .info => 3
  | .debug => 4
  | .trace => 5

def Level.name : Level → String
  | .error => "ERROR"
  | .warn => "WARN"
  | .info => "INFO"
  | .debug => "DEBUG"
  | .trace => "TRACE"

/-! ## the batch

The work on a batch, as far as entries lie within it: it then has one source.
-/

namespace Batch

def name : String := "process_units"

def target : String := "arbor::pipeline"

def level : Level := .info

/-- the only field, which counts the sources -/
def field : String := "units"

def size : Nat := 1

def text : String := name ++ "\x7b" ++ field ++ "=" ++ toString size ++ "\x7d"

def document : Json :=
  .object [("name", .string name), (field, .number (.natural size (by decide)))]

end Batch

/-! ## entries -/

namespace LogEntry

def level : LogEntry → Level
  | .decoding _ => .trace
  | .decoded .. => .debug

def target : LogEntry → String
  | .decoding _ => "arbor::ast::builder"
  | .decoded .. => "arbor::pipeline"

/-- the message and the other fields -/
def fields : LogEntry → List (String × String)
  | .decoding e =>
    [("message", "materializing"), ("tag", e.tag.spelling), ("kind", e.kind.name)]
  | .decoded source kind =>
    [("message", "materialized"), ("unit", source), ("kind", kind.name)]

def hasField (e : LogEntry) (name : String) : Bool := e.fields.any (·.1 == name)

/-- a field of an entry on one line; a message is written without its name -/
def fieldText (f : String × String) : String := if f.1 = "message" then f.2 else f.1 ++ "=" ++ f.2

def line (e : LogEntry) (within : Bool) : String :=
  e.level.name ++ " " ++ (if within then Batch.text ++ ": " else "") ++ e.target ++ ": " ++
    String.intercalate " " (e.fields.map fieldText)

def document (e : LogEntry) (within : Bool) : Json :=
  .object ([("level", .string e.level.name), ("target", .string e.target),
      ("fields", .object (e.fields.map fun f => (f.1, .string f.2)))] ++
    if within then [("span", Batch.document), ("spans", .array [Batch.document])] else [])

end LogEntry
end TagTree
