import TagTree.Log.Filter

/-!
# The environment of a run

Variables decide whether output is coloured, what is logged, and how log entries are written.
-/

namespace TagTree

/-- the variables that a run looks at; a variable may be unset -/
structure Environment where
  noColor : Option String := none
  term : Option String := none
  log : Option String := none
  /-- used where `log` is unset -/
  fallbackLog : Option String := none
  logFormat : Option String := none

namespace Environment

/-- colours need a terminal that is not dumb and no wish against them -/
def colours (e : Environment) : Bool :=
  e.noColor.isNone && match e.term with
    | some t => t != "dumb"
    | none => false

def filter? (e : Environment) : Option Filter := (e.log.or e.fallbackLog).map Filter.parse

def logsJson (e : Environment) : Bool := (e.logFormat.getD "").toLower == "json"

end Environment

inductive LogLine where
  | text (s : String)
  | object (j : Json)

/-- the log entries that are shown, as they are written; `within` tells whether they lie within the
batch -/
def Environment.written (e : Environment) (within : Bool) (entries : List LogEntry) : List LogLine :=
  match e.filter? with
  | none => []
  | some f =>
    let batch := within && f.showsBatch
    (entries.filter (f.shows within)).map fun x =>
      if e.logsJson then .object (x.document batch) else .text (x.line batch)

end TagTree
