import TagTree.Command.Arguments
import TagTree.Command.Environment
import TagTree.Files.Inputs
import TagTree.Node.Document
import TagTree.Node.Walk
import TagTree.Json.Indented

/-!
# Runs

A run loads all its inputs, and prints nothing if one of them cannot be read.  Then every source
has its outcome, and each command has a loop of its own that prints the outcomes in order: a failed
one is reported, and remembered in a flag or a counter, and the others are printed all the same.
-/

namespace TagTree

/-! ## outcomes of a batch -/

/-- the sources of a run, or why the first unreadable input cannot be read -/
def sources (files : FileSystem) (paths : List Path) : Except Diagnostic (List Source) := do
  let ps ← inputs files paths
  ps.mapM (loadSource files)

def outcomes (files : FileSystem) (paths : List Path) : Except Diagnostic (List Outcome) := do
  let ss ← sources files paths
  pure (ss.map (Source.outcome readTree))

/-! ## printing -/

inductive Colour where
  | red
  | green
  | yellow

def Colour.code : Colour → String
  | .red => "31"
  | .green => "32"
  | .yellow => "33"

/-- text in bold colour; without colours it is left as it is -/
def paint (colours : Bool) (c : Colour) (s : String) : String :=
  if colours then "\x1b[0m\x1b[1m\x1b[" ++ c.code ++ "m" ++ s ++ "\x1b[0m" else s

def header (colours : Bool) (name : String) : String :=
  paint colours .yellow ("== " ++ name ++ " ==\n")

def Format.text (f : Format) (n : Node) : String :=
  match f with
  | .sexpr => n.sexpr
  | .json => n.document.indented

def kindWords (n : Node) : String := String.intercalate " " (n.kinds.map Kind.name)

def okLine (colours : Bool) (name : String) (count : Nat) : String :=
  paint colours .green "ok" ++ s!"     {name} ({count} nodes)\n"

def failedLine (colours : Bool) (name : String) : String :=
  paint colours .red "FAILED" ++ " " ++ name ++ "\n"

def summary (total failed : Nat) : String :=
  s!"\nchecked {total} units: {total - failed} ok, {failed} failed\n"

/-- what has been written so far, and the diagnostics that were reported beside it -/
structure Console where
  output : String := ""
  reported : List Diagnostic := []

namespace Console

def print (out : Console) (s : String) : Console := { out with output := out.output ++ s }

def report (out : Console) (d : Diagnostic) : Console :=
  { out with reported := out.reported ++ [d] }

end Console

/-! ## commands -/

/-- prints trees; `allOk` tells whether no outcome so far is a failure -/
def astLoop (colours : Bool) (format : Format) (allOk : Bool) (out : Console) :
    List Outcome → Bool × Console
  | [] => (allOk, out)
  | o :: os =>
    let out := out.print (header colours o.name)
    match o.result with
    | .ok n => astLoop colours format allOk (out.print (format.text n ++ "\n")) os
    | .error d => astLoop colours format false (out.report d) os

/-- prints kinds; `allOk` tells whether no outcome so far is a failure -/
def kindsLoop (colours : Bool) (allOk : Bool) (out : Console) : List Outcome → Bool × Console
  | [] => (allOk, out)
  | o :: os =>
    let out := out.print (header colours o.name)
    match o.result with
    | .ok n => kindsLoop colours allOk (out.print (kindWords n ++ "\n")) os
    | .error d => kindsLoop colours false (out.report d) os

/-- prints a line for every outcome; `failed` counts the failures so far -/
def checkLoop (colours : Bool) (failed : Nat) (out : Console) : List Outcome → Nat × Console
  | [] => (failed, out)
  | o :: os =>
    match o.result with
    | .ok n => checkLoop colours failed (out.print (okLine colours o.name n.kinds.length)) os
    | .error d =>
      checkLoop colours (failed + 1) ((out.print (failedLine colours o.name)).report d) os

section
variable (colours : Bool) (batch : Except Diagnostic (List Outcome))

/-! Whether all inputs succeed, and what is written about them, unless the batch has failed. -/

def handleAst (format : Format) : Except Diagnostic (Bool × Console) := do
  let os ← batch
  pure (astLoop colours format true {} os)

def handleKinds : Except Diagnostic (Bool × Console) := do
  let os ← batch
  pure (kindsLoop colours true {} os)

def handleCheck : Except Diagnostic (Bool × Console) := do
  let os ← batch
  let (failed, out) := checkLoop colours 0 {} os
  pure (failed == 0, out.print (summary os.length failed))

def Action.handle : Action → Except Diagnostic (Bool × Console)
  | .ast format => handleAst colours batch format
  | .kinds => handleKinds colours batch
  | .check => handleCheck colours batch

end

/-! ## results -/

structure Report where
  exit : Nat
  stdout : String := ""
  diagnostics : List Diagnostic := []
  log : List LogLine := []

def Report.codes (r : Report) : List String := r.diagnostics.map Diagnostic.code

def Environment.batchLog (env : Environment) : Except Diagnostic (List Outcome) → List LogLine
  | .ok os => env.written (os.length == 1) (os.flatMap Outcome.log)
  | .error _ => []

/-- a failed batch is reported, and nothing else is written -/
def Action.run (a : Action) (env : Environment) (files : FileSystem) (paths : List Path) : Report :=
  let batch := outcomes files paths
  match a.handle env.colours batch with
  | .ok (allOk, out) =>
    { exit := if allOk then 0 else 1, stdout := out.output, diagnostics := out.reported
      log := env.batchLog batch }
  | .error d => { exit := 1, diagnostics := [d], log := env.batchLog batch }

def versionText : String := "arbor 0.1.0\n"

/-- the whole program -/
def Request.answer (env : Environment) (files : FileSystem) : Request → Report
  | .run a paths => a.run env files paths
  | .version => { exit := 0, stdout := versionText }
  | .help => { exit := 0 }
  | .usage => { exit := 2 }

end TagTree
