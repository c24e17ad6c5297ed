import TagTree.Files.Path
import TagTree.Text.Natural

/-!
# Command lines

`[--jobs N] ast|kinds|check PATH… [--jobs N] [--format pretty|json]`.  Arguments are read from left
to right and the first that asks for help or the version, or that makes no sense, decides.  Options
may stand anywhere after their command, each once; two dashes end the options.
-/

namespace TagTree

inductive Format where
  | sexpr
  | json
deriving DecidableEq

/-- what is printed about each input -/
inductive Action where
  | ast (format : Format)
  | kinds
  | check
deriving DecidableEq

inductive Request where
  | run (action : Action) (paths : List Path)
  | version
  | help
  /-- the command line makes no sense -/
  | usage
deriving DecidableEq

namespace Arguments

inductive Command where
  | ast
  | kinds
  | check
deriving DecidableEq

def Command.parse? (s : String) : Option Command :=
  if s = "ast" then some .ast
  else if s = "kinds" then some .kinds
  else if s = "check" then some .check
  else none

/-- a count of jobs fits into 64 bits -/
def isJobs (s : String) : Bool := (Text.natural? s.toList).any (· < 0x10000000000000000)

def format? (s : String) : Option Format :=
  if s = "pretty" then some .sexpr
  else if s = "json" then some .json
  else none

inductive Shape where
  /-- `--name` or `--name=value` -/
  | long (name : String) (value : Option String)
  /-- a dash and letters -/
  | short (first : Char) (rest : List Char)
  /-- two dashes alone -/
  | endOfOptions
  | plain
deriving DecidableEq

def shape (arg : String) : Shape :=
  match arg.toList with
  | ['-', '-'] => .endOfOptions
  | '-' :: '-' :: cs =>
    match Text.pieces '=' cs with
    | name :: value :: more =>
      .long (String.ofList name) (some (String.ofList (List.intercalate ['='] (value :: more))))
    | _ => .long (String.ofList cs) none
  | '-' :: c :: cs => .short c cs
  | _ => .plain

/-- the argument can be the value of the option before it -/
def isValue (arg : String) : Bool := shape arg == .plain

/-- options seen at one level -/
structure Seen where
  jobs : Bool := false
  format : Option Format := none
  paths : List Path := []

/-- paths after two dashes -/
def onlyPaths (seen : List Path) : List String → Option (List Path)
  | [] => some seen.reverse
  | arg :: args => if arg = "" then none else onlyPaths (⟨arg⟩ :: seen) args

def request (command : Command) (format : Option Format) (paths : List Path) : Request :=
  if paths.isEmpty then .usage
  else match command with
    | .ast => .run (.ast (format.getD .sexpr)) paths
    | .kinds => .run .kinds paths
    | .check => .run .check paths

def inCommand (command : Command) (seen : Seen) : List String → Request
  | [] => request command seen.format seen.paths.reverse
  | arg :: args =>
    match shape arg with
    | .endOfOptions =>
      match onlyPaths seen.paths args with
      | some paths => request command seen.format paths
      | none => .usage
    | .plain =>
      if arg = "" then .usage
      else inCommand command { seen with paths := ⟨arg⟩ :: seen.paths } args
    | .short c _ => if c = 'h' then .help else .usage
    | .long "help" none => .help
    | .long "jobs" (some v) =>
      if seen.jobs || !isJobs v then .usage else inCommand command { seen with jobs := true } args
    | .long "jobs" none =>
      match args with
      | v :: args =>
        if seen.jobs || !isValue v || !isJobs v then .usage
        else inCommand command { seen with jobs := true } args
      | [] => .usage
    | .long "format" (some v) =>
      match command, seen.format, format? v with
      | .ast, none, some f => inCommand command { seen with format := some f } args
      | _, _, _ => .usage
    | .long "format" none =>
      match args with
      | v :: args =>
        match command, seen.format, format? v with
        | .ast, none, some f => inCommand command { seen with format := some f } args
        | _, _, _ => .usage
      | [] => .usage
    | .long _ _ => .usage

/-- the words after `help` name a command, or `help` itself -/
def help : List String → Request
  | [] => .help
  | [arg] => if (Command.parse? arg).isSome || arg == "help" then .help else .usage
  | _ => .usage

/-- the arguments before a command; `jobs` tells whether that option was given -/
def beforeCommand (jobs : Bool) : List String → Request
  | [] => .usage
  | arg :: args =>
    match shape arg with
    | .endOfOptions => .usage
    | .plain =>
      match Command.parse? arg with
      | some c => inCommand c {} args
      | none => if arg = "help" then help args else .usage
    | .short c _ => if c = 'V' then .version else if c = 'h' then .help else .usage
    | .long "help" none => .help
    | .long "version" none => .version
    | .long "jobs" (some v) =>
      if jobs || !isJobs v then .usage else beforeCommand true args
    | .long "jobs" none =>
      match args with
      | v :: args => if jobs || !isValue v || !isJobs v then .usage else beforeCommand true args
      | [] => .usage
    | .long _ _ => .usage

end Arguments

def Request.parse (args : List String) : Request := Arguments.beforeCommand false args

end TagTree
