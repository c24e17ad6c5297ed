import TagTree.Command.Run

/-!
# The program

Reads the arguments, the files that they lead to and the environment, and prints the report of the
run.
-/

namespace TagTree.Main

/-- a file or directory and all that lies below it -/
partial def snapshot (path : String) : IO Entry := do
  let place := (← IO.currentDir) / path
  if ← place.isDir then
    let below ← place.readDir
    let entries ← below.toList.mapM fun e => return (e.fileName, ← snapshot e.path.toString)
    return .directory entries
  let content ← IO.FS.readBinFile place
  return .file content.data.toList

def environment : IO Environment := do
  return {
    noColor := ← IO.getEnv "NO_COLOR"
    term := ← IO.getEnv "TERM"
    log := ← IO.getEnv "ARBOR_LOG"
    fallbackLog := ← IO.getEnv "RUST_LOG"
    logFormat := ← IO.getEnv "ARBOR_LOG_FORMAT" }

/-- The file system as far as paths lead: the directories and files that they pass, and what lies
below their ends.  A run looks at nothing else. -/
def files (paths : List Path) : IO (Option FileSystem) := do
  let here ← IO.currentDir
  let working := (Path.mk here.toString).parts.filter (· != "")
  let place (names : List String) := here / ("/" ++ String.intercalate "/" names)
  let mut root := Directory.makeDirectory [] working
  for p in paths do
    let mut names := if p.isAbsolute then [] else working
    for part in p.parts do
      names := (Path.component? part).elim names fun c => c.advance names
      if ← (place names).isDir then
        root := root.makeDirectory names
      else if ← (place names).pathExists then
        root := root.put (← snapshot (place names).toString) names
    if ← (place names).isDir then
      root := root.put (← snapshot (place names).toString) names
  return FileSystem.of? root working

def printReport (r : Report) : IO Unit := do
  for line in r.log do
    match line with
    | .text s => IO.eprintln s
    | .object j => IO.eprintln j.compact
  IO.print r.stdout
  for d in r.diagnostics do
    IO.eprintln (d.code ++ ": " ++ d.cause.message)

end TagTree.Main

def main (args : List String) : IO UInt32 := do
  let env ← TagTree.Main.environment
  let request := TagTree.Request.parse args
  let paths := match request with
    | .run _ paths => paths
    | _ => []
  match ← TagTree.Main.files paths with
  | none => throw (IO.userError "the names of files are not names")
  | some files =>
    let report := request.answer env files
    TagTree.Main.printReport report
    return report.exit.toUInt32
