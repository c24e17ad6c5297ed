import TagTree.Files.Tree
import TagTree.Diagnostic

/-!
# Inputs of a run

A path to a directory stands for all tree files below it, any other path for itself.  Inputs are
sorted and without repeats; of paths with equal components the first keeps its spelling.  A search
fails only below a directory whose own path has become too long to open it.
-/

namespace TagTree

/-- a tree file has a name that ends in `.json` and more before that -/
def isTreeFile (name : String) : Bool :=
  ".json".toList.isSuffixOf name.toList && 5 < name.toList.length

/-- what could not be done with a path, and why -/
def Diagnostic.unreadable (verb : String) (p : Path) (e : FileError) : Diagnostic :=
  ⟨.io ("failed to " ++ verb ++ " '" ++ p.spelling ++ "'") (some e.message), {}⟩

namespace Directory

mutual

def entryFiles (path : Path) (name : String) : Entry → List Path
  | .file _ => if isTreeFile name then [path] else []
  | .directory es => treeFiles path es

/-- the tree files below a directory of the given path -/
def treeFiles (path : Path) : List (String × Entry) → List Path
  | [] => []
  | (name, e) :: rest => entryFiles (path.join name) name e ++ treeFiles path rest

end

mutual

/-- an entry of the given path is a file, or a directory that can be searched -/
def entrySearchable (path : Path) : Entry → Bool
  | .file _ => true
  | .directory es => !path.isTooLong && searchable path es

/-- every directory below a directory of the given path can be opened -/
def searchable (path : Path) : List (String × Entry) → Bool
  | [] => true
  | (name, e) :: rest => entrySearchable (path.join name) e && searchable path rest

end

end Directory

namespace Path

def expand (files : FileSystem) (p : Path) : Except Diagnostic (List Path) :=
  match p.directory? files with
  | none => .ok [p]
  | some d =>
    if Directory.searchable p d then .ok (Directory.treeFiles p d)
    else .error (Diagnostic.unreadable "walk" p .tooLong)

/-- puts a path at its place among sorted ones, unless its components are there; every path stands
behind its components, so that these are found once -/
def insert (key : List Component) (p : Path) :
    List (List Component × Path) → List (List Component × Path)
  | [] => [(key, p)]
  | (k, q) :: rest =>
    if before key k then (key, p) :: (k, q) :: rest
    else if key = k then (k, q) :: rest
    else (k, q) :: insert key p rest

end Path

/-- paths in order, without repeats -/
def sortPaths (ps : List Path) : List Path :=
  (ps.foldl (fun sorted p => Path.insert p.components p sorted) []).map (·.2)

/-- the inputs that paths stand for, or why the first that cannot be searched fails -/
def inputs (files : FileSystem) (paths : List Path) : Except Diagnostic (List Path) := do
  let found ← paths.mapM (Path.expand files)
  pure (sortPaths found.flatten)

/-- the source at a path, named after it -/
def loadSource (files : FileSystem) (p : Path) : Except Diagnostic Source :=
  match p.read files with
  | .ok text => .ok ⟨p.spelling, text⟩
  | .error e => .error (Diagnostic.unreadable "read" p e)

end TagTree
