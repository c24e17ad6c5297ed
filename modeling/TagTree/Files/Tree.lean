import TagTree.Files.Path
import TagTree.Text.Utf8

/-!
# Files

A tree of files with a working directory in it.  A path is followed step by step, from the root or
from the working directory: two dots lead back to the directory above, which at the root is the root
itself.  Names have at most 255 bytes and paths less than 4096.  Files are regular, directories are
no links, and all of them may be read.
-/

namespace TagTree

inductive Entry where
  | file (content : List UInt8)
  | directory (entries : List (String × Entry))

/-- why a path cannot be read -/
inductive FileError where
  | notFound
  | notDirectory
  | isDirectory
  | notText
  /-- the path or one of its parts is longer than a name can be -/
  | tooLong
  | zeroByte
deriving DecidableEq

def FileError.message : FileError → String
  | .notFound => "No such file or directory (os error 2)"
  | .notDirectory => "Not a directory (os error 20)"
  | .isDirectory => "Is a directory (os error 21)"
  | .notText => "stream did not contain valid UTF-8"
  | .tooLong => "File name too long (os error 36)"
  | .zeroByte => "file name contained an unexpected NUL byte"

abbrev Directory := List (String × Entry)

namespace Directory

def find? (d : Directory) (name : String) : Option Entry := d.lookup name

/-- sets an entry, in its old place if it has one -/
def set (d : Directory) (name : String) (e : Entry) : Directory :=
  match d with
  | [] => [(name, e)]
  | (n, x) :: rest => if n = name then (n, e) :: rest else (n, x) :: Directory.set rest name e

/-- makes a directory and those above it; existing ones are kept -/
def makeDirectory (d : Directory) : List String → Directory
  | [] => d
  | name :: rest =>
    match d.find? name with
    | some (.directory es) => d.set name (.directory (Directory.makeDirectory es rest))
    | some (.file _) => d
    | none => d.set name (.directory (Directory.makeDirectory [] rest))

/-- puts an entry at its place, making the directories above it -/
def put (d : Directory) (e : Entry) : List String → Directory
  | [] =>
    match e with
    | .file _ => d
    | .directory es => es
  | [name] => d.set name e
  | name :: rest =>
    match d.find? name with
    | some (.directory es) => d.set name (.directory (Directory.put es e rest))
    | some (.file _) => d
    | none => d.set name (.directory (Directory.put [] e rest))

end Directory

namespace Entry

/-- the entries of a directory; a file has none -/
def entries : Entry → Directory
  | .file _ => []
  | .directory es => es

/-- what stands at a relative path, given by its names -/
def at? (e : Entry) : List String → Option Entry
  | [] => some e
  | name :: names => (Directory.find? e.entries name).bind (·.at? names)

def isDirectory : Entry → Bool
  | .file _ => false
  | .directory _ => true

end Entry

/-! ## file systems -/

/-- an entry can have the name -/
def IsName (name : String) : Prop :=
  name ≠ "" ∧ name ≠ "." ∧ name ≠ ".." ∧ '/' ∉ name.toList

instance (name : String) : Decidable (IsName name) := inferInstanceAs (Decidable (_ ∧ _ ∧ _ ∧ _))

mutual

def Entry.isProper : Entry → Bool
  | .file _ => true
  | .directory es => Directory.isProper es

/-- names are names and distinct, in all directories below too -/
def Directory.isProper : Directory → Bool
  | [] => true
  | (name, e) :: es =>
    decide (IsName name) && decide (name ∉ es.map Prod.fst) && e.isProper && Directory.isProper es

end

/-- a tree of files, and the names that lead from its root to the working directory -/
structure FileSystem where
  root : Directory
  working : List String
  isProper : root.isProper = true
  isDirectory : ((Entry.directory root).at? working).any Entry.isDirectory = true

namespace FileSystem

def of? (root : Directory) (working : List String) : Option FileSystem :=
  if h : root.isProper = true ∧
      ((Entry.directory root).at? working).any Entry.isDirectory = true then
    some ⟨root, working, h.1, h.2⟩
  else none

/-- the working directory -/
def here (files : FileSystem) : Directory :=
  (((Entry.directory files.root).at? files.working).map Entry.entries).getD []

end FileSystem

/-! ## places -/

/-- where a path leads: to a file, or to a directory and those above it up to the root -/
inductive Place where
  | file (content : List UInt8)
  | directory (here : Directory) (above : List Directory)

namespace Place

/-- the directory above; the root stands above itself -/
def up (here : Directory) : List Directory → Place
  | [] => .directory here []
  | d :: above => .directory d above

/-- follows one part of a path -/
def step (q : Place) (part : String) : Except FileError Place :=
  match q with
  | .file _ => .error .notDirectory
  | .directory here above =>
    if part = "" ∨ part = "." then .ok (.directory here above)
    else if part = ".." then .ok (up here above)
    else match here.find? part with
      | none => .error (if 255 < part.utf8ByteSize then .tooLong else .notFound)
      | some (.file content) => .ok (.file content)
      | some (.directory es) => .ok (.directory es (here :: above))

def follow (q : Place) : List String → Except FileError Place
  | [] => .ok q
  | part :: rest => do
    let r ← q.step part
    r.follow rest

end Place

namespace Path

/-- no file or directory can be opened by the path -/
def isTooLong (p : Path) : Bool := 4096 ≤ p.spelling.utf8ByteSize

/-- the parts that lead from the root to the place of a path -/
def way (files : FileSystem) (p : Path) : List String :=
  if p.isAbsolute then p.parts else files.working ++ p.parts

def resolve (files : FileSystem) (p : Path) : Except FileError Place :=
  if p.spelling.toList.contains '\x00' then .error .zeroByte
  else if p.spelling = "" then .error .notFound
  else if p.isTooLong then .error .tooLong
  else (Place.directory files.root []).follow (p.way files)

/-- the entries of an existing directory -/
def directory? (files : FileSystem) (p : Path) : Option Directory :=
  match p.resolve files with
  | .ok (.directory here _) => some here
  | _ => none

def read (files : FileSystem) (p : Path) : Except FileError String :=
  match p.resolve files with
  | .error e => .error e
  | .ok (.directory _ _) => .error .isDirectory
  | .ok (.file content) =>
    match Text.ofBytes? content with
    | some text => .ok text
    | none => .error .notText

end Path
end TagTree
