import TagTree.Text.Split

/-!
# Paths

A path is kept as it is spelled and compared by its components: empty parts and inner dots do not
count.  A leading dot sorts before two dots, and these before names; names sort by their bytes, and
a path sorts before those that continue it.  Paths are texts: names that are not UTF-8 are left out.
-/

namespace TagTree

structure Path where
  spelling : String
deriving DecidableEq

inductive Component where
  | root
  | current
  | parent
  | name (s : String)
deriving DecidableEq

namespace Component

def rank : Component → Nat
  | .root => 0
  | .current => 1
  | .parent => 2
  | .name _ => 3

def lt (a b : Component) : Bool :=
  match a, b with
  | .name s, .name t => s < t
  | a, b => a.rank < b.rank

/-- where a component leads from what stands at names: two dots take the last name away -/
def advance (names : List String) : Component → List String
  | .parent => names.dropLast
  | .name s => names ++ [s]
  | _ => names

end Component

namespace Path

/-- the parts between slashes -/
def parts (p : Path) : List String := Text.split '/' p.spelling

def isAbsolute (p : Path) : Bool := p.spelling.toList.head? == some '/'

def endsInSlash (p : Path) : Bool := p.spelling.toList.getLast? == some '/'

def component? (part : String) : Option Component :=
  if part = "" ∨ part = "." then none
  else if part = ".." then some .parent
  else some (.name part)

def components (p : Path) : List Component :=
  let inner := p.parts.filterMap component?
  if p.isAbsolute then .root :: inner
  else if p.parts.head? == some "." then .current :: inner
  else inner

/-- lexicographic order of components -/
def before : List Component → List Component → Bool
  | _, [] => false
  | [], _ :: _ => true
  | a :: as, b :: bs => a.lt b || (a == b && before as bs)

instance : LT Path := ⟨fun p q => before p.components q.components = true⟩
instance (p q : Path) : Decidable (p < q) := inferInstanceAs (Decidable (_ = true))

/-- a path and the name of something below it -/
def join (p : Path) (name : String) : Path :=
  if p.endsInSlash then ⟨p.spelling ++ name⟩ else ⟨p.spelling ++ "/" ++ name⟩

end Path
end TagTree
