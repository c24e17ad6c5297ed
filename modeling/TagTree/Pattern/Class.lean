import TagTree.Pattern.Escape

/-!
# Classes in a pattern

A class stands in brackets.  Its members are characters, ranges of them, named classes and further
classes; operators between its members join what is before them with what is behind them.  Of a
class that is being read only the depth of its parts is kept.

A class of bytes must not reach beyond ASCII, so it is never a complement; and since the cases of
characters are not known, a class in which case does not matter has no characters in it.

* `asciiClass?_length_lt`, `member?_length_lt`   a member is never empty.
-/

namespace TagTree.Pattern

/-- the depth of parts side by side, of which one alone counts as itself -/
def depthOf : List Nat → Nat
  | [] => 0
  | [d] => d
  | ds => ds.foldl max 0 + 1

structure Class where
  /-- nothing but dashes stands before -/
  fresh : Bool := true
  /-- the depth of what stands before the last operator -/
  left : Option Nat := none
  /-- the depths of the members behind it -/
  members : List Nat := []
deriving DecidableEq

namespace Class

def depth (c : Class) : Nat :=
  match c.left with
  | none => depthOf c.members
  | some l => max l (depthOf c.members) + 1

/-- one more member, of some depth -/
def add (c : Class) (depth : Nat) : Class := { c with members := depth :: c.members }

def operator (c : Class) : Class := { c with left := some c.depth, members := [] }

end Class

/-! ## members -/

def isMember (f : Flags) (code : Nat) : Bool := if f.unicode then !f.anyCase else code < 0x80

def asciiClasses : List String :=
  ["alnum", "alpha", "ascii", "blank", "cntrl", "digit", "graph", "lower", "print", "punct",
    "space", "upper", "word", "xdigit"]

/-- a named class after its bracket, such as `[:alpha:]`; a caret before the name negates it -/
def asciiClass? : List Char → Option (Bool × List Char)
  | ':' :: cs =>
    let negated := cs.head? == some '^'
    let cs := if negated then cs.tail else cs
    match cs.dropWhile (· != ':') with
    | ':' :: ']' :: rest =>
      if asciiClasses.contains (String.ofList (cs.takeWhile (· != ':'))) then some (negated, rest)
      else none
    | _ => none
  | _ => none

def isNamedMember (f : Flags) (negated : Bool) : Bool := if f.unicode then !f.anyCase else !negated

/-- a character or an escape -/
def item? (f : Flags) : List Char → Option (Escape × List Char)
  | [] => none
  | c :: cs => if c = '\\' then escape? f cs else some (.literal c.toNat false, cs)

/-- whether the escape can be in a class by itself -/
def Escape.isMember (f : Flags) : Escape → Bool
  | .literal code _ => Pattern.isMember f code
  | .shorthand negated => !f.unicode && !negated
  | .wordEdge => false
  | .textEdge => false

def isRange (f : Flags) : Escape → Escape → Bool
  | .literal a _, .literal b _ => a ≤ b && isMember f a && isMember f b
  | _, _ => false

/-- reads a member that is a single item or a range.  A dash before the end of the class and before
another dash makes no range. -/
def member? (f : Flags) (cs : List Char) : Option (List Char) :=
  match item? f cs with
  | none => none
  | some (a, cs) => match skip f cs with
    | '-' :: rest =>
      if ahead f rest = some ']' ∨ ahead f rest = some '-' then
        if a.isMember f then some ('-' :: rest) else none
      else match item? f (skip f rest) with
        | none => none
        | some (b, rest) => if isRange f a b then some rest else none
    | rest => if a.isMember f then some rest else none

/-- the start of a class after its bracket: a caret makes the complement of the class -/
def opened? (f : Flags) (cs : List Char) : Option (List Char) :=
  match skip f cs with
  | '^' :: rest => if f.unicode then some rest else none
  | rest => some rest

theorem length_dropWhile_le (p : Char → Bool) (cs : List Char) :
    (cs.dropWhile p).length ≤ cs.length := by
  induction cs with
  | nil => simp
  | cons c cs ih => grind [List.dropWhile_cons]

theorem asciiClass?_length_lt {b : Bool} {cs r : List Char} (h : asciiClass? cs = some (b, r)) :
    r.length < cs.length := by
  unfold asciiClass? at h
  split at h
  · next cs =>
    have := length_dropWhile_le (· != ':') cs
    have := length_dropWhile_le (· != ':') cs.tail
    have := cs.length_tail
    grind
  · simp at h

theorem item?_length_lt {f : Flags} {e : Escape} {cs r : List Char}
    (h : item? f cs = some (e, r)) : r.length < cs.length := by
  cases cs with
  | nil => simp [item?] at h
  | cons c cs =>
    rw [item?] at h
    split at h
    · have := escape?_length_lt h; grind
    · grind

theorem member?_length_lt {f : Flags} {cs r : List Char} (h : member? f cs = some r) :
    r.length < cs.length := by
  unfold member? at h
  split at h
  · simp at h
  · next a cs' h₁ =>
    have h₁ := item?_length_lt h₁
    have h₂ := skip_length_le f cs'
    split at h
    · next rest e =>
      rw [e] at h₂
      have h₃ := skip_length_le f rest
      split at h
      · grind
      · split at h
        · simp at h
        · next h₄ => have h₄ := item?_length_lt h₄; grind
    · grind

theorem opened?_length_le {f : Flags} {cs r : List Char} (h : opened? f cs = some r) :
    r.length ≤ cs.length := by
  have := skip_length_le f cs
  grind [opened?]

end TagTree.Pattern
