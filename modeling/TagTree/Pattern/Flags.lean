import TagTree.Text.Blank

/-!
# Flags of a pattern

Flags stand after a question mark in parentheses.  They hold for the group that the parentheses
open, or, if these hold nothing else, for the rest of the group they stand in.  A dash turns off
the flags behind it.

* `skip_length_le`, `flags?_length_le`   what is left of a text is not longer than the text.
-/

namespace TagTree.Pattern

/-- the flags on which it depends whether a pattern makes sense -/
structure Flags where
  /-- blanks and comments between the parts of a pattern are skipped -/
  spaced : Bool := false
  /-- upper and lower case are the same -/
  anyCase : Bool := false
  /-- a pattern is about characters and not about bytes -/
  unicode : Bool := true
deriving DecidableEq

namespace Flags

def set (f : Flags) (name : Char) (on : Bool) : Flags :=
  if name = 'x' then { f with spaced := on }
  else if name = 'i' then { f with anyCase := on }
  else if name = 'u' then { f with unicode := on }
  else f

end Flags

/-- the flags that there are, and the dash -/
def flagNames : List Char := ['i', 'm', 's', 'U', 'u', 'R', 'x', '-']

/-- reads flags up to a colon or a closing parenthesis, which is left; `seen` are those before, the
last one first.  None stands twice, a dash is followed by a flag, and parentheses are not empty. -/
def flags? (f : Flags) (seen : List Char) : List Char → Option (Flags × List Char)
  | [] => none
  | c :: cs =>
    if c = ':' ∨ c = ')' then
      if seen.head? = some '-' ∨ (c = ')' ∧ seen.isEmpty) then none else some (f, c :: cs)
    else if flagNames.contains c && !seen.contains c then
      flags? (f.set c (!seen.contains '-')) (c :: seen) cs
    else none

/-! ## blanks and comments -/

/-- drops blanks, and comments from a number sign to the end of the line -/
def skipBlanks (comment : Bool) : List Char → List Char
  | [] => []
  | c :: cs =>
    if comment then skipBlanks (c != '\n') cs
    else if Text.isBlank c then skipBlanks false cs
    else if c = '#' then skipBlanks true cs
    else c :: cs

def skip (f : Flags) (cs : List Char) : List Char := if f.spaced then skipBlanks false cs else cs

/-- the next sign of a spaced pattern; one number sign is passed over like a blank -/
def ahead (f : Flags) (cs : List Char) : Option Char :=
  if f.spaced then
    match cs.dropWhile Text.isBlank with
    | '#' :: cs => (cs.dropWhile Text.isBlank).head?
    | cs => cs.head?
  else cs.head?

theorem skipBlanks_length_le (b : Bool) (cs : List Char) :
    (skipBlanks b cs).length ≤ cs.length := by
  induction cs generalizing b with
  | nil => simp [skipBlanks]
  | cons c cs ih => grind [skipBlanks]

theorem skip_length_le (f : Flags) (cs : List Char) : (skip f cs).length ≤ cs.length := by
  rw [skip]
  split
  · exact skipBlanks_length_le false cs
  · exact Nat.le_refl _

theorem flags?_length_le {f g : Flags} {seen cs r : List Char}
    (h : flags? f seen cs = some (g, r)) : r.length ≤ cs.length := by
  induction cs generalizing f seen with
  | nil => simp [flags?] at h
  | cons c cs ih => grind [flags?]

end TagTree.Pattern
