import TagTree.Pattern.Flags

/-!
# Escapes in a pattern

A backslash takes the meaning of a sign, or gives one to a letter.  Nothing is known here of the
characters beyond ASCII: their properties (`\p`) cannot be asked for, the classes of digits, blanks
and words (`\d`, `\s`, `\w`) exist for bytes only, and so do the edges of words (`\b`).

* `escape?_length_lt`   an escape is never empty.
-/

namespace TagTree.Pattern

inductive Escape where
  /-- a character; `byte` tells that it was written as a byte -/
  | literal (code : Nat) (byte : Bool)
  /-- one of the classes of digits, blanks and words, or all but it -/
  | shorthand (negated : Bool)
  /-- an edge of a word, or no edge of a word -/
  | wordEdge
  /-- the start or the end of the text -/
  | textEdge
deriving DecidableEq

def hexDigit? (c : Char) : Option Nat :=
  if c.isDigit then some (c.toNat - '0'.toNat)
  else if 'a' ≤ c ∧ c ≤ 'f' then some (c.toNat - 'a'.toNat + 10)
  else if 'A' ≤ c ∧ c ≤ 'F' then some (c.toNat - 'A'.toNat + 10)
  else none

/-- the number written by the next `n` hexadecimal digits, with `m` before them -/
def hex? (f : Flags) (m : Nat) : Nat → List Char → Option (Nat × List Char)
  | 0, cs => some (m, cs)
  | n + 1, cs => match skip f cs with
    | [] => none
    | c :: cs => match hexDigit? c with
      | none => none
      | some d => hex? f (m * 16 + d) n cs

/-- a character by `n` hexadecimal digits -/
def coded? (f : Flags) (n : Nat) (cs : List Char) : Option (Escape × List Char) :=
  match hex? f 0 n cs with
  | none => none
  | some (m, cs) => if Nat.isValidChar m then some (.literal m (n == 2), cs) else none

/-- what one character after a backslash stands for; signs stand for themselves -/
def ofLetter? (c : Char) : Option Escape :=
  if c = 'd' ∨ c = 's' ∨ c = 'w' then some (.shorthand false)
  else if c = 'D' ∨ c = 'S' ∨ c = 'W' then some (.shorthand true)
  else if c = 'b' ∨ c = 'B' ∨ c = '<' ∨ c = '>' then some .wordEdge
  else if c = 'A' ∨ c = 'z' then some .textEdge
  else if c = 'a' then some (.literal 0x07 false)
  else if c = 't' then some (.literal 0x09 false)
  else if c = 'n' then some (.literal 0x0A false)
  else if c = 'v' then some (.literal 0x0B false)
  else if c = 'f' then some (.literal 0x0C false)
  else if c = 'r' then some (.literal 0x0D false)
  else if c.toNat < 0x80 ∧ c.isAlphanum = false then some (.literal c.toNat false)
  else none

/-- an escape after its backslash -/
def escape? (f : Flags) : List Char → Option (Escape × List Char)
  | [] => none
  | c :: cs =>
    if c = 'x' then coded? f 2 cs
    else if c = 'u' then coded? f 4 cs
    else if c = 'U' then coded? f 8 cs
    else match ofLetter? c with
      | none => none
      | some e => some (e, cs)

/-- whether the escape makes sense outside of brackets -/
def Escape.isAllowed (f : Flags) : Escape → Bool
  | .literal code byte => if f.unicode then !f.anyCase else code < 0x80 || !byte
  | .shorthand negated => !f.unicode && !negated
  | .wordEdge => !f.unicode
  | .textEdge => true

theorem hex?_length_le {f : Flags} {n m k : Nat} {cs r : List Char}
    (h : hex? f m n cs = some (k, r)) : r.length ≤ cs.length := by
  induction n generalizing m cs with
  | zero => grind [hex?]
  | succ n ih =>
    have := skip_length_le f cs
    grind [hex?]

theorem escape?_length_lt {f : Flags} {e : Escape} {cs r : List Char}
    (h : escape? f cs = some (e, r)) : r.length < cs.length := by
  have coded {n : Nat} {cs : List Char} (h : coded? f n cs = some (e, r)) :
      r.length ≤ cs.length := by
    rw [coded?] at h
    split at h
    · simp at h
    · next h' => have := hex?_length_le h'; grind
  cases cs <;> grind [escape?]

end TagTree.Pattern
