import TagTree.Pattern.Class
import TagTree.Text.Alphanumeric

/-!
# The form of a pattern

A pattern is a regular expression.  It is read for its form only: whether its groups and classes are
closed, whether there is something to repeat before every repetition, whether its parts make sense
under the flags that hold for them, and how deep it is nested.  A pattern that is to be read here
contains no closing brace, so an opening brace, which counts repetitions, is never closed.

* `State.step_length_le`   every step reads the sign it starts from, so reading ends.
-/

namespace TagTree.Pattern

structure Part where
  depth : Nat := 0
  /-- it can be repeated -/
  repeatable : Bool := true
deriving DecidableEq

/-- a group that is being read: alternatives, each of which is a sequence of parts -/
structure Group where
  /-- the flags for what comes next -/
  flags : Flags := {}
  /-- the depths of the alternatives before the last one -/
  branches : List Nat := []
  /-- the parts of the last alternative, the last one first -/
  parts : List Part := []
deriving DecidableEq

namespace Group

def branch (g : Group) : Nat := depthOf (g.parts.map Part.depth)

def depth (g : Group) : Nat := depthOf (g.branch :: g.branches)

def add (g : Group) (p : Part) : Group := { g with parts := p :: g.parts }

def alternative (g : Group) : Group := { g with branches := g.branch :: g.branches, parts := [] }

def repeat? (g : Group) : Option Group :=
  match g.parts with
  | [] => none
  | p :: ps =>
    if p.repeatable then some { g with parts := { depth := p.depth + 1 } :: ps } else none

end Group

/-! ## groups -/

/-- names of groups start with a letter or an underscore -/
def isName : List Char → Bool
  | [] => false
  | c :: cs =>
    (c == '_' || Text.isAlphabetic c) && cs.all fun c =>
      c == '_' || c == '.' || c == '[' || c == ']' || Text.isAlphanumeric c

/-- the name of a group, and what follows the angle that closes it -/
def name? (cs : List Char) : Option (List Char × List Char) :=
  match cs.dropWhile (· != '>') with
  | [] => none
  | _ :: rest =>
    let name := cs.takeWhile (· != '>')
    if isName name then some (name, rest) else none

/-- what an opening parenthesis does -/
inductive Opening where
  /-- it opens a group with its own flags -/
  | group (flags : Flags)
  /-- it opens a group with a name -/
  | named (name : List Char)
  /-- it sets flags and is closed already -/
  | flags (flags : Flags)

/-- flags, and the colon or parenthesis that follows them -/
def flagged? (f : Flags) (cs : List Char) : Option (Opening × List Char) :=
  match flags? f [] cs with
  | some (g, ':' :: rest) => some (.group g, rest)
  | some (g, ')' :: rest) => some (.flags g, rest)
  | _ => none

def named? (cs : List Char) : Option (Opening × List Char) :=
  match name? cs with
  | none => none
  | some (name, rest) => some (.named name, rest)

/-- what follows an opening parenthesis -/
def opening? (f : Flags) (cs : List Char) : Option (Opening × List Char) :=
  match skip f cs with
  | '?' :: 'P' :: '<' :: rest => named? rest
  | '?' :: '<' :: rest => named? rest
  | '?' :: rest => flagged? f rest
  | rest => some (.group f, rest)

/-! ## single characters -/

/-- reads what stands for a character or for a place in the text: an escape, a dot, which stands for
all characters, the start or the end of a line, or a character that means itself -/
def atom? (f : Flags) (c : Char) (cs : List Char) : Option (List Char) :=
  if c = '\\' then
    match escape? f cs with
    | none => none
    | some (e, rest) => if e.isAllowed f then some rest else none
  else if c = '.' then if f.unicode then some cs else none
  else if c = '^' ∨ c = '$' then some cs
  else if c = '\x7b' then none
  else if (Escape.literal c.toNat false).isAllowed f then some cs
  else none

/-! ## reading -/

/-- how far a pattern was read -/
structure State where
  group : Group := {}
  /-- the groups around it, the innermost first -/
  outer : List Group := []
  /-- the names of groups -/
  names : List (List Char) := []
  /-- the open classes, the innermost first -/
  classes : List Class := []

namespace State

def flags (s : State) : Flags := s.group.flags

def add (s : State) (p : Part) : State := { s with group := s.group.add p }

def enter (s : State) (f : Flags) : State :=
  { s with group := { flags := f }, outer := s.group :: s.outer }

/-- after an opening parenthesis; a name can be given once -/
def open? (s : State) : Opening → Option State
  | .group f => some (s.enter f)
  | .named name =>
    if s.names.contains name then none
    else some { s.enter s.flags with names := name :: s.names }
  | .flags f => some { s.add { repeatable := false } with group.flags := f }

/-- after a closing parenthesis -/
def close? (s : State) : Option State :=
  match s.outer with
  | [] => none
  | g :: gs => some { s with group := g.add { depth := s.group.depth + 1 }, outer := gs }

/-- after the bracket that closes the class `c` in the classes `cs` -/
def closeClass (s : State) (c : Class) : List Class → State
  | [] => { s.add { depth := c.depth + 1 } with classes := [] }
  | d :: ds => { s with classes := d.add (c.depth + 1) :: ds }

/-- one step outside of classes, from a sign and what follows it -/
def outside (s : State) (c : Char) (cs : List Char) : Option (State × List Char) :=
  if c = '(' then
    match opening? s.flags cs with
    | none => none
    | some (o, rest) => (s.open? o).map (·, rest)
  else if c = ')' then s.close?.map (·, cs)
  else if c = '|' then some ({ s with group := s.group.alternative }, cs)
  else if c = '[' then (opened? s.flags cs).map ({ s with classes := [{}] }, ·)
  else if c = '*' ∨ c = '+' ∨ c = '?' then
    let rest := if cs.head? = some '?' then cs.tail else cs
    s.group.repeat?.map ({ s with group := · }, rest)
  else (atom? s.flags c cs).map (s.add {}, ·)

/-- one step in the class `d`, which lies in the classes `ds` -/
def inside (s : State) (d : Class) (ds : List Class) (c : Char) (cs : List Char) :
    Option (State × List Char) :=
  let stay (e : Class) : State := { s with classes := { e with fresh := false } :: ds }
  if c = '[' then
    match asciiClass? cs with
    | some (negated, rest) =>
      if isNamedMember s.flags negated then some (stay (d.add 0), rest) else none
    | none =>
      (opened? s.flags cs).map ({ s with classes := {} :: { d with fresh := false } :: ds }, ·)
  else if d.fresh && (c == '-' || c == ']' && d.members.isEmpty) then
    if isMember s.flags c.toNat then
      some ({ s with classes := { d.add 0 with fresh := c == '-' } :: ds }, cs)
    else none
  else if c = ']' then some (s.closeClass d ds, cs)
  else if (c = '&' ∨ c = '-' ∨ c = '~') ∧ cs.head? = some c then some (stay d.operator, cs.tail)
  else (member? s.flags (c :: cs)).map (stay (d.add 0), ·)

def step (s : State) (c : Char) (cs : List Char) : Option (State × List Char) :=
  match s.classes with
  | [] => s.outside c cs
  | d :: ds => s.inside d ds c cs

end State

theorem name?_length_le {cs n r : List Char} (h : name? cs = some (n, r)) :
    r.length ≤ cs.length := by
  have := length_dropWhile_le (· != '>') cs
  grind [name?]

theorem opening?_length_le {f : Flags} {o : Opening} {cs r : List Char}
    (h : opening? f cs = some (o, r)) : r.length ≤ cs.length := by
  have named {cs : List Char} (h : named? cs = some (o, r)) : r.length ≤ cs.length := by
    rw [named?] at h
    split at h
    · simp at h
    · next h' => have := name?_length_le h'; grind
  have flagged {cs : List Char} (h : flagged? f cs = some (o, r)) : r.length ≤ cs.length := by
    unfold flagged? at h
    split at h
    · next h' => have := flags?_length_le h'; grind
    · next h' => have := flags?_length_le h'; grind
    · simp at h
  have := skip_length_le f cs
  grind [opening?]

theorem atom?_length_le {f : Flags} {c : Char} {cs r : List Char} (h : atom? f c cs = some r) :
    r.length ≤ cs.length := by
  have he {e : Escape} {r : List Char} (h : escape? f cs = some (e, r)) : r.length < cs.length :=
    escape?_length_lt h
  grind [atom?]

theorem State.outside_length_le {s s' : State} {c : Char} {cs r : List Char}
    (h : s.outside c cs = some (s', r)) : r.length ≤ cs.length := by
  have hg {o : Opening} {r : List Char} (h : opening? s.flags cs = some (o, r)) :
      r.length ≤ cs.length := opening?_length_le h
  have hc {r : List Char} (h : opened? s.flags cs = some r) : r.length ≤ cs.length :=
    opened?_length_le h
  have ha {r : List Char} (h : atom? s.flags c cs = some r) : r.length ≤ cs.length :=
    atom?_length_le h
  grind [State.outside, Option.map_eq_some_iff]

theorem State.inside_length_le {s s' : State} {d : Class} {ds : List Class} {c : Char}
    {cs r : List Char} (h : s.inside d ds c cs = some (s', r)) : r.length ≤ cs.length := by
  have ha {b : Bool} {r : List Char} (h : asciiClass? cs = some (b, r)) : r.length < cs.length :=
    asciiClass?_length_lt h
  have hc {r : List Char} (h : opened? s.flags cs = some r) : r.length ≤ cs.length :=
    opened?_length_le h
  have hm {r : List Char} (h : member? s.flags (c :: cs) = some r) : r.length < cs.length + 1 :=
    member?_length_lt h
  grind [State.inside, Option.map_eq_some_iff]

/-- a step reads the sign that it starts from -/
theorem State.step_length_le {s s' : State} {c : Char} {cs r : List Char}
    (h : s.step c cs = some (s', r)) : r.length ≤ cs.length := by
  rw [State.step] at h
  split at h
  · exact State.outside_length_le h
  · exact State.inside_length_le h

/-- how far the text leads from a state -/
def run (s : State) (cs : List Char) : Option State :=
  match _h : skip s.flags cs with
  | [] => some s
  | c :: rest =>
    match _h' : s.step c rest with
    | none => none
    | some (s', rest') => run s' rest'
termination_by cs.length
decreasing_by
  have := skip_length_le s.flags cs
  have := State.step_length_le _h'
  simp_all
  omega

/-- nothing is nested deeper -/
def depthLimit : Nat := 250

/-- the text is a regular expression -/
def isWellFormed (cs : List Char) : Bool :=
  match run {} cs with
  | none => false
  | some s => s.classes.isEmpty && s.outer.isEmpty && s.group.depth ≤ depthLimit

end TagTree.Pattern
