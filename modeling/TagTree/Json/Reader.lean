import TagTree.Json.Numeral
import TagTree.Text.Utf8
import TagTree.Text.Position

/-!
# Reading Json

The reader works on the bytes of a text.  Each scanner takes the unread bytes and gives a value
and the bytes after it, or a fault: what is wrong, and how many bytes are still unread at the place
where that is reported.  The place is right behind the byte that is at fault, or the end of the
text; only a number out of range is reported behind the number.

* `escape_shorter`   an escape is never empty, so reading a string ends.
-/

namespace TagTree.Json

/-- what can be wrong with a text -/
inductive Problem where
  | endInValue
  | endInArray
  | endInObject
  | endInString
  | expectedValue
  | expectedWord
  | expectedArrayEnd
  | expectedObjectEnd
  | expectedColon
  | trailingComma
  | trailingCharacters
  | keyNotString
  | controlCharacter
  | invalidEscape
  | loneSurrogate
  | endOfHexEscape
  | invalidNumber
  | numberOutOfRange
deriving DecidableEq

def Problem.message : Problem → String
  | .endInValue => "EOF while parsing a value"
  | .endInArray => "EOF while parsing a list"
  | .endInObject => "EOF while parsing an object"
  | .endInString => "EOF while parsing a string"
  | .expectedValue => "expected value"
  | .expectedWord => "expected ident"
  | .expectedArrayEnd => "expected `,` or `]`"
  | .expectedObjectEnd => "expected `,` or `\x7d`"
  | .expectedColon => "expected `:`"
  | .trailingComma => "trailing comma"
  | .trailingCharacters => "trailing characters"
  | .keyNotString => "key must be a string"
  | .controlCharacter => "control character (\\u0000-\\u001F) found while parsing a string"
  | .invalidEscape => "invalid escape"
  | .loneSurrogate => "lone leading surrogate in hex escape"
  | .endOfHexEscape => "unexpected end of hex escape"
  | .invalidNumber => "invalid number"
  | .numberOutOfRange => "number out of range"

abbrev Bytes := List UInt8

structure Fault where
  problem : Problem
  /-- bytes of the text that follow the reported place -/
  left : Nat
deriving DecidableEq

/-- a fault in front of `rest` -/
def Problem.before (p : Problem) (rest : Bytes) : Fault := ⟨p, rest.length⟩

/-- a fault behind the first byte of `rest`, or at the end -/
def Problem.behind (p : Problem) (rest : Bytes) : Fault := ⟨p, rest.length - 1⟩

namespace Reader

/-! ## characters -/

namespace Ascii

abbrev quote : UInt8 := 0x22
abbrev backslash : UInt8 := 0x5C
abbrev openBracket : UInt8 := 0x5B
abbrev closeBracket : UInt8 := 0x5D
abbrev openBrace : UInt8 := 0x7B
abbrev closeBrace : UInt8 := 0x7D
abbrev comma : UInt8 := 0x2C
abbrev colon : UInt8 := 0x3A
abbrev minus : UInt8 := 0x2D
abbrev plus : UInt8 := 0x2B
abbrev point : UInt8 := 0x2E
abbrev zero : UInt8 := 0x30
abbrev lowerU : UInt8 := 0x75

end Ascii

/-- space, newline, tab and carriage return -/
def isBlank (b : UInt8) : Bool := b == 0x20 || b == 0x0A || b == 0x09 || b == 0x0D

def skip (s : Bytes) : Bytes := s.dropWhile isBlank

def isDigit (b : UInt8) : Bool := 0x30 ≤ b && b ≤ 0x39

def digitValue (b : UInt8) : Nat := b.toNat - 0x30

def hexValue? (b : UInt8) : Option Nat :=
  if isDigit b then some (digitValue b)
  else if 0x61 ≤ b && b ≤ 0x66 then some (b.toNat - 0x61 + 10)
  else if 0x41 ≤ b && b ≤ 0x46 then some (b.toNat - 0x41 + 10)
  else none

/-! ## strings -/

/-- four hexadecimal digits; a text that ends before them is read to its end -/
def hexFour : Bytes → Except Fault (Nat × Bytes)
  | a :: b :: c :: d :: rest =>
    match hexValue? a, hexValue? b, hexValue? c, hexValue? d with
    | some a, some b, some c, some d => .ok (((a * 16 + b) * 16 + c) * 16 + d, rest)
    | _, _, _, _ => .error (Problem.invalidEscape.before rest)
  | _ => .error (Problem.endInString.before [])

/-- the byte that must follow the first half of a surrogate pair -/
def hexEscapeByte (expected : UInt8) : Bytes → Except Fault Bytes
  | [] => .error (Problem.endInString.before [])
  | b :: rest => if b = expected then .ok rest else .error (Problem.endOfHexEscape.before rest)

def isHighSurrogate (n : Nat) : Bool := 0xD800 ≤ n && n < 0xDC00
def isLowSurrogate (n : Nat) : Bool := 0xDC00 ≤ n && n < 0xE000

/-- the rest of a `\u` escape, as the bytes of its character -/
def unicodeEscape (s : Bytes) : Except Fault (Bytes × Bytes) := do
  let (n, s) ← hexFour s
  if isLowSurrogate n then .error (Problem.loneSurrogate.before s)
  else if isHighSurrogate n then
    let s ← hexEscapeByte Ascii.backslash s
    let s ← hexEscapeByte Ascii.lowerU s
    let (m, s) ← hexFour s
    if isLowSurrogate m then
      .ok (Text.charBytes (Char.ofNat (0x10000 + (n - 0xD800) * 0x400 + (m - 0xDC00))), s)
    else .error (Problem.loneSurrogate.before s)
  else .ok (Text.charBytes (Char.ofNat n), s)

/-- the character named by one letter after a backslash -/
def letterEscape? (b : UInt8) : Option UInt8 :=
  if b = Ascii.quote ∨ b = Ascii.backslash ∨ b = 0x2F then some b
  else if b = 0x62 then some 0x08
  else if b = 0x66 then some 0x0C
  else if b = 0x6E then some 0x0A
  else if b = 0x72 then some 0x0D
  else if b = 0x74 then some 0x09
  else none

/-- an escape after its backslash -/
def escape : Bytes → Except Fault (Bytes × Bytes)
  | [] => .error (Problem.endInString.before [])
  | b :: rest =>
    match letterEscape? b with
    | some c => .ok ([c], rest)
    | none =>
      if b = Ascii.lowerU then unicodeEscape rest
      else .error (Problem.invalidEscape.before rest)

theorem hexFour_shorter {s r : Bytes} {n : Nat} (h : hexFour s = .ok (n, r)) :
    r.length < s.length := by
  unfold hexFour at h
  split at h
  · split at h
    · cases h; simp only [List.length_cons]; omega
    · cases h
  · cases h

theorem hexEscapeByte_shorter {b : UInt8} {s r : Bytes} (h : hexEscapeByte b s = .ok r) :
    r.length < s.length := by
  unfold hexEscapeByte at h
  split at h
  · cases h
  · split at h
    · cases h; simp
    · cases h

theorem unicodeEscape_shorter {s r c : Bytes} (h : unicodeEscape s = .ok (c, r)) :
    r.length < s.length := by
  simp only [unicodeEscape, bind, Except.bind] at h
  split at h
  · cases h
  · next p h₁ =>
    have h₁ := hexFour_shorter h₁
    split at h
    · cases h
    · split at h
      · split at h
        · cases h
        · next h₂ =>
          have h₂ := hexEscapeByte_shorter h₂
          split at h
          · cases h
          · next h₃ =>
            have h₃ := hexEscapeByte_shorter h₃
            split at h
            · cases h
            · next h₄ =>
              have h₄ := hexFour_shorter h₄
              split at h
              · rw [Except.ok.injEq, Prod.mk.injEq] at h
                rw [← h.2]
                omega
              · cases h
      · rw [Except.ok.injEq, Prod.mk.injEq] at h
        rw [← h.2]
        omega

theorem escape_shorter {s r c : Bytes} (h : escape s = .ok (c, r)) : r.length < s.length := by
  unfold escape at h
  split at h
  · cases h
  · split at h
    · cases h; simp
    · split at h
      · have := unicodeEscape_shorter h
        simp only [List.length_cons]
        omega
      · cases h

/-- the bytes of a string after its opening quote, behind those already read in reverse -/
def stringBody (read : Bytes) (s : Bytes) : Except Fault (Bytes × Bytes) :=
  match s with
  | [] => .error (Problem.endInString.before [])
  | b :: rest =>
    if b = Ascii.quote then .ok (read.reverse, rest)
    else if b = Ascii.backslash then
      match h : escape rest with
      | .ok (c, r) =>
        have := escape_shorter h
        stringBody (c.reverse ++ read) r
      | .error e => .error e
    else if b < 0x20 then .error (Problem.controlCharacter.before rest)
    else stringBody (b :: read) rest
termination_by s.length
decreasing_by all_goals simp only [List.length_cons]; omega

/-- a string after its opening quote; the bytes of a text are always well formed here -/
def string (s : Bytes) : Except Fault (String × Bytes) := do
  let (bs, s) ← stringBody [] s
  .ok ((Text.ofBytes? bs).getD "", s)

/-! ## numbers and words -/

def digits (s : Bytes) : List Nat × Bytes := ((s.takeWhile isDigit).map digitValue, s.dropWhile isDigit)

/-- the digits in front of the point; zero stands alone -/
def wholePart : Bytes → Except Fault (List Nat × Bytes)
  | [] => .error (Problem.endInValue.before [])
  | b :: rest =>
    if b = Ascii.zero then
      match rest with
      | c :: _ => if isDigit c then .error (Problem.invalidNumber.behind rest) else .ok ([0], rest)
      | [] => .ok ([0], rest)
    else if isDigit b then
      let (ds, rest) := digits rest
      .ok (digitValue b :: ds, rest)
    else .error (Problem.invalidNumber.before rest)

/-- a point and at least one digit, or nothing -/
def fractionPart : Bytes → Except Fault (List Nat × Bytes)
  | [] => .ok ([], [])
  | b :: rest =>
    if b = Ascii.point then
      match digits rest with
      | ([], []) => .error (Problem.endInValue.behind [])
      | ([], r) => .error (Problem.invalidNumber.behind r)
      | (ds, r) => .ok (ds, r)
    else .ok ([], b :: rest)

/-- the sign of an exponent (true is minus) and what follows it -/
def exponentSign : Bytes → Bool × Bytes
  | [] => (false, [])
  | b :: rest =>
    if b = Ascii.plus then (false, rest)
    else if b = Ascii.minus then (true, rest)
    else (false, b :: rest)

/-- `e` or `E`, a sign if there is one, and at least one digit; or nothing -/
def exponentPart : Bytes → Except Fault (Option (Bool × List Nat) × Bytes)
  | [] => .ok (none, [])
  | b :: rest =>
    if b = 0x65 ∨ b = 0x45 then
      match exponentSign rest with
      | (_, []) => .error (Problem.endInValue.before [])
      | (down, c :: r) =>
        if isDigit c then
          let (ds, r) := digits r
          .ok (some (down, digitValue c :: ds), r)
        else .error (Problem.invalidNumber.before r)
    else .ok (none, b :: rest)

def numeral (negative : Bool) (s : Bytes) : Except Fault (Numeral × Bytes) := do
  let (whole, s) ← wholePart s
  let (fraction, s) ← fractionPart s
  let (exponent, s) ← exponentPart s
  .ok (⟨negative, whole, fraction, exponent⟩, s)

/-- a number after its sign -/
def number (negative : Bool) (s : Bytes) : Except Fault (Number × Bytes) := do
  let (x, s) ← numeral negative s
  match x.value with
  | .ok n => .ok (n, s)
  | .error unread => .error ⟨.numberOutOfRange, s.length + unread⟩

/-- the remaining letters of `null`, `true` or `false` -/
def word : (expected : Bytes) → Bytes → Except Fault Bytes
  | [], s => .ok s
  | _ :: _, [] => .error (Problem.endInValue.before [])
  | e :: es, b :: rest => if b = e then word es rest else .error (Problem.expectedWord.before rest)

/-- a value that is not an array or object, by its first byte -/
def scalar (b : UInt8) (rest : Bytes) : Except Fault (Json × Bytes) :=
  if b = Ascii.quote then do
    let (s, r) ← string rest
    .ok (.string s, r)
  else if b = Ascii.minus then do
    let (n, r) ← number true rest
    .ok (.number n, r)
  else if isDigit b then do
    let (n, r) ← number false (b :: rest)
    .ok (.number n, r)
  else if b = 0x6E then do
    let r ← word [0x75, 0x6C, 0x6C] rest
    .ok (.null, r)
  else if b = 0x74 then do
    let r ← word [0x72, 0x75, 0x65] rest
    .ok (.bool true, r)
  else if b = 0x66 then do
    let r ← word [0x61, 0x6C, 0x73, 0x65] rest
    .ok (.bool false, r)
  else .error (Problem.expectedValue.behind (b :: rest))

/-! ## values -/

/-- a key and its colon, from the opening quote on; `atEnd` is what the end of the text means -/
def key (atEnd : Problem) (s : Bytes) : Except Fault (String × Bytes) :=
  match s with
  | [] => .error (atEnd.behind [])
  | b :: rest =>
    if b = Ascii.quote then do
      let (k, r) ← string rest
      match skip r with
      | [] => .error (Problem.endInObject.behind [])
      | c :: r => if c = Ascii.colon then .ok (k, r) else .error (Problem.expectedColon.behind (c :: r))
    else .error (Problem.keyNotString.behind s)

mutual

/-- one value; the fuel bounds the number of values and separators still to come -/
def value : Nat → Bytes → Except Fault (Json × Bytes)
  | 0, s => .error (Problem.endInValue.behind s)
  | fuel + 1, s =>
    match skip s with
    | [] => .error (Problem.endInValue.behind [])
    | b :: rest =>
      if b = Ascii.openBracket then
        match skip rest with
        | [] => .error (Problem.endInArray.behind [])
        | c :: r =>
          if c = Ascii.closeBracket then .ok (.array [], r)
          else items fuel [] (c :: r)
      else if b = Ascii.openBrace then
        match skip rest with
        | [] => .error (Problem.endInObject.behind [])
        | c :: r =>
          if c = Ascii.closeBrace then .ok (.object [], r)
          else fields fuel [] .endInObject (c :: r)
      else scalar b rest

/-- the elements of an array from the next one on, behind those already read in reverse -/
def items : Nat → List Json → Bytes → Except Fault (Json × Bytes)
  | 0, _, s => .error (Problem.endInValue.behind s)
  | fuel + 1, read, s => do
    let (x, s) ← value fuel s
    match skip s with
    | [] => .error (Problem.endInArray.behind [])
    | c :: r =>
      if c = Ascii.closeBracket then .ok (.array (x :: read).reverse, r)
      else if c = Ascii.comma then
        match skip r with
        | [] => .error (Problem.endInValue.behind [])
        | d :: r =>
          if d = Ascii.closeBracket then .error (Problem.trailingComma.behind (d :: r))
          else items fuel (x :: read) (d :: r)
      else .error (Problem.expectedArrayEnd.behind (c :: r))

/-- the fields of an object from the next one on, added to those already read -/
def fields : Nat → List (String × Json) → Problem → Bytes → Except Fault (Json × Bytes)
  | 0, _, _, s => .error (Problem.endInValue.behind s)
  | fuel + 1, read, atEnd, s => do
    let (k, s) ← key atEnd s
    let (x, s) ← value fuel s
    match skip s with
    | [] => .error (Problem.endInObject.behind [])
    | c :: r =>
      if c = Ascii.closeBrace then .ok (.object (insertField k x read), r)
      else if c = Ascii.comma then
        match skip r with
        | [] => .error (Problem.endInValue.behind [])
        | d :: r =>
          if d = Ascii.closeBrace then .error (Problem.trailingComma.behind (d :: r))
          else fields fuel (insertField k x read) .endInValue (d :: r)
      else .error (Problem.expectedObjectEnd.behind (c :: r))

end

/-- one value and blanks around it -/
def document (s : Bytes) : Except Fault Json := do
  let (x, s) ← value (2 * s.length + 2) s
  match skip s with
  | [] => .ok x
  | r => .error (Problem.trailingCharacters.behind r)

end Reader

/-! ## texts -/

structure ReadError where
  problem : Problem
  position : Text.Position
  /-- the byte that a report points at -/
  offset : Nat
deriving DecidableEq

def ReadError.message (e : ReadError) : String :=
  s!"{e.problem.message} at line {e.position.line} column {e.position.column}"

/-- the fault of a text, with its place as line and column -/
def Fault.locate (text : Bytes) (f : Fault) : ReadError :=
  let p := Text.position text (text.length - f.left)
  ⟨f.problem, p, Text.offset text p.line p.column⟩

def read (text : String) : Except ReadError Json :=
  let bs := Text.bytes text
  (Reader.document bs).mapError (Fault.locate bs)

end TagTree.Json
