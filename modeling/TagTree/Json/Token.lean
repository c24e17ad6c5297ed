import TagTree.Json.Basic
import TagTree.Decimal.Layout

/-!
# Json as tokens

A value is a sequence of tokens, whatever blanks stand between them; `compact` writes none.
The token list is built back to front, onto the tokens that follow.
-/

namespace TagTree.Json

inductive Token where
  | openArray
  | closeArray
  | openObject
  | closeObject
  | comma
  | colon
  | null
  | bool (b : Bool)
  | number (n : Number)
  | string (s : String)
deriving DecidableEq

/-! ## the text of a token -/

/-- two hexadecimal digits, lower case -/
def hexPair (n : Nat) : List Char := [Nat.digitChar (n / 16 % 16), Nat.digitChar (n % 16)]

/-- quotes, backslashes and control characters are escaped, nothing else is -/
def escapeChar (c : Char) : List Char :=
  match c with
  | '"' => ['\\', '"']
  | '\\' => ['\\', '\\']
  | '\x08' => ['\\', 'b']
  | '\x0c' => ['\\', 'f']
  | '\n' => ['\\', 'n']
  | '\r' => ['\\', 'r']
  | '\t' => ['\\', 't']
  | c => if c.toNat < 0x20 then '\\' :: 'u' :: '0' :: '0' :: hexPair c.toNat else [c]

def quote (s : String) : String :=
  String.ofList ('"' :: (s.toList.flatMap escapeChar ++ ['"']))

/-- doubles between `1e-5` and `1e16` are written out, with a fraction in any case -/
def doubles : Decimal.Layout := ⟨.toEven, fun e => -5 ≤ e && e ≤ 15, true⟩

end Json

def Number.text : Number → String
  | .natural n _ => String.ofList (Nat.toDigits 10 n)
  | .negative n _ _ => String.ofList ('-' :: Nat.toDigits 10 n)
  | .double x _ => Json.doubles.text x

namespace Json

def Token.text : Token → String
  | .openArray => "["
  | .closeArray => "]"
  | .openObject => "\x7b"
  | .closeObject => "\x7d"
  | .comma => ","
  | .colon => ":"
  | .null => "null"
  | .bool true => "true"
  | .bool false => "false"
  | .number n => n.text
  | .string s => quote s

/-! ## the tokens of a value -/

mutual

/-- the tokens of a value, in front of those that follow it -/
def onto : Json → List Token → List Token
  | .null, k => .null :: k
  | .bool b, k => .bool b :: k
  | .number n, k => .number n :: k
  | .string s, k => .string s :: k
  | .array [], k => .openArray :: .closeArray :: k
  | .array (x :: xs), k => .openArray :: x.onto (itemsOnto xs (.closeArray :: k))
  | .object [], k => .openObject :: .closeObject :: k
  | .object ((key, x) :: xs), k =>
    .openObject :: .string key :: .colon :: x.onto (fieldsOnto xs (.closeObject :: k))

/-- further elements, each after a comma -/
def itemsOnto : List Json → List Token → List Token
  | [], k => k
  | x :: xs, k => .comma :: x.onto (itemsOnto xs k)

/-- further fields, each after a comma -/
def fieldsOnto : List (String × Json) → List Token → List Token
  | [], k => k
  | (key, x) :: xs, k => .comma :: .string key :: .colon :: x.onto (fieldsOnto xs k)

end

def tokens (j : Json) : List Token := j.onto []

/-- the text of a value without blanks -/
def compact (j : Json) : String := String.join (j.tokens.map Token.text)

end TagTree.Json
