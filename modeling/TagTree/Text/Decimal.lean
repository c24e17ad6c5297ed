import TagTree.Text.Natural

/-!
# Decimal numbers in text

Digits with a point among them, in front of them or behind them, and an exponent that may follow.
-/

namespace TagTree.Text

/-- an exponent or nothing -/
def isExponent : List Char → Bool
  | [] => true
  | e :: cs =>
    let ds := match cs with
      | '+' :: ds => ds
      | '-' :: ds => ds
      | ds => ds
    (e == 'e' || e == 'E') && !ds.isEmpty && ds.all Char.isDigit

/-- a decimal number without sign: digits before or after a point, and perhaps an exponent, or a
word for what is no finite number -/
def isMagnitude (cs : List Char) : Bool :=
  let word := cs.map Char.toLower
  if word = "inf".toList ∨ word = "infinity".toList ∨ word = "nan".toList then true
  else
    let whole := cs.takeWhile Char.isDigit
    match cs.dropWhile Char.isDigit with
    | '.' :: rest =>
      (!whole.isEmpty || rest.head?.any Char.isDigit) && isExponent (rest.dropWhile Char.isDigit)
    | rest => !whole.isEmpty && isExponent rest

def isDecimal : List Char → Bool
  | '+' :: cs => isMagnitude cs
  | '-' :: cs => isMagnitude cs
  | cs => isMagnitude cs

end TagTree.Text
