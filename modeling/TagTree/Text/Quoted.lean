import TagTree.Text.Extending

/-!
# Quoted text

A text in double quotes in which every character can be seen: quotes and backslashes are escaped,
and so are characters without a visible form and those that would merge with the one before.
-/

namespace TagTree.Text

/-- the character is written by its code point -/
def needsCode (c : Char) : Bool :=
  if 0x20 ≤ c.toNat && c.toNat < 0x7F then false else isExtending c || !isPrintable c

def quoteChar (c : Char) : List Char :=
  match c with
  | '\x00' => ['\\', '0']
  | '\t' => ['\\', 't']
  | '\n' => ['\\', 'n']
  | '\r' => ['\\', 'r']
  | '"' => ['\\', '"']
  | '\\' => ['\\', '\\']
  | c => if needsCode c then '\\' :: 'u' :: '\x7b' :: (Nat.toDigits 16 c.toNat ++ ['\x7d']) else [c]

def quoted (s : String) : String :=
  String.ofList ('"' :: (s.toList.flatMap quoteChar ++ ['"']))

end TagTree.Text
