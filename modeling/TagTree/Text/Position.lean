/-!
# Lines and columns of bytes

Lines are counted from one; a column is the number of bytes since the last newline, so it is zero
right after one.  `offset` goes back from a line and a column to a byte: to the byte BEFORE the
position, or to the start of the line.

* `offset_le`   an offset never leaves the text.
-/

namespace TagTree.Text

structure Position where
  line : Nat
  column : Nat
deriving DecidableEq

def newline : UInt8 := 10

/-- where one stands after the first `p` bytes -/
def position (text : List UInt8) (p : Nat) : Position where
  line := 1 + (text.take p).count newline
  column := ((text.take p).reverse.takeWhile (· != newline)).length

def lineLength (text : List UInt8) : Nat :=
  let n := (text.takeWhile (· != newline)).length
  match text.dropWhile (· != newline) with
  | [] => n
  | _ :: _ => n + 1

/-- the byte offset of a position; a column past the line stops at its end and a line past the
text at the end of the text -/
def offset (text : List UInt8) : (line column : Nat) → Nat
  | 0, _ => 0
  | 1, column => min (column - 1) (lineLength text)
  | line + 2, column =>
    let n := lineLength text
    n + offset (text.drop n) (line + 1) column

theorem lineLength_le (text : List UInt8) : lineLength text ≤ text.length := by
  have h : (text.takeWhile (· != newline)).length + (text.dropWhile (· != newline)).length =
      text.length := by
    rw [← List.length_append, List.takeWhile_append_dropWhile]
  unfold lineLength
  dsimp only
  split
  · omega
  · next h' =>
    rw [h', List.length_cons] at h
    omega

theorem offset_le (text : List UInt8) (line column : Nat) : offset text line column ≤ text.length := by
  induction line generalizing text with
  | zero => simp [offset]
  | succ n ih =>
    have hl := lineLength_le text
    cases n with
    | zero => simp only [offset]; omega
    | succ n =>
      have := ih (text.drop (lineLength text))
      rw [List.length_drop] at this
      simp only [offset]
      omega

end TagTree.Text
