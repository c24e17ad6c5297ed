import TagTree.Json.Token

/-!
# Json on several lines

Every element and field stands on a line of its own, two blanks deeper than what holds it; an
empty array or object stays closed up.  The layout adds lines and blanks to the tokens of a value
and changes none of them.

* `tokens_layout`   the tokens of the layout are the tokens of the value, in the same order.
-/

namespace TagTree.Json

/-- a token, or the blanks between two tokens -/
inductive Piece where
  | token (t : Token)
  | line (level : Nat)
  | blank

def Piece.text : Piece → String
  | .token t => t.text
  | .line level => String.ofList ('\n' :: List.replicate (2 * level) ' ')
  | .blank => " "

def Piece.token? : Piece → Option Token
  | .token t => some t
  | _ => none

mutual

/-- the pieces of a value at a level, in front of those that follow it -/
def layoutOnto : Json → Nat → List Piece → List Piece
  | .null, _, k => .token .null :: k
  | .bool b, _, k => .token (.bool b) :: k
  | .number n, _, k => .token (.number n) :: k
  | .string s, _, k => .token (.string s) :: k
  | .array [], _, k => .token .openArray :: .token .closeArray :: k
  | .array (x :: xs), n, k =>
    .token .openArray :: .line (n + 1) ::
      x.layoutOnto (n + 1) (itemsLayout xs (n + 1) (.line n :: .token .closeArray :: k))
  | .object [], _, k => .token .openObject :: .token .closeObject :: k
  | .object ((key, x) :: xs), n, k =>
    .token .openObject :: .line (n + 1) :: .token (.string key) :: .token .colon :: .blank ::
      x.layoutOnto (n + 1) (fieldsLayout xs (n + 1) (.line n :: .token .closeObject :: k))

def itemsLayout : List Json → Nat → List Piece → List Piece
  | [], _, k => k
  | x :: xs, n, k => .token .comma :: .line n :: x.layoutOnto n (itemsLayout xs n k)

def fieldsLayout : List (String × Json) → Nat → List Piece → List Piece
  | [], _, k => k
  | (key, x) :: xs, n, k =>
    .token .comma :: .line n :: .token (.string key) :: .token .colon :: .blank ::
      x.layoutOnto n (fieldsLayout xs n k)

end

def layout (j : Json) : List Piece := j.layoutOnto 0 []

/-- the text of a value with one element or field a line -/
def indented (j : Json) : String := String.join (j.layout.map Piece.text)

mutual

theorem tokens_layoutOnto : ∀ (j : Json) (n : Nat) (k : List Piece),
    (j.layoutOnto n k).filterMap Piece.token? = j.onto (k.filterMap Piece.token?)
  | .null, _, k => rfl
  | .bool _, _, k => rfl
  | .number _, _, k => rfl
  | .string _, _, k => rfl
  | .array [], _, k => rfl
  | .array (x :: xs), n, k => by
    simp [layoutOnto, onto, Piece.token?, List.filterMap_cons, tokens_layoutOnto x,
      tokens_itemsLayout xs]
  | .object [], _, k => rfl
  | .object ((key, x) :: xs), n, k => by
    simp [layoutOnto, onto, Piece.token?, List.filterMap_cons, tokens_layoutOnto x,
      tokens_fieldsLayout xs]

theorem tokens_itemsLayout : ∀ (xs : List Json) (n : Nat) (k : List Piece),
    (itemsLayout xs n k).filterMap Piece.token? = itemsOnto xs (k.filterMap Piece.token?)
  | [], _, k => rfl
  | x :: xs, n, k => by
    simp [itemsLayout, itemsOnto, Piece.token?, List.filterMap_cons, tokens_layoutOnto x,
      tokens_itemsLayout xs]

theorem tokens_fieldsLayout : ∀ (xs : List (String × Json)) (n : Nat) (k : List Piece),
    (fieldsLayout xs n k).filterMap Piece.token? = fieldsOnto xs (k.filterMap Piece.token?)
  | [], _, k => rfl
  | (_, x) :: xs, n, k => by
    simp [fieldsLayout, fieldsOnto, Piece.token?, List.filterMap_cons, tokens_layoutOnto x,
      tokens_fieldsLayout xs]

end

theorem tokens_layout (j : Json) : j.layout.filterMap Piece.token? = j.tokens :=
  tokens_layoutOnto j 0 []

end TagTree.Json
