import TagTree.Node.Basic

/-!
# Structural equality of nodes

Two nodes agree when they have the same shape and the same texts, and their numbers are equal as
numbers: `0` and `-0` agree, NaN agrees with nothing.  It is decided layer by layer, with a
comparison of children given.

* `Node.agrees_mk`   nodes agree iff their layers agree under agreement of the children.
-/

namespace TagTree

def Literal.agrees : Literal → Literal → Bool
  | .number x, .number y => x.agrees y
  | .string s, .string t => s == t
  | _, _ => false

section
variable {α β : Type} (r : α → β → Bool)

def listAgrees {α β : Type} (r : α → β → Bool) : List α → List β → Bool
  | [], [] => true
  | x :: xs, y :: ys => r x y && listAgrees r xs ys
  | _, _ => false

def optionAgrees : Option α → Option β → Bool
  | none, none => true
  | some x, some y => r x y
  | _, _ => false

def Binding.agrees (a : Binding α) (b : Binding β) : Bool :=
  a.name == b.name && optionAgrees r a.init b.init

def Property.agrees (p : Property α) (q : Property β) : Bool :=
  p.key == q.key && r p.value q.value && p.accessor == q.accessor

def Case.agrees (c : Case α) (d : Case β) : Bool :=
  optionAgrees r c.test d.test && listAgrees r c.body d.body

def Handler.agrees (h : Handler α) (i : Handler β) : Bool :=
  h.param == i.param && listAgrees r h.body i.body

def Construct.agrees : Construct α → Construct β → Bool
  | .program b, .program b' => listAgrees r b b'
  | .function f n p b, .function f' n' p' b' => f == f' && n == n' && p == p' && listAgrees r b b'
  | .returns v, .returns v' => optionAgrees r v v'
  | .vars b, .vars b' => listAgrees (Binding.agrees r) b b'
  | .statement e, .statement e' => r e e'
  | .literal v, .literal v' => v.agrees v'
  | .identifier n, .identifier n' => n == n'
  | .binary o x y, .binary o' x' y' => o == o' && r x x' && r y y'
  | .array e, .array e' => listAgrees r e e'
  | .call c a, .call c' a' => r c c' && listAgrees r a a'
  | .regex p f, .regex p' f' => p == p' && f == f'
  | .object p, .object p' => listAgrees (Property.agrees r) p p'
  | .block b, .block b' => listAgrees r b b'
  | .ifElse c t e, .ifElse c' t' e' => r c c' && r t t' && optionAgrees r e e'
  | .assignment o t v, .assignment o' t' v' => o == o' && r t t' && r v v'
  | .unaryPrefix o x, .unaryPrefix o' x' => o == o' && r x x'
  | .unaryPostfix o x, .unaryPostfix o' x' => o == o' && r x x'
  | .new c a, .new c' a' => r c c' && listAgrees r a a'
  | .member o n, .member o' n' => r o o' && n == n'
  | .index o i, .index o' i' => r o o' && r i i'
  | .tryCatch b h f, .tryCatch b' h' f' =>
    listAgrees r b b' && optionAgrees (Handler.agrees r) h h' && optionAgrees (listAgrees r) f f'
  | .throws v, .throws v' => r v v'
  | .whileLoop c b, .whileLoop c' b' => r c c' && r b b'
  | .doWhile c b, .doWhile c' b' => r c c' && r b b'
  | .switch d c, .switch d' c' => r d d' && listAgrees (Case.agrees r) c c'
  | .forLoop i c u b, .forLoop i' c' u' b' =>
    optionAgrees r i i' && optionAgrees r c c' && optionAgrees r u u' && r b b'
  | .forIn i l o b, .forIn i' l' o' b' => r i i' && r l l' && r o o' && r b b'
  | .sequence e, .sequence e' => listAgrees r e e'
  | .ternary c t e, .ternary c' t' e' => r c c' && r t t' && r e e'
  | .breaks l, .breaks l' => l == l'
  | .continues l, .continues l' => l == l'
  | .labeled l b, .labeled l' b' => l == l' && r b b'
  | _, _ => false

end

/-- structural equality: every child is turned into the test against its counterpart -/
def Node.agrees : Node → Node → Bool :=
  Node.fold fun c n => c.agrees (fun test m => test m) n.construct

theorem Node.agrees_mk (c d : Construct Node) :
    (Node.mk c).agrees (.mk d) = (c.map Node.agrees).agrees (fun test m => test m) d := by
  rw [Node.agrees, Node.fold_mk]
  rfl

end TagTree
