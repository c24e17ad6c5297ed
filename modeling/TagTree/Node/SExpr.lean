import TagTree.Node.Basic
import TagTree.Decimal.Layout
import TagTree.Text.Quoted

/-!
# Nodes as s-expressions

A node is a parenthesised list: a head that tells the construct, then its parts.  Operators are
heads of their own, literals and identifiers stand bare, and a missing clause of a `for` or a
missing function name is written `_`.  Only string literals are quoted.

* `Node.sexpr_mk`   the form of a node is its layer's form over the forms of its children.
-/

namespace TagTree

/-- `(head part part …)` -/
def sexprList (head : String) (parts : List String) : String :=
  "(" ++ String.intercalate " " (head :: parts) ++ ")"

def Accessor.name : Accessor → String
  | .get => "get"
  | .set => "set"

def Literal.sexpr : Literal → String
  | .number x => Decimal.full.text x
  | .string s => Text.quoted s

def Binding.sexpr (b : Binding String) : String := sexprList b.name b.init.toList

def Property.sexpr (p : Property String) : String :=
  match p.accessor with
  | some a => sexprList a.name [p.key, p.value]
  | none => sexprList p.key [p.value]

def Case.sexpr (c : Case String) : String :=
  match c.test with
  | some test => sexprList "case" (test :: c.body)
  | none => sexprList "default" c.body

def Handler.sexpr (h : Handler String) : String := sexprList "catch" (h.param :: h.body)

/-- the form of a construct over the forms of its children -/
def Construct.sexpr : Construct String → String
  | .program body => sexprList "program" body
  | .function _ name params body =>
    sexprList "function" (name.getD "_" :: ("(" ++ String.intercalate " " params ++ ")") :: body)
  | .returns value => sexprList "return" value.toList
  | .vars bindings => sexprList "var" (bindings.map Binding.sexpr)
  | .statement e => sexprList "stat" [e]
  | .literal value => value.sexpr
  | .identifier name => name
  | .binary op l r => sexprList op [l, r]
  | .array elements => sexprList "array" elements
  | .call callee args => sexprList "call" (callee :: args)
  | .regex pattern flags => "/" ++ pattern ++ "/" ++ flags
  | .object properties => sexprList "object" (properties.map Property.sexpr)
  | .block body => sexprList "block" body
  | .ifElse c t e => sexprList "if" (c :: t :: e.toList)
  | .assignment op t v => sexprList op [t, v]
  | .unaryPrefix op x => sexprList "prefix" [op, x]
  | .unaryPostfix op x => sexprList "postfix" [op, x]
  | .new c args => sexprList "new" (c :: args)
  | .member o name => sexprList "." [o, name]
  | .index o i => sexprList "[]" [o, i]
  | .tryCatch body h fin =>
    sexprList "try" (sexprList "block" body ::
      (h.toList.map Handler.sexpr ++ fin.toList.map (sexprList "finally")))
  | .throws v => sexprList "throw" [v]
  | .whileLoop c b => sexprList "while" [c, b]
  | .doWhile c b => sexprList "do-while" [c, b]
  | .switch d cases => sexprList "switch" (d :: cases.map Case.sexpr)
  | .forLoop i c u b => sexprList "for" [i.getD "_", c.getD "_", u.getD "_", b]
  | .forIn i l o b => sexprList "for-in" [i, l, o, b]
  | .sequence es => sexprList "seq" es
  | .ternary c t e => sexprList "?:" [c, t, e]
  | .breaks label => sexprList "break" label.toList
  | .continues label => sexprList "continue" label.toList
  | .labeled label b => sexprList "label" [label, b]

def Node.sexpr : Node → String := Node.fold Construct.sexpr

theorem Node.sexpr_mk (c : Construct Node) : (Node.mk c).sexpr = (c.map Node.sexpr).sexpr :=
  Node.fold_mk _ c

end TagTree
