/-!
# Kinds of syntax

What a syntax tree is made of.  Bindings, properties, cases and exception handlers are kinds as
well, although they only occur inside the node that owns them.
-/

namespace TagTree

inductive Kind where
  | program
  | function
  | returns
  | vars
  | binding
  | statement
  | literal
  | identifier
  | binary
  | array
  | call
  | regex
  | object
  | property
  | block
  | ifElse
  | assignment
  | unaryPrefix
  | unaryPostfix
  | new
  | member
  | tryCatch
  | handler
  | throws
  | whileLoop
  | doWhile
  | switch
  | switchCase
  | forLoop
  | forIn
  | sequence
  | ternary
  | breaks
  | continues
  | labeled
deriving DecidableEq, Repr

def Kind.name : Kind → String
  | .program => "Program"
  | .function => "Function"
  | .returns => "Return"
  | .vars => "VariableDeclaration"
  | .binding => "Binding"
  | .statement => "ExpressionStatement"
  | .literal => "Literal"
  | .identifier => "Identifier"
  | .binary => "Binary"
  | .array => "ArrayLiteral"
  | .call => "Call"
  | .regex => "RegexLiteral"
  | .object => "ObjectLiteral"
  | .property => "Property"
  | .block => "Block"
  | .ifElse => "If"
  | .assignment => "Assignment"
  | .unaryPrefix => "UnaryPrefix"
  | .unaryPostfix => "UnaryPostfix"
  | .new => "New"
  | .member => "MemberAccess"
  | .tryCatch => "Try"
  | .handler => "ExceptionHandler"
  | .throws => "Throw"
  | .whileLoop => "While"
  | .doWhile => "DoWhile"
  | .switch => "Switch"
  | .switchCase => "Case"
  | .forLoop => "For"
  | .forIn => "ForIn"
  | .sequence => "Sequence"
  | .ternary => "Ternary"
  | .breaks => "Break"
  | .continues => "Continue"
  | .labeled => "Labeled"

/-- the kinds without a tag of their own: they are known by their place in an array -/
def Kind.isPositional : Kind → Bool
  | .binding | .property | .switchCase | .handler => true
  | _ => false

end TagTree
