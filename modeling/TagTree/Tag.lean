import TagTree.Kind

/-!
# Tags of tagged arrays

The first slot of a tagged array names the construct.  Several tags may stand for one kind:
functions and member accesses are written in two ways, and literals under the tag of their value.

* `ofSpelling?_spelling`   every tag is found under its own spelling;
* `spelling_ofSpelling?`   what is found under a spelling has it.
-/

namespace TagTree

inductive Tag where
  | toplevel
  | defun
  | function
  | returns
  | vars
  | stat
  | num
  | string
  | name
  | binary
  | array
  | call
  | regexp
  | object
  | block
  | ifElse
  | assign
  | unaryPrefix
  | unaryPostfix
  | new
  | dot
  | sub
  | tryCatch
  | throws
  | whileLoop
  | doWhile
  | switch
  | forLoop
  | forIn
  | seq
  | conditional
  | breaks
  | continues
  | label
deriving DecidableEq, Repr

namespace Tag

/-- every tag, in the order of the registry -/
def all : List Tag :=
  [.toplevel, .defun, .function, .returns, .vars, .stat, .num, .string, .name, .binary, .array,
    .call, .regexp, .object, .block, .ifElse, .assign, .unaryPrefix, .unaryPostfix, .new, .dot, .sub,
    .tryCatch, .throws, .whileLoop, .doWhile, .switch, .forLoop, .forIn, .seq, .conditional, .breaks,
    .continues, .label]

def spelling : Tag → String
  | .toplevel => "toplevel"
  | .defun => "defun"
  | .function => "function"
  | .returns => "return"
  | .vars => "var"
  | .stat => "stat"
  | .num => "num"
  | .string => "string"
  | .name => "name"
  | .binary => "binary"
  | .array => "array"
  | .call => "call"
  | .regexp => "regexp"
  | .object => "object"
  | .block => "block"
  | .ifElse => "if"
  | .assign => "assign"
  | .unaryPrefix => "unary-prefix"
  | .unaryPostfix => "unary-postfix"
  | .new => "new"
  | .dot => "dot"
  | .sub => "sub"
  | .tryCatch => "try"
  | .throws => "throw"
  | .whileLoop => "while"
  | .doWhile => "do"
  | .switch => "switch"
  | .forLoop => "for"
  | .forIn => "for-in"
  | .seq => "seq"
  | .conditional => "conditional"
  | .breaks => "break"
  | .continues => "continue"
  | .label => "label"

def ofSpelling? (raw : String) : Option Tag :=
  match raw with
  | "toplevel" => some .toplevel
  | "defun" => some .defun
  | "function" => some .function
  | "return" => some .returns
  | "var" => some .vars
  | "stat" => some .stat
  | "num" => some .num
  | "string" => some .string
  | "name" => some .name
  | "binary" => some .binary
  | "array" => some .array
  | "call" => some .call
  | "regexp" => some .regexp
  | "object" => some .object
  | "block" => some .block
  | "if" => some .ifElse
  | "assign" => some .assign
  | "unary-prefix" => some .unaryPrefix
  | "unary-postfix" => some .unaryPostfix
  | "new" => some .new
  | "dot" => some .dot
  | "sub" => some .sub
  | "try" => some .tryCatch
  | "throw" => some .throws
  | "while" => some .whileLoop
  | "do" => some .doWhile
  | "switch" => some .switch
  | "for" => some .forLoop
  | "for-in" => some .forIn
  | "seq" => some .seq
  | "conditional" => some .conditional
  | "break" => some .breaks
  | "continue" => some .continues
  | "label" => some .label
  | _ => none

def kind : Tag → Kind
  | .toplevel => .program
  | .defun | .function => .function
  | .returns => .returns
  | .vars => .vars
  | .stat => .statement
  | .num | .string => .literal
  | .name => .identifier
  | .binary => .binary
  | .array => .array
  | .call => .call
  | .regexp => .regex
  | .object => .object
  | .block => .block
  | .ifElse => .ifElse
  | .assign => .assignment
  | .unaryPrefix => .unaryPrefix
  | .unaryPostfix => .unaryPostfix
  | .new => .new
  | .dot | .sub => .member
  | .tryCatch => .tryCatch
  | .throws => .throws
  | .whileLoop => .whileLoop
  | .doWhile => .doWhile
  | .switch => .switch
  | .forLoop => .forLoop
  | .forIn => .forIn
  | .seq => .sequence
  | .conditional => .ternary
  | .breaks => .breaks
  | .continues => .continues
  | .label => .labeled

theorem mem_all (t : Tag) : t ∈ all := by cases t <;> decide

theorem ofSpelling?_spelling (t : Tag) : ofSpelling? t.spelling = some t := by
  cases t <;> rfl

theorem spelling_ofSpelling? {raw : String} {t : Tag} (h : ofSpelling? raw = some t) :
    t.spelling = raw := by
  unfold ofSpelling? at h
  split at h <;> cases h <;> rfl

theorem isPositional_kind (t : Tag) : t.kind.isPositional = false := by cases t <;> rfl

end Tag
end TagTree
