import TagTree.Node.SExpr
import TagTree.Json.Basic

/-!
# Nodes as Json documents

Every node, binding, property, case and handler becomes an object with its kind first and then
its fields in the order of declaration.  A missing part is `null`, except that a property without
accessor has no such field.

* `Construct.variant_eq_name`   a document says the name of the construct's kind;
* `Node.document_mk`            the document of a node is its layer's over those of its children.
-/

namespace TagTree

/-- a double as Json; Json has no other numbers than finite ones -/
def Json.ofDouble (x : Binary64) : Json :=
  if h : x.isFinite = true then .number (.double x h) else .null

def Json.ofOption : Option Json → Json
  | some j => j
  | none => .null

def Json.ofLabel (label : Option String) : Json := Json.ofOption (label.map .string)

def Json.record (kind : String) (fields : List (String × Json)) : Json :=
  .object (("kind", .string kind) :: fields)

def FunctionForm.name : FunctionForm → String
  | .declaration => "declaration"
  | .expression => "expression"

def Literal.document : Literal → Json
  | .number x => Json.ofDouble x
  | .string s => .string s

def Binding.document (b : Binding Json) : Json :=
  Json.record "Binding" [("name", .string b.name), ("init", .ofOption b.init)]

def Property.document (p : Property Json) : Json :=
  Json.record "Property"
    (("key", .string p.key) :: ("value", p.value) ::
      p.accessor.toList.map fun a => ("accessor", .string a.name))

def Case.document (c : Case Json) : Json :=
  let test : Json := match c.test with
    | some test => .object [("expression", test)]
    | none => .string "default"
  Json.record "Case" [("test", test), ("body", .array c.body)]

def Handler.document (h : Handler Json) : Json :=
  Json.record "ExceptionHandler" [("param", .string h.param), ("body", .array h.body)]

namespace Construct

/-- what the document of a construct says as its kind; the two forms of member accesses are one -/
def variant {α : Type} : Construct α → String
  | .program _ => "Program"
  | .function .. => "Function"
  | .returns _ => "Return"
  | .vars _ => "VariableDeclaration"
  | .statement _ => "ExpressionStatement"
  | .literal _ => "Literal"
  | .identifier _ => "Identifier"
  | .binary .. => "Binary"
  | .array _ => "ArrayLiteral"
  | .call .. => "Call"
  | .regex .. => "RegexLiteral"
  | .object _ => "ObjectLiteral"
  | .block _ => "Block"
  | .ifElse .. => "If"
  | .assignment .. => "Assignment"
  | .unaryPrefix .. => "UnaryPrefix"
  | .unaryPostfix .. => "UnaryPostfix"
  | .new .. => "New"
  | .member .. => "MemberAccess"
  | .index .. => "MemberAccess"
  | .tryCatch .. => "Try"
  | .throws _ => "Throw"
  | .whileLoop .. => "While"
  | .doWhile .. => "DoWhile"
  | .switch .. => "Switch"
  | .forLoop .. => "For"
  | .forIn .. => "ForIn"
  | .sequence _ => "Sequence"
  | .ternary .. => "Ternary"
  | .breaks _ => "Break"
  | .continues _ => "Continue"
  | .labeled .. => "Labeled"

theorem variant_eq_name {α : Type} (c : Construct α) : c.variant = c.kind.name := by
  cases c <;> rfl

/-- the fields of a construct over the documents of its children -/
def fields : Construct Json → List (String × Json)
  | .program body => [("body", .array body)]
  | .function form name params body =>
    [("form", .string form.name), ("name", .ofLabel name), ("params", .array (params.map .string)),
      ("body", .array body)]
  | .returns value => [("value", .ofOption value)]
  | .vars bindings => [("bindings", .array (bindings.map Binding.document))]
  | .statement e => [("expression", e)]
  | .literal value => [("value", value.document)]
  | .identifier name => [("name", .string name)]
  | .binary op l r => [("operator", .string op), ("left", l), ("right", r)]
  | .array elements => [("elements", .array elements)]
  | .call callee args => [("callee", callee), ("arguments", .array args)]
  | .regex pattern flags => [("pattern", .string pattern), ("flags", .string flags)]
  | .object properties => [("properties", .array (properties.map Property.document))]
  | .block body => [("body", .array body)]
  | .ifElse c t e => [("condition", c), ("consequent", t), ("alternate", .ofOption e)]
  | .assignment op t v => [("operator", .string op), ("target", t), ("value", v)]
  | .unaryPrefix op x => [("operator", .string op), ("operand", x)]
  | .unaryPostfix op x => [("operator", .string op), ("operand", x)]
  | .new c args => [("constructor", c), ("arguments", .array args)]
  | .member o name => [("object", o), ("property", .object [("named", .string name)])]
  | .index o i => [("object", o), ("property", .object [("computed", i)])]
  | .tryCatch body h fin =>
    [("body", .array body), ("handler", .ofOption (h.map Handler.document)),
      ("finalizer", .ofOption (fin.map .array))]
  | .throws v => [("value", v)]
  | .whileLoop c b => [("condition", c), ("body", b)]
  | .doWhile c b => [("condition", c), ("body", b)]
  | .switch d cases => [("discriminant", d), ("cases", .array (cases.map Case.document))]
  | .forLoop i c u b =>
    [("init", .ofOption i), ("condition", .ofOption c), ("update", .ofOption u), ("body", b)]
  | .forIn i l o b => [("init", i), ("lhs", l), ("object", o), ("body", b)]
  | .sequence es => [("expressions", .array es)]
  | .ternary c t e => [("condition", c), ("consequent", t), ("alternate", e)]
  | .breaks label => [("label", .ofLabel label)]
  | .continues label => [("label", .ofLabel label)]
  | .labeled label b => [("label", .string label), ("body", b)]

def document (c : Construct Json) : Json := Json.record c.variant c.fields

end Construct

def Node.document : Node → Json := Node.fold Construct.document

theorem Node.document_mk (c : Construct Node) :
    (Node.mk c).document = (c.map Node.document).document :=
  Node.fold_mk _ c

/-- several nodes as one document -/
def documentOfAll (ns : List Node) : Json := .array (ns.map Node.document)

end TagTree
