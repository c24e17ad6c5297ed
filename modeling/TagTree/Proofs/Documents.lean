import Mathlib.Data.Set.Function
import TagTree.Proofs.Locations
import TagTree.Proofs.ZeroSigns

/-!
# Documents are faithful

A node can be read back from its document: the kind says which construct it is, and the fields
stand in a fixed order.  So two regular nodes with one document are equal.

* `Construct.ofDocument?`            the construct that a document stands for;
* `Construct.ofDocument?_document`   one layer is read back from its document;
* `Construct.eq_of_map_eq`           a construct is known by its image under a map that tells its
                                     children apart;
* `Node.eq_of_document_eq`           a regular node is known by its document;
* `Node.document_faithful`           agreement of decoded nodes is equality of documents, but for
                                     the signs of zeros.
-/

namespace TagTree

/-! ## reading documents -/

namespace Json

def part (t : Json) (i : Nat) : Json := t.parts.getD i .null

def text : Json → String
  | .string s => s
  | _ => ""

def present? : Json → Option Json
  | .null => none
  | t => some t

theorem present?_ofOption {t : Option Json} (h : ∀ x ∈ t, x ≠ .null) :
    (Json.ofOption t).present? = t := by
  cases t with
  | none => rfl
  | some x =>
    cases x with
    | null => exact absurd rfl (h .null rfl)
    | _ => rfl

theorem text_ofLabel (label : Option String) : (Json.ofLabel label).present?.map text = label := by
  cases label <;> rfl

end Json

def Kind.ofName? (name : String) : Option Kind := (Tag.all.map Tag.kind).find? (·.name == name)

def FunctionForm.ofName (name : String) : FunctionForm :=
  if name = "declaration" then .declaration else .expression

def Accessor.ofName (name : String) : Accessor := if name = "get" then .get else .set

def Literal.ofDocument : Json → Literal
  | .number n => .number n.toDouble
  | t => .string t.text

def Binding.ofDocument (t : Json) : Binding Json := ⟨(t.part 1).text, (t.part 2).present?⟩

def Property.ofDocument (t : Json) : Property Json :=
  ⟨(t.part 1).text, t.part 2, t.parts[3]?.map fun a => .ofName a.text⟩

/-- the default has a text in place of an object with its test -/
def Case.ofDocument (t : Json) : Case Json := ⟨(t.part 1).parts.head?, (t.part 2).parts⟩

def Handler.ofDocument (t : Json) : Handler Json := ⟨(t.part 1).text, (t.part 2).parts⟩

namespace Construct

/-- what is reached inside an object: a name or a computed value -/
def ofAccess (object : Json) : Json → Construct Json
  | .object [("named", name)] => .member object name.text
  | t => .index object (t.part 0)

/-- the construct of a kind whose fields are parts 1, 2, … of a document -/
def ofFields? (t : Json) : Kind → Option (Construct Json)
  | .program => some (.program (t.part 1).parts)
  | .function =>
    some (.function (.ofName (t.part 1).text) ((t.part 2).present?.map Json.text)
      ((t.part 3).parts.map Json.text) (t.part 4).parts)
  | .returns => some (.returns (t.part 1).present?)
  | .vars => some (.vars ((t.part 1).parts.map Binding.ofDocument))
  | .statement => some (.statement (t.part 1))
  | .literal => some (.literal (.ofDocument (t.part 1)))
  | .identifier => some (.identifier (t.part 1).text)
  | .binary => some (.binary (t.part 1).text (t.part 2) (t.part 3))
  | .array => some (.array (t.part 1).parts)
  | .call => some (.call (t.part 1) (t.part 2).parts)
  | .regex => some (.regex (t.part 1).text (t.part 2).text)
  | .object => some (.object ((t.part 1).parts.map Property.ofDocument))
  | .block => some (.block (t.part 1).parts)
  | .ifElse => some (.ifElse (t.part 1) (t.part 2) (t.part 3).present?)
  | .assignment => some (.assignment (t.part 1).text (t.part 2) (t.part 3))
  | .unaryPrefix => some (.unaryPrefix (t.part 1).text (t.part 2))
  | .unaryPostfix => some (.unaryPostfix (t.part 1).text (t.part 2))
  | .new => some (.new (t.part 1) (t.part 2).parts)
  | .member => some (ofAccess (t.part 1) (t.part 2))
  | .tryCatch =>
    some (.tryCatch (t.part 1).parts ((t.part 2).present?.map Handler.ofDocument)
      ((t.part 3).present?.map Json.parts))
  | .throws => some (.throws (t.part 1))
  | .whileLoop => some (.whileLoop (t.part 1) (t.part 2))
  | .doWhile => some (.doWhile (t.part 1) (t.part 2))
  | .switch => some (.switch (t.part 1) ((t.part 2).parts.map Case.ofDocument))
  | .forLoop =>
    some (.forLoop (t.part 1).present? (t.part 2).present? (t.part 3).present? (t.part 4))
  | .forIn => some (.forIn (t.part 1) (t.part 2) (t.part 3) (t.part 4))
  | .sequence => some (.sequence (t.part 1).parts)
  | .ternary => some (.ternary (t.part 1) (t.part 2) (t.part 3))
  | .breaks => some (.breaks ((t.part 1).present?.map Json.text))
  | .continues => some (.continues ((t.part 1).present?.map Json.text))
  | .labeled => some (.labeled (t.part 1).text (t.part 2))
  | .binding | .property | .switchCase | .handler => none

def ofDocument? (t : Json) : Option (Construct Json) :=
  (Kind.ofName? (t.part 0).text).bind (ofFields? t)

end Construct

/-! ## reading back -/

theorem Binding.ofDocument_document {b : Binding Json} (h : ∀ x ∈ b.init, x ≠ .null) :
    Binding.ofDocument b.document = b := by
  show (⟨b.name, (Json.ofOption b.init).present?⟩ : Binding Json) = b
  rw [Json.present?_ofOption h]

theorem Property.ofDocument_document (p : Property Json) :
    Property.ofDocument p.document = p := by
  obtain ⟨key, value, accessor⟩ := p
  cases accessor with
  | none => rfl
  | some a => cases a <;> rfl

theorem Case.ofDocument_document (c : Case Json) : Case.ofDocument c.document = c := by
  obtain ⟨test, body⟩ := c
  cases test <;> rfl

theorem Construct.ofName?_kind {α : Type} (c : Construct α) :
    Kind.ofName? c.kind.name = some c.kind := by
  cases c <;> rfl

theorem map_map_eq_self {α β : Type} {f : α → β} {g : β → α} {xs : List α}
    (h : ∀ x ∈ xs, g (f x) = x) : (xs.map f).map g = xs := by
  rw [List.map_map]
  exact (List.map_congr_left h).trans (List.map_id xs)

theorem Construct.ofDocument?_document {c : Construct Json} (hc : c.IsProper)
    (h : ∀ x ∈ c.children, x ≠ .null) : ofDocument? c.document = some c := by
  have hk : ofDocument? c.document = ofFields? c.document c.kind := by
    show (Kind.ofName? c.variant).bind _ = _
    rw [variant_eq_name, ofName?_kind]
    rfl
  have option {x : Option Json} (hx : ∀ y ∈ x, y ∈ c.children) : (Json.ofOption x).present? = x :=
    Json.present?_ofOption fun y hy => h y (hx y hy)
  rw [hk]
  cases c with
  | function form name params body =>
    have hform : FunctionForm.ofName form.name = form := by cases form <;> rfl
    have hparams : (params.map Json.string).map Json.text = params := map_map_eq_self fun _ _ => rfl
    show some (function (.ofName form.name) ((Json.ofLabel name).present?.map Json.text)
      ((params.map Json.string).map Json.text) body) = _
    rw [hform, Json.text_ofLabel, hparams]
  | returns value =>
    exact congrArg (some ∘ returns) (option fun y hy => Option.mem_toList.2 hy)
  | vars bindings =>
    exact congrArg (some ∘ vars) (map_map_eq_self fun b hb =>
      Binding.ofDocument_document fun x hx => h x (mem_children_vars hb hx))
  | literal value =>
    cases value with
    | number x =>
      have hx : x.isFinite = true := hc
      show some (literal (.ofDocument (Json.ofDouble x))) = _
      rw [Json.ofDouble, dif_pos hx]
      rfl
    | string s => rfl
  | object properties =>
    exact congrArg (some ∘ object) (map_map_eq_self fun p _ => p.ofDocument_document)
  | ifElse c t e =>
    exact congrArg (some ∘ ifElse c t) (option fun y hy => mem_children_alternate hy)
  | tryCatch body handler fin => cases handler <;> cases fin <;> rfl
  | switch d cases =>
    exact congrArg (some ∘ switch d) (map_map_eq_self fun c _ => c.ofDocument_document)
  | forLoop i c u b =>
    have hi : (Json.ofOption i).present? = i := option fun y hy => mem_children_init hy
    have hc : (Json.ofOption c).present? = c := option fun y hy => mem_children_condition hy
    have hu : (Json.ofOption u).present? = u := option fun y hy => mem_children_update hy
    show some (forLoop (Json.ofOption i).present? (Json.ofOption c).present?
      (Json.ofOption u).present? b) = _
    rw [hi, hc, hu]
  | breaks label => exact congrArg (some ∘ breaks) (Json.text_ofLabel label)
  | continues label => exact congrArg (some ∘ continues) (Json.text_ofLabel label)
  | _ => rfl

/-! ## faithfulness -/

section
variable {α β : Type}

theorem Construct.map_map_eq_self {f : α → β} {g : β → α} {c : Construct α}
    (h : ∀ x ∈ c.children, g (f x) = x) : (c.map f).map g = c := by
  rw [map_map]
  exact (map_congr h).trans (map_id c)

/-- a construct is known by its image under a map that tells its children apart -/
theorem Construct.eq_of_map_eq [Nonempty α] {f : α → β} {c d : Construct α}
    (he : c.map f = d.map f) (h : ∀ x ∈ c.children, ∀ y ∈ d.children, f x = f y → x = y) :
    c = d := by
  have himages : c.children.map f = d.children.map f := by
    rw [← children_map, ← children_map, he]
  -- `g` leads from the image of a child back to a child of `d`
  let g : β → α := Function.invFunOn f {y | y ∈ d.children}
  have back {x : α} (hx : x ∈ c.children) : g (f x) = x := by
    have hsome : ∃ y ∈ {y | y ∈ d.children}, f y = f x :=
      List.mem_map.1 (himages ▸ List.mem_map_of_mem hx)
    exact (h x hx _ (Function.invFunOn_mem hsome) (Function.invFunOn_eq hsome).symm).symm
  have back' {y : α} (hy : y ∈ d.children) : g (f y) = y := by
    have hmem : f y ∈ c.children.map f := himages ▸ List.mem_map_of_mem hy
    obtain ⟨x, hx, hxy⟩ := List.mem_map.1 hmem
    rw [← hxy, back hx]
    exact h x hx y hy hxy
  calc c = (c.map f).map g := (map_map_eq_self fun x hx => back hx).symm
    _ = (d.map f).map g := by rw [he]
    _ = d := map_map_eq_self fun y hy => back' hy

end

namespace Node

theorem document_ne_null (n : Node) : n.document ≠ .null := by
  obtain ⟨c⟩ := n
  rw [document_mk]
  exact nofun

theorem eq_of_document_eq {a b : Node} (ha : a.Regular) (hb : b.Regular)
    (h : a.document = b.document) : a = b := by
  induction a using induct generalizing b with
  | h c ih =>
    obtain ⟨d⟩ := b
    obtain ⟨hc, hcs⟩ := (regular_mk c).1 ha
    obtain ⟨hd, hds⟩ := (regular_mk d).1 hb
    have read {c : Construct Node} (hc : c.IsProper) :
        Construct.ofDocument? (c.map document).document = some (c.map document) := by
      refine Construct.ofDocument?_document ((Construct.isProper_map _ c).2 hc) fun x hx => ?_
      rw [Construct.children_map] at hx
      obtain ⟨n, _, rfl⟩ := List.mem_map.1 hx
      exact document_ne_null n
    rw [document_mk, document_mk] at h
    have he : c.map document = d.map document := by
      have := congrArg Construct.ofDocument? h
      rw [read hc, read hd] at this
      exact Option.some.inj this
    exact congrArg Node.mk (Construct.eq_of_map_eq he fun x hx y hy hxy =>
      ih x hx (hcs x hx) (hds y hy) hxy)

/-- the node comes from some tree -/
def IsDecoded (n : Node) : Prop := ∃ t, (decode t).result = .ok n

theorem IsDecoded.regular {n : Node} (h : n.IsDecoded) : n.Regular := by
  obtain ⟨t, ht⟩ := h
  exact regular_of_decodes (decodes_of_decode ht)

theorem agrees_iff_document {a b : Node} (ha : a.Regular) (hb : b.Regular) :
    a.agrees b = true ↔ a.document.unsignZeros = b.document.unsignZeros := by
  rw [agrees_iff_unsignZeros ha hb, ← document_unsignZeros, ← document_unsignZeros]
  constructor
  · exact congrArg document
  · exact eq_of_document_eq (regular_unsignZeros ha) (regular_unsignZeros hb)

/-- **Documents are faithful.**  Decoded nodes agree iff their documents are equal but for the signs
of zeros, and decoded nodes with one document are equal.  So agreement is an equivalence. -/
theorem document_faithful :
    (∀ a b : Node, a.IsDecoded → b.IsDecoded →
      (a.agrees b = true ↔ a.document.unsignZeros = b.document.unsignZeros) ∧
      (a.document = b.document → a = b)) ∧
    Equivalence fun a b : { n : Node // n.IsDecoded } => a.1.agrees b.1 = true := by
  have agrees (a b : { n : Node // n.IsDecoded }) :
      a.1.agrees b.1 = true ↔ a.1.document.unsignZeros = b.1.document.unsignZeros :=
    agrees_iff_document a.2.regular b.2.regular
  refine ⟨fun a b ha hb => ⟨agrees ⟨a, ha⟩ ⟨b, hb⟩, eq_of_document_eq ha.regular hb.regular⟩, ?_⟩
  constructor
  · exact fun a => (agrees a a).2 rfl
  · exact fun {a b} h => (agrees b a).2 ((agrees a b).1 h).symm
  · exact fun {a b c} h h' => (agrees a c).2 (((agrees a b).1 h).trans ((agrees b c).1 h'))

/-- `[0, x]` -/
def zeroListed : Node :=
  .mk (.array [.mk (.literal (.number ⟨false, 0, Binary64.signBit_pos⟩)), .mk (.identifier "x")])

/-- `[-0.0, x]` -/
def negativeZeroListed : Node :=
  .mk (.array [.mk (.literal (.number ⟨true, 0, Binary64.signBit_pos⟩)), .mk (.identifier "x")])

/-- the two zeros agree, and their documents differ in the sign only -/
theorem document_faithful_zeroListed :
    zeroListed.IsDecoded ∧ negativeZeroListed.IsDecoded ∧
    zeroListed.agrees negativeZeroListed = true ∧
    zeroListed.document.unsignZeros = negativeZeroListed.document.unsignZeros ∧
    zeroListed.document ≠ negativeZeroListed.document := by
  have h₁ : zeroListed.IsDecoded :=
    ⟨.array [.string "array", .array [.array [.string "num", .number (.natural 0 (by decide))],
      .array [.string "name", .string "x"]]], rfl⟩
  have h₂ : negativeZeroListed.IsDecoded :=
    ⟨.array [.string "array", .array [
      .array [.string "num", .number (.double ⟨true, 0, by decide⟩ rfl)],
      .array [.string "name", .string "x"]]], rfl⟩
  have hagrees : zeroListed.agrees negativeZeroListed = true := rfl
  obtain ⟨iff, same⟩ := document_faithful.1 _ _ h₁ h₂
  exact ⟨h₁, h₂, hagrees, iff.1 hagrees, fun h => nomatch same h⟩

end Node
end TagTree
