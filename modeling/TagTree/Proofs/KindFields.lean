import Mathlib.Data.List.Basic
import TagTree.Proofs.Documents
import TagTree.Proofs.Handlers
import TagTree.Proofs.NodeArrays

/-!
# The kind fields of a document are the kinds that a walk passes

A document tells the kind of every item in a field of its own.  Read from left to right, these
fields list the items in the order in which a walk enters them: parents first, children in the order
of their fields.

* `Json.valuesOf`                   the values of a key, at every depth, from left to right;
* `Construct.valuesOf_document`     one layer: its own kind, and then what is met in its items;
* `Item.kindFields_eq`              the kind fields of an item follow its preorder;
* `Node.kindFields_eq_kinds`        documents, walks and printed lines tell of the same kinds.
-/

namespace TagTree

/-! ## values of a key -/

namespace Json

mutual

/-- the values of all fields with a key, as they are met from left to right -/
def valuesOf (key : String) : Json → List Json
  | .array items => valuesOfList key items
  | .object fields => valuesOfFields key fields
  | _ => []

def valuesOfList (key : String) : List Json → List Json
  | [] => []
  | t :: ts => t.valuesOf key ++ valuesOfList key ts

/-- a field with the key is met before what lies inside its value -/
def valuesOfFields (key : String) : List (String × Json) → List Json
  | [] => []
  | (k, t) :: fs => (if k = key then [t] else []) ++ (t.valuesOf key ++ valuesOfFields key fs)

end

variable (key : String)

theorem valuesOf_array (ts : List Json) :
    (Json.array ts).valuesOf key = ts.flatMap (valuesOf key) := by
  have h : valuesOfList key ts = ts.flatMap (valuesOf key) := by
    induction ts with
    | nil => rfl
    | cons t ts ih => rw [valuesOfList, ih, List.flatMap_cons]
  rw [valuesOf, h]

theorem valuesOf_object (fs : List (String × Json)) :
    (Json.object fs).valuesOf key =
      fs.flatMap fun f => (if f.1 = key then [f.2] else []) ++ f.2.valuesOf key := by
  have h : valuesOfFields key fs =
      fs.flatMap fun f => (if f.1 = key then [f.2] else []) ++ f.2.valuesOf key := by
    induction fs with
    | nil => rfl
    | cons f fs ih =>
      obtain ⟨k, t⟩ := f
      rw [valuesOfFields, ih, List.flatMap_cons, List.append_assoc]
  rw [valuesOf, h]

theorem valuesOf_string (s : String) : (Json.string s).valuesOf key = [] := rfl

theorem valuesOf_ofOption (t : Option Json) :
    (Json.ofOption t).valuesOf key = t.toList.flatMap (valuesOf key) := by
  cases t with
  | none => rfl
  | some t => exact (List.append_nil _).symm

theorem valuesOf_ofLabel (label : Option String) : (Json.ofLabel label).valuesOf key = [] := by
  cases label <;> rfl

theorem valuesOf_record (kind : String) (fs : List (String × Json)) :
    (record kind fs).valuesOf "kind" = .string kind :: (object fs).valuesOf "kind" := by
  rw [record, valuesOf_object, valuesOf_object]
  rfl

end Json

theorem Literal.valuesOf_document (key : String) (l : Literal) : l.document.valuesOf key = [] := by
  cases l with
  | number x =>
    show (Json.ofDouble x).valuesOf key = []
    unfold Json.ofDouble
    split <;> rfl
  | string s => rfl

/-! ## one layer -/

/-- the document of an item over the documents of its nodes -/
def Item.document : Item Json → Json
  | .node t => t
  | .binding b => b.document
  | .property p => p.document
  | .switchCase c => c.document
  | .handler h => h.document

def Item.kindFieldsIn (i : Item Json) : List Json := i.document.valuesOf "kind"

section
open Json

theorem Binding.kindFieldsIn_eq (b : Binding Json) :
    (Item.binding b).kindFieldsIn =
      .string "Binding" :: (Item.binding b).nodes.flatMap (valuesOf "kind") := by
  rw [Item.kindFieldsIn, Item.document, Binding.document, Json.valuesOf_record]
  simp [valuesOf_object, valuesOf_string, valuesOf_ofOption, Item.nodes]

theorem Property.kindFieldsIn_eq (p : Property Json) :
    (Item.property p).kindFieldsIn =
      .string "Property" :: (Item.property p).nodes.flatMap (valuesOf "kind") := by
  rw [Item.kindFieldsIn, Item.document, Property.document, Json.valuesOf_record]
  cases h : p.accessor <;> simp [valuesOf_object, valuesOf_string, Item.nodes]

theorem Case.kindFieldsIn_eq (c : Case Json) :
    (Item.switchCase c).kindFieldsIn =
      .string "Case" :: (Item.switchCase c).nodes.flatMap (valuesOf "kind") := by
  rw [Item.kindFieldsIn, Item.document, Case.document, Json.valuesOf_record]
  cases h : c.test <;> simp [valuesOf_object, valuesOf_string, valuesOf_array, Item.nodes, h]

theorem Handler.kindFieldsIn_eq (h : Handler Json) :
    (Item.handler h).kindFieldsIn =
      .string "ExceptionHandler" :: (Item.handler h).nodes.flatMap (valuesOf "kind") := by
  rw [Item.kindFieldsIn, Item.document, Handler.document, Json.valuesOf_record]
  simp [valuesOf_object, valuesOf_string, valuesOf_array, Item.nodes]

/-- a construct tells its kind, and then its items tell theirs, in the order of the fields -/
theorem Construct.valuesOf_document (c : Construct Json) :
    c.document.valuesOf "kind" = .string c.variant :: c.items.flatMap Item.kindFieldsIn := by
  rw [Construct.document, Json.valuesOf_record]
  congr 1
  cases c with
  | tryCatch body h fin =>
    cases h <;> cases fin <;>
      simp [fields, items, valuesOf_object, valuesOf_ofOption, valuesOf_array, List.flatMap_map,
        Item.kindFieldsIn, Item.document]
  | _ =>
    simp [fields, items, valuesOf_object, valuesOf_string, valuesOf_ofOption, valuesOf_ofLabel,
      valuesOf_array, Literal.valuesOf_document, List.flatMap_map, Item.kindFieldsIn, Item.document]

end

/-! ## whole trees -/

namespace Item

def kindFields (i : Item Node) : List Json := (i.map Node.document).kindFieldsIn

theorem kindFields_node (n : Node) : (Item.node n).kindFields = n.document.valuesOf "kind" := rfl

theorem flatMap_nodes_kindFields (i : Item Node) :
    (i.map Node.document).nodes.flatMap (Json.valuesOf "kind") =
      (i.nodes.map Item.node).flatMap kindFields := by
  rw [Item.nodes_map, List.flatMap_map, List.flatMap_map]
  rfl

theorem kindFields_step (i : Item Node) :
    i.kindFields = .string i.kind.name :: i.children.flatMap kindFields := by
  cases i with
  | node n =>
    obtain ⟨c⟩ := n
    rw [kindFields_node, Node.document_mk, Construct.valuesOf_document, Construct.variant_eq_name,
      Construct.kind_map, Construct.items_map, List.flatMap_map, children_node]
    rfl
  | binding b =>
    rw [children_binding, ← flatMap_nodes_kindFields]
    exact Binding.kindFieldsIn_eq _
  | property p =>
    rw [children_property, ← flatMap_nodes_kindFields]
    exact Property.kindFieldsIn_eq _
  | switchCase c =>
    rw [children_switchCase, ← flatMap_nodes_kindFields]
    exact Case.kindFieldsIn_eq _
  | handler h =>
    rw [children_handler, ← flatMap_nodes_kindFields]
    exact Handler.kindFieldsIn_eq _

theorem kindFields_eq (i : Item Node) :
    i.kindFields = i.preorder.map fun j => Json.string j.kind.name := by
  induction i using induct with
  | h i ih =>
    rw [kindFields_step, preorder_eq, List.map_cons, List.map_flatMap]
    exact congrArg _ (List.flatMap_congr ih)

end Item

theorem Node.kinds_eq_preorder (n : Node) : n.kinds = (Item.node n).preorder.map Item.kind := by
  have h : n.kinds.map some = ((Item.node n).preorder.map Item.kind).map some := by
    rw [n.map_some_kinds, Item.passed, List.map_map]
    rfl
  exact List.map_injective_iff.2 (Option.some_injective Kind) h

def Node.kindTexts (n : Node) : List String := (n.document.valuesOf "kind").map Json.text

/-- **Documents and walks tell of the same nodes.**  The kind fields of a document, read from left
to right at every depth, are the kinds that a walk of the node passes, in the same order.  So the
line of kinds, the count of a check and the printed document of a source agree. -/
theorem Node.kindFields_eq_kinds (n : Node) :
    n.document.valuesOf "kind" = n.kinds.map (fun k => Json.string k.name) ∧
    ∀ (colours : Bool) (name : String) (log : List LogEntry),
      Action.kinds.handle colours (.ok [⟨name, log, .ok n⟩]) =
        .ok (true, ⟨header colours name ++ (String.intercalate " " n.kindTexts ++ "\n"), []⟩) ∧
      Action.check.handle colours (.ok [⟨name, log, .ok n⟩]) =
        .ok (true, ⟨okLine colours name n.kindTexts.length ++ summary 1 0, []⟩) ∧
      (Action.ast .json).handle colours (.ok [⟨name, log, .ok n⟩]) =
        .ok (true, ⟨header colours name ++ (n.document.indented ++ "\n"), []⟩) := by
  have fields : n.document.valuesOf "kind" = n.kinds.map fun k => Json.string k.name := by
    rw [← Item.kindFields_node, Item.kindFields_eq, n.kinds_eq_preorder, List.map_map]
    rfl
  have texts : n.kindTexts = n.kinds.map Kind.name := by
    rw [kindTexts, fields, List.map_map]
    rfl
  refine ⟨fields, fun colours name log => ?_⟩
  rw [texts, List.length_map]
  simp only [Action.handle_single, Action.closing, String.append_empty]
  exact ⟨rfl, rfl, rfl⟩

end TagTree
