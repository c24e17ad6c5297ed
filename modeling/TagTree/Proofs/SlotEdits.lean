import Mathlib.Logic.Relation
import TagTree.Proofs.Blame

/-!
# Absent and surplus slots

A missing slot counts as `null`, and slots that are not read do not count.  So decoding does not
tell apart two trees that differ in such slots only; a refusal then quotes another value, and is
the same otherwise.

* `SlotEdit`                     what may be done to the slots of an array;
* `Json.Edited`                  a tree with the slots of one item edited;
* `Traced.unquoted`              a result without the value that its refusal quotes;
* `Role.Alike`                   two values that are read alike in a role;
* `Reading.unquoted_run`         readings that find alike values give alike results;
* `ItemForm.unquoted_decode`     arrays that are read alike are decoded alike;
* `Role.alike_replaceAt`         so are trees in which one array is replaced by one read alike;
* `Node.diagnosed_edited`        an edited tree gives the same node, or the same refusal but for the
                                 value that is quoted.
-/

namespace TagTree
open Layout Traced

/-! ## edits -/

/-- the slots of an array that are read; that of a node starts with a tag -/
def ItemForm.slotsRead (items : List Json) : ItemForm → List Nat
  | .node => 0 :: (ItemForm.node.readings items).map Reading.slot
  | f => (f.readings items).map Reading.slot

/-- the array is a sequence, of which all slots are read -/
def ItemForm.IsSequence (f : ItemForm) (items : List Json) : Prop :=
  f = .node ∧ Tag.ofItems? items = some .seq

instance (f : ItemForm) (items : List Json) : Decidable (f.IsSequence items) :=
  inferInstanceAs (Decidable (f = .node ∧ Tag.ofItems? items = some .seq))

/-- the slots of an array are edited, of which some are read -/
inductive SlotEdit (read : List Nat) : List Json → List Json → Prop
  | dropNulls {items : List Json} {k : Nat} :
    SlotEdit read (items ++ List.replicate k .null) items
  | padNulls {items : List Json} {k : Nat} :
    SlotEdit read items (items ++ List.replicate k .null)
  /-- once all slots that are read are there -/
  | append {items more : List Json} : (∀ i ∈ read, i < items.length) →
    SlotEdit read items (items ++ more)

/-- the slots of one array that stands for an item, and is no sequence, are edited -/
def Json.Edited (t u : Json) : Prop :=
  ∃ (l : List Nat) (f : ItemForm) (items items' : List Json),
    t.at? l = some (.array items) ∧ (Role.one .node).follow t l = .one f ∧
    ¬ f.IsSequence items ∧ SlotEdit (f.slotsRead items) items items' ∧
    u = t.replaceAt l (.array items')

/-! ## unquoted results -/

/-- the refusal with another value quoted -/
def Refusal.quoting (raw : Json) : Refusal → Refusal
  | .unknown tag _ => .unknown tag raw
  | .malformed construct flaw _ => .malformed construct flaw raw

section
variable {α β : Type}

/-- the result without the value that its refusal quotes -/
def Traced.unquoted (x : Traced Refusal α) : Except Refusal α :=
  x.result.mapError (Refusal.quoting .null)

theorem Traced.unquoted_bind (x : Traced Refusal α) (k : α → Traced Refusal β) :
    (x >>= k).unquoted = x.unquoted >>= fun a => (k a).unquoted := by
  unfold unquoted
  rw [result_bind]
  cases x.result <;> rfl

theorem Traced.unquoted_bind_congr {x x' : Traced Refusal α} {k k' : α → Traced Refusal β}
    (hx : x.unquoted = x'.unquoted) (hk : ∀ a, (k a).unquoted = (k' a).unquoted) :
    (x >>= k).unquoted = (x' >>= k').unquoted := by
  rw [unquoted_bind, unquoted_bind, hx]
  congr 1
  funext a
  exact hk a

theorem Traced.unquoted_each {f : Json → Traced Refusal α} {ts us : List Json}
    (h : List.Forall₂ (fun t u => (f t).unquoted = (f u).unquoted) ts us) :
    (each f ts).unquoted = (each f us).unquoted := by
  induction h with
  | nil => rfl
  | cons hx _ ih => exact unquoted_bind_congr hx fun y => unquoted_bind_congr ih fun ys => rfl

end

/-! ## values that are read alike -/

/-- two values that are read alike in a role -/
def Role.Alike : Role → Json → Json → Prop
  | .other, t, u => t = u
  | .one f, t, u => (f.decode t).unquoted = (f.decode u).unquoted
  | .each f, t, u => t = u ∨ ∃ ts us, t = .array ts ∧ u = .array us ∧
    List.Forall₂ (fun t u => (f.decode t).unquoted = (f.decode u).unquoted) ts us

theorem Role.Alike.refl (role : Role) (t : Json) : role.Alike t t := by
  cases role with
  | other => exact rfl
  | one f => exact rfl
  | each f => exact .inl rfl

/-- a reading finds alike values in two arrays -/
def Reading.Alike (r : Reading) (items items' : List Json) : Prop :=
  Option.Rel r.role.Alike (r.found? items) (r.found? items')

theorem Reading.alike_of_eq {r : Reading} {items items' : List Json}
    (h : r.found? items = r.found? items') : r.Alike items items' := by
  unfold Reading.Alike
  rw [h]
  cases r.found? items' with
  | none => exact .none
  | some t => exact .some (Role.Alike.refl r.role t)

/-- what is no node is found to be the same -/
theorem Reading.Alike.eq {r : Reading} {items items' : List Json} (h : r.Alike items items')
    (hr : r.role = .other) : r.found? items = r.found? items' := by
  unfold Reading.Alike at h
  rw [hr] at h
  generalize r.found? items = x at h
  generalize r.found? items' = y at h
  cases h with
  | none => rfl
  | some h => exact congrArg some h

theorem Traced.unquoted_optional {f : ItemForm} {x y : Option Json}
    (h : Option.Rel (Role.one f).Alike x y) :
    (optional f.decode x).unquoted = (optional f.decode y).unquoted := by
  cases h with
  | none => rfl
  | some h => exact unquoted_bind_congr h fun x => rfl

namespace Slots
open Decode
variable {c : String} {items items' : List Json} {i : Nat}

theorem unquoted_string? (h : slot? items i = slot? items' i) :
    (string? ⟨c, items⟩ i).unquoted = (string? ⟨c, items'⟩ i).unquoted := by
  simp only [string?, present?_eq, h]
  cases slot? items' i with
  | none => rfl
  | some t => cases t <;> rfl

theorem unquoted_string (h : slot? items i = slot? items' i) :
    (string ⟨c, items⟩ i).unquoted = (string ⟨c, items'⟩ i).unquoted := by
  refine unquoted_bind_congr (unquoted_string? h) fun x => ?_
  cases x <;> rfl

theorem unquoted_required {wanted : Wanted} (h : slot? items i = slot? items' i) :
    (required ⟨c, items⟩ i wanted).unquoted = (required ⟨c, items'⟩ i wanted).unquoted := by
  simp only [required, present?_eq, h]
  cases slot? items' i <;> rfl

theorem unquoted_number (h : slot? items i = slot? items' i) :
    (number ⟨c, items⟩ i).unquoted = (number ⟨c, items'⟩ i).unquoted := by
  refine unquoted_bind_congr (unquoted_required h) fun t => ?_
  cases t <;> rfl

theorem unquoted_array (h : slot? items i = slot? items' i) :
    (array ⟨c, items⟩ i).unquoted = (array ⟨c, items'⟩ i).unquoted := by
  refine unquoted_bind_congr (unquoted_required h) fun t => ?_
  cases t <;> rfl

theorem unquoted_params (j : Nat) (ts : List Json) :
    (params ⟨c, items⟩ j ts).unquoted = (params ⟨c, items'⟩ j ts).unquoted := by
  induction ts generalizing j with
  | nil => rfl
  | cons t ts ih =>
    cases t with
    | string x => exact unquoted_bind_congr (ih _) fun xs => rfl
    | _ => rfl

theorem unquoted_assignmentOperator (h : slot? items 1 = slot? items' 1) :
    (assignmentOperator ⟨c, items⟩).unquoted = (assignmentOperator ⟨c, items'⟩).unquoted := by
  simp only [assignmentOperator, present?_eq, h]
  cases slot? items' 1 with
  | none => rfl
  | some t =>
    cases t with
    | bool b => cases b <;> rfl
    | _ => rfl

theorem unquoted_propertyKey (h : slot? items 0 = slot? items' 0) :
    (propertyKey ⟨c, items⟩).unquoted = (propertyKey ⟨c, items'⟩).unquoted := by
  simp only [propertyKey, present?_eq, h]
  cases slot? items' 0 with
  | none => rfl
  | some t => cases t <;> rfl

theorem unquoted_accessor (h : slot? items 2 = slot? items' 2) :
    (accessor ⟨c, items⟩).unquoted = (accessor ⟨c, items'⟩).unquoted := by
  refine unquoted_bind_congr (unquoted_string? h) fun x => ?_
  cases x with
  | none => rfl
  | some x =>
    show (ite _ _ _ : Traced Refusal _).unquoted = (ite _ _ _ : Traced Refusal _).unquoted
    split
    · rfl
    · split <;> rfl

variable {f : ItemForm}

theorem unquoted_child (h : Option.Rel (Role.one f).Alike (slot? items i) (slot? items' i)) :
    (child ⟨c, items⟩ i f.decode).unquoted = (child ⟨c, items'⟩ i f.decode).unquoted := by
  simp only [child, required, present?_eq]
  generalize slot? items i = x, slot? items' i = y at h ⊢
  cases h with
  | none => rfl
  | some h => exact h

theorem unquoted_each (h : Option.Rel (Role.each f).Alike (slot? items i) (slot? items' i)) :
    (each ⟨c, items⟩ i f.decode).unquoted = (each ⟨c, items'⟩ i f.decode).unquoted := by
  simp only [each, array, required, present?_eq]
  generalize slot? items i = x, slot? items' i = y at h ⊢
  cases h with
  | none => rfl
  | some h =>
    rcases h with rfl | ⟨ts, us, rfl, rfl, h⟩
    · rename_i t; cases t <;> rfl
    · exact Traced.unquoted_each h

theorem unquoted_each? (h : Option.Rel (Role.each f).Alike (slot? items i) (slot? items' i)) :
    (each? ⟨c, items⟩ i f.decode).unquoted = (each? ⟨c, items'⟩ i f.decode).unquoted := by
  have he : (each ⟨c, items⟩ i f.decode).unquoted = (each ⟨c, items'⟩ i f.decode).unquoted :=
    unquoted_each h
  simp only [each?, present?_eq]
  generalize slot? items i = x, slot? items' i = y at h ⊢
  cases h with
  | none => rfl
  | some _ => exact unquoted_bind_congr he fun xs => rfl

end Slots

namespace Reading
open Slots
variable {c : String} {items items' : List Json}

theorem unquoted_read {r : Reading} (h : r.Alike items items') :
    (r.read ⟨c, items⟩).unquoted = (r.read ⟨c, items'⟩).unquoted := by
  cases r with
  | text i => exact unquoted_string (h.eq rfl)
  | text? i => exact unquoted_string? (h.eq rfl)
  | number i => exact unquoted_number (h.eq rfl)
  | params i => exact unquoted_bind_congr (unquoted_array (h.eq rfl)) (unquoted_params 0)
  | operator => exact unquoted_assignmentOperator (h.eq rfl)
  | key => exact unquoted_propertyKey (h.eq rfl)
  | accessor => exact unquoted_accessor (h.eq rfl)
  | one f i => exact unquoted_child h
  | one? f i =>
    rw [read, read, child?, child?, present?_eq, present?_eq]
    exact unquoted_optional h
  | each f i => exact Slots.unquoted_each h
  | each? f i => exact unquoted_each? h
  | element f i => exact unquoted_optional h

theorem unquoted_run {β : Type} {rs : List Reading} (h : ∀ r ∈ rs, r.Alike items items')
    (k : Into β rs) : (run ⟨c, items⟩ rs k).unquoted = (run ⟨c, items'⟩ rs k).unquoted := by
  induction rs with
  | nil => rfl
  | cons r rs ih =>
    refine unquoted_bind_congr (unquoted_read (h r List.mem_cons_self)) fun x => ?_
    exact ih (fun r hr => h r (List.mem_cons_of_mem _ hr)) (k x)

end Reading

/-! ## arrays that are read alike -/

theorem Decode.layer_array (items : List Json) :
    layer Node.decode (.array items) = match slot? items 0 with
      | some (.string raw) =>
        match Tag.ofSpelling? raw with
        | some tag =>
          Traced.note ⟨tag, tag.kind⟩ >>= fun _ => construct Node.decode tag ⟨tag.spelling, items⟩
        | none => .fail (.unknown raw (.array items))
      | _ => .fail (.malformed "tagged tree" .tagNotString (.array items)) := by
  cases items with
  | nil => rfl
  | cons x xs =>
    cases x with
    | string raw =>
      simp only [layer, tagged, slot?, List.getElem?_cons_zero]
      cases Tag.ofSpelling? raw <;> rfl
    | _ => rfl

namespace ItemForm
variable {items items' : List Json}

/-- two arrays of the form are read alike; the number of slots only counts for a sequence -/
structure Alike (f : ItemForm) (items items' : List Json) : Prop where
  tag : f = .node → slot? items 0 = slot? items' 0
  length : f.IsSequence items → items.length = items'.length
  readings : ∀ r ∈ f.readings items, r.Alike items items'

theorem unquoted_construct {tag : Tag} {c : String} (htag : Tag.ofItems? items = some tag)
    (h : ItemForm.node.Alike items items') :
    (Decode.construct Node.decode tag ⟨c, items⟩).unquoted =
      (Decode.construct Node.decode tag ⟨c, items'⟩).unquoted := by
  have hr : ∀ r ∈ tag.readings (items.length - 1), r.Alike items items' := by
    have := h.readings
    rw [readings, htag] at this
    exact this
  have hrun : Decode.construct Node.decode tag ⟨c, items'⟩ =
      Reading.run ⟨c, items'⟩ (tag.readings (items.length - 1)) (tag.assemble _) := by
    rw [Decode.construct_eq_run]
    cases tag with
    | seq => rw [h.length ⟨rfl, htag⟩]
    | _ => rfl
  rw [hrun, Decode.construct_eq_run]
  exact Reading.unquoted_run hr _

theorem unquoted_layer (h : ItemForm.node.Alike items items') :
    (Decode.layer Node.decode (.array items)).unquoted =
      (Decode.layer Node.decode (.array items')).unquoted := by
  rw [Decode.layer_array, Decode.layer_array, ← h.tag rfl]
  cases hx : slot? items 0 with
  | none => rfl
  | some x =>
    cases x with
    | string raw =>
      cases ht : Tag.ofSpelling? raw with
      | none =>
        simp only [ht]
        rfl
      | some tag =>
        have htag : Tag.ofItems? items = some tag := by
          simp only [Tag.ofItems?_eq, hx, ht]
        simp only [ht]
        exact unquoted_bind_congr rfl fun _ => unquoted_construct htag h
    | _ => rfl

theorem unquoted_decode {f : ItemForm} (h : f.Alike items items') :
    (f.decode (.array items)).unquoted = (f.decode (.array items')).unquoted := by
  cases f with
  | node =>
    show (Node.decode _).unquoted = (Node.decode _).unquoted
    rw [Node.decode_eq, Node.decode_eq, ← bind_pure_comp, ← bind_pure_comp]
    exact unquoted_bind_congr (unquoted_layer h) fun _ => rfl
  | binding => exact Reading.unquoted_run h.readings Binding.mk
  | property =>
    exact Reading.unquoted_run h.readings fun key accessor value =>
      (⟨key, value, accessor⟩ : Property Node)
  | switchCase => exact Reading.unquoted_run h.readings Case.mk
  | handler => exact Reading.unquoted_run h.readings Handler.mk

end ItemForm

/-! ## edited arrays are read alike -/

theorem Layout.slot?_append_nulls (items : List Json) (k i : Nat) :
    slot? (items ++ List.replicate k .null) i = slot? items i := by
  unfold slot?
  by_cases hi : i < items.length
  · rw [List.getElem?_append_left hi]
  · have hi : items.length ≤ i := Nat.le_of_not_lt hi
    rw [List.getElem?_append_right hi, List.getElem?_eq_none hi, List.getElem?_replicate]
    by_cases hk : i - items.length < k
    · rw [if_pos hk]
    · rw [if_neg hk]

theorem SlotEdit.slot?_eq {read : List Nat} {i : Nat} {items items' : List Json}
    (h : SlotEdit read items items') (hi : i ∈ read) : slot? items i = slot? items' i := by
  cases h with
  | dropNulls => exact slot?_append_nulls _ _ i
  | padNulls => exact (slot?_append_nulls _ _ i).symm
  | append hread => exact slot?_congr (List.getElem?_append_left (hread i hi)).symm

/-- but for sequences, `null` is not found -/
theorem Tag.found?_eq_slot? {tag : Tag} {arity : Nat} {r : Reading} (h : tag ≠ .seq)
    (hr : r ∈ tag.readings arity) (items : List Json) : r.found? items = slot? items r.slot := by
  cases tag with
  | seq => exact absurd rfl h
  | _ =>
    simp only [Tag.readings, List.mem_cons, List.not_mem_nil, or_false] at hr
    rcases hr with rfl | rfl | rfl | rfl <;> rfl

namespace ItemForm
variable {f : ItemForm} {items items' : List Json}

theorem found?_eq_slot? {r : Reading} (h : ¬ f.IsSequence items) (hr : r ∈ f.readings items)
    (items' : List Json) : r.found? items' = slot? items' r.slot := by
  cases f with
  | node =>
    unfold readings at hr
    cases ht : Tag.ofItems? items with
    | none =>
      rw [ht] at hr
      cases hr
    | some tag =>
      rw [ht] at hr
      exact Tag.found?_eq_slot? (fun hseq => h ⟨rfl, ht.trans (congrArg some hseq)⟩) hr items'
  | _ =>
    simp only [readings, List.mem_cons, List.not_mem_nil, or_false] at hr
    rcases hr with rfl | rfl | rfl <;> rfl

theorem slot_mem_slotsRead {r : Reading} (hr : r ∈ f.readings items) :
    r.slot ∈ f.slotsRead items := by
  have hmem : r.slot ∈ (f.readings items).map Reading.slot := List.mem_map_of_mem hr
  cases f with
  | node => exact List.mem_cons_of_mem _ hmem
  | _ => exact hmem

theorem alike_of_edit (hseq : ¬ f.IsSequence items)
    (h : SlotEdit (f.slotsRead items) items items') : f.Alike items items' where
  tag := by
    rintro rfl
    exact h.slot?_eq List.mem_cons_self
  length hf := absurd hf hseq
  readings := by
    intro r hr
    refine Reading.alike_of_eq ?_
    rw [found?_eq_slot? hseq hr, found?_eq_slot? hseq hr, h.slot?_eq (slot_mem_slotsRead hr)]

/-- a change of an item inside an array does not show, if it does not show in the item -/
theorem alike_modify {i : Nat} {xs ys : List Json} (hi : items[i]? = some (.array xs))
    {g : Json → Json} (hg : g (.array xs) = .array ys)
    (h : ((f.roles items).getD i .other).Alike (.array xs) (.array ys))
    (hrole : (f.roles items).getD i .other ≠ .other) : f.Alike items (items.modify i g) where
  tag := by
    rintro rfl
    have hne : i ≠ 0 := by
      rintro rfl
      refine hrole ?_
      unfold roles
      cases Tag.ofItems? items <;> rfl
    exact (slot?_congr (List.getElem?_modify_ne _ _ hne)).symm
  length _ := (List.length_modify ..).symm
  readings := by
    intro r hr
    by_cases hri : i = r.slot
    · subst hri
      rw [role_of_mem_readings hr] at h
      have hy : (items.modify r.slot g)[r.slot]? = some (.array ys) := by
        rw [List.getElem?_modify_eq, hi]
        exact congrArg some hg
      unfold Reading.Alike
      rw [Reading.found?_array hi, Reading.found?_array hy]
      exact .some h
    · exact Reading.alike_of_eq (Reading.found?_congr (List.getElem?_modify_ne _ _ hri)).symm

end ItemForm

/-! ## edited trees are read alike -/

theorem Json.exists_replaceAt_array (xs : List Json) (l : List Nat) (items : List Json) :
    ∃ ys, (Json.array xs).replaceAt l (.array items) = .array ys := by
  cases l with
  | nil => exact ⟨items, rfl⟩
  | cons i l => exact ⟨_, rfl⟩

/-- an item lies in arrays only -/
theorem Role.exists_array {role : Role} {t : Json} {l : List Nat} {f : ItemForm} {items : List Json}
    (hat : t.at? l = some (.array items)) (hf : role.follow t l = .one f) :
    ∃ xs, t = .array xs := by
  cases l with
  | nil => exact ⟨items, Option.some.inj hat⟩
  | cons i l =>
    cases t with
    | array xs => exact ⟨xs, rfl⟩
    | _ => cases hf

theorem forall₂_modify {α : Type} {R : α → α → Prop} {g : α → α} (refl : ∀ x, R x x)
    {xs : List α} {i : Nat} (h : ∀ x ∈ xs[i]?, R x (g x)) : List.Forall₂ R xs (xs.modify i g) := by
  induction xs generalizing i with
  | nil =>
    rw [List.modify_nil]
    exact .nil
  | cons x xs ih =>
    cases i with
    | zero => exact .cons (h x rfl) (List.forall₂_same.2 fun y _ => refl y)
    | succ i => exact .cons (refl x) (ih h)

/-- a change inside a tree does not show, if it does not show in the array that is changed -/
theorem Role.alike_replaceAt {role : Role} {t : Json} {l : List Nat} {f : ItemForm}
    {items items' : List Json} (hat : t.at? l = some (.array items))
    (hf : role.follow t l = .one f) (h : f.Alike items items') :
    role.Alike t (t.replaceAt l (.array items')) := by
  induction l generalizing role t with
  | nil =>
    cases hat
    cases hf
    exact ItemForm.unquoted_decode h
  | cons i l ih =>
    obtain ⟨ts, rfl⟩ := Role.exists_array hat hf
    rw [Role.follow] at hf
    cases hi : ts[i]? with
    | none =>
      rw [hi] at hf
      cases hf
    | some x =>
      rw [Json.at?_array hi] at hat
      rw [hi] at hf
      have hf : (role.element ts i).follow x l = .one f := hf
      have hx : (role.element ts i).Alike x (x.replaceAt l (.array items')) := ih hat hf
      obtain ⟨xs, rfl⟩ := Role.exists_array hat hf
      obtain ⟨ys, hys⟩ := Json.exists_replaceAt_array xs l items'
      cases role with
      | other =>
        rw [Role.element, Role.other_follow] at hf
        cases hf
      | one g =>
        refine ItemForm.unquoted_decode (ItemForm.alike_modify hi hys (hys ▸ hx) ?_)
        intro hr
        rw [Role.element, hr, Role.other_follow] at hf
        cases hf
      | each g =>
        refine .inr ⟨ts, _, rfl, rfl, forall₂_modify ?_ ?_⟩
        · exact fun _ => rfl
        intro y hy
        cases hi.symm.trans hy
        exact hx

theorem Json.Edited.unquoted_decode {t u : Json} (h : t.Edited u) :
    (Node.decode t).unquoted = (Node.decode u).unquoted := by
  obtain ⟨l, f, items, items', hat, hf, hseq, hedit, rfl⟩ := h
  exact Role.alike_replaceAt hat hf (ItemForm.alike_of_edit hseq hedit)

/-! ## diagnostics -/

def Cause.quoting (raw : String) : Cause → Cause
  | .unknownConstruct tag _ => .unknownConstruct tag raw
  | .malformedShape construct message _ => .malformedShape construct message raw
  | c => c

def Diagnostic.quoting (raw : String) (d : Diagnostic) : Diagnostic :=
  { d with cause := d.cause.quoting raw }

theorem Diagnostic.ofRefusal_quoting (raw : Json) (r : Refusal) :
    ofRefusal (r.quoting raw) = (ofRefusal r).quoting raw.compact := by
  cases r <;> rfl

theorem Refusal.exists_eq_quoting {r r' : Refusal} {raw : Json}
    (h : r.quoting raw = r'.quoting raw) : ∃ raw', r' = r.quoting raw' := by
  cases r <;> cases r' <;> cases h <;> exact ⟨_, rfl⟩

/-- **Absent and surplus slots do not count.**  When the slots of items are edited, at any depth
and any number of times, a tree that decodes still decodes to the same node, and a tree that is
refused is still refused with the same diagnostic, but for the value that is quoted. -/
theorem Node.diagnosed_edited {t u : Json} (h : Relation.ReflTransGen Json.Edited t u) :
    (∃ n, (Node.decode t).diagnosed = .ok n ∧ (Node.decode u).diagnosed = .ok n) ∨
    ∃ (e : Diagnostic) (raw : String), (Node.decode t).diagnosed = .error e ∧
      (Node.decode u).diagnosed = .error (e.quoting raw) := by
  have same : (Node.decode t).unquoted = (Node.decode u).unquoted := by
    induction h with
    | refl => rfl
    | tail _ hstep ih => exact ih.trans hstep.unquoted_decode
  unfold unquoted at same
  unfold diagnosed
  cases ht : (Node.decode t).result with
  | ok n =>
    cases hu : (Node.decode u).result with
    | ok m =>
      rw [ht, hu] at same
      cases same
      exact .inl ⟨n, rfl, rfl⟩
    | error r =>
      rw [ht, hu] at same
      cases same
  | error r =>
    cases hu : (Node.decode u).result with
    | ok m =>
      rw [ht, hu] at same
      cases same
    | error r' =>
      rw [ht, hu] at same
      obtain ⟨raw, rfl⟩ := Refusal.exists_eq_quoting (Except.error.inj same)
      refine .inr ⟨_, raw.compact, rfl, ?_⟩
      rw [← Diagnostic.ofRefusal_quoting]
      rfl

/-- `return; var ?;`, with a `null` in place of the value and of the name -/
def namelessBinding : Json :=
  .array [.string "toplevel", .array [
    .array [.string "return", .null],
    .array [.string "var", .array [.array [.null]]]]]

/-- the same without these slots, and with one slot more in the tree -/
def namelessBindingEdited : Json :=
  .array [.string "toplevel", .array [
    .array [.string "return"],
    .array [.string "var", .array [.array []]]], .bool true]

/-- the binding is refused for the missing name, however the slots are filled up -/
theorem Node.diagnosed_edited_namelessBinding :
    Relation.ReflTransGen Json.Edited namelessBinding namelessBindingEdited ∧
    (Node.decode namelessBinding).diagnosed =
      .error (.malformedShape "binding" (Flaw.missing 0 .string).message (.array [.null])) ∧
    ∃ raw, (Node.decode namelessBindingEdited).diagnosed =
      .error ((Diagnostic.malformedShape "binding" (Flaw.missing 0 .string).message
        (.array [.null])).quoting raw) := by
  have returned : SlotEdit [0, 1] ([.string "return"] ++ List.replicate 1 .null)
      [.string "return"] := .dropNulls
  have nameless : SlotEdit [0, 1] ([] ++ List.replicate 1 .null) [] := .dropNulls
  have h : Relation.ReflTransGen Json.Edited namelessBinding namelessBindingEdited := by
    refine .head ⟨[1, 0], .node, _, _, rfl, rfl, by decide, returned, rfl⟩ ?_
    refine .head ⟨[1, 1, 1, 0], .binding, _, _, rfl, rfl, by decide, nameless, rfl⟩ ?_
    exact .single ⟨[], .node, _, _, rfl, rfl, by decide, .append (by decide), rfl⟩
  have he : (Node.decode namelessBinding).diagnosed =
      .error (.malformedShape "binding" (Flaw.missing 0 .string).message (.array [.null])) := rfl
  rcases Node.diagnosed_edited h with ⟨n, hn, -⟩ | ⟨e, raw, ht, hu⟩
  · cases he.symm.trans hn
  · cases he.symm.trans ht
    exact ⟨h, he, raw, hu⟩

end TagTree
