import TagTree.Node.Agreement
import TagTree.Node.Document
import TagTree.Proofs.Encoding

/-!
# Agreement and the sign of zero

Two regular nodes agree iff they are the same but for the signs of zeros.  Taking these signs off
a node takes them off its document.

* `Node.unsignZeros`              the node with every `-0` replaced by `0`;
* `Node.document_unsignZeros`     its document is the document with every `-0` replaced by `0`;
* `Node.agrees_unsignZeros`       a node agrees with the same nodes when its zeros are unsigned;
* `Node.agrees_self`              a regular node agrees with itself;
* `Node.agrees_iff_unsignZeros`   regular nodes agree iff they are equal with zeros unsigned.
-/

namespace TagTree

/-! ## unsigned zeros -/

/-- `-0` becomes `0` -/
def Binary64.unsignZero (x : Binary64) : Binary64 :=
  if x.isZero then { x with negative := false } else x

theorem Binary64.magnitude_unsignZero (x : Binary64) : x.unsignZero.magnitude = x.magnitude := by
  unfold unsignZero
  split <;> rfl

theorem Binary64.isFinite_unsignZero (x : Binary64) : x.unsignZero.isFinite = x.isFinite := by
  rw [isFinite, isFinite, magnitude_unsignZero]

theorem Binary64.unsignZero_eq_of_agrees {x y : Binary64} (h : x.agrees y = true) :
    x.unsignZero = y.unsignZero := by
  unfold agrees at h
  simp only [Bool.and_eq_true, Bool.or_eq_true, beq_iff_eq] at h
  rcases h.2 with rfl | ⟨hx, hy⟩
  · rfl
  · unfold unsignZero
    rw [if_pos hx, if_pos hy]
    have hm : x.magnitude = y.magnitude := by
      rw [isZero, beq_iff_eq] at hx hy
      rw [hx, hy]
    exact Binary64.ext rfl hm

theorem Binary64.isNaN_of_isZero {x : Binary64} (h : x.isZero = true) : x.isNaN = false := by
  rw [isZero, beq_iff_eq] at h
  rw [isNaN, h]
  rfl

theorem Binary64.agrees_of_isZero {x : Binary64} (hx : x.isZero = true) (y : Binary64) :
    x.agrees y = y.isZero := by
  unfold agrees
  rw [isNaN_of_isZero hx, hx]
  by_cases hy : y.isZero = true
  · rw [isNaN_of_isZero hy, hy]
    simp
  · have hxy : x ≠ y := fun h => hy (h ▸ hx)
    simp [hxy, hy]

theorem Binary64.agrees_unsignZero (x y : Binary64) : x.unsignZero.agrees y = x.agrees y := by
  by_cases hx : x.isZero = true
  · have hx' : x.unsignZero.isZero = true := by
      rw [isZero, magnitude_unsignZero]
      exact hx
    rw [agrees_of_isZero hx', agrees_of_isZero hx]
  · rw [unsignZero, if_neg hx]

def Number.unsignZero : Number → Number
  | .double x h => .double x.unsignZero (x.isFinite_unsignZero.trans h)
  | n => n

mutual

/-- the value with every `-0` replaced by `0` -/
def Json.unsignZeros : Json → Json
  | .number n => .number n.unsignZero
  | .array items => .array (Json.unsignZerosList items)
  | .object fields => .object (Json.unsignZerosFields fields)
  | t => t

def Json.unsignZerosList : List Json → List Json
  | [] => []
  | t :: ts => t.unsignZeros :: Json.unsignZerosList ts

def Json.unsignZerosFields : List (String × Json) → List (String × Json)
  | [] => []
  | (key, t) :: fs => (key, t.unsignZeros) :: Json.unsignZerosFields fs

end

def Literal.unsignZero : Literal → Literal
  | .number x => .number x.unsignZero
  | l => l

/-- the construct with its own `-0` replaced by `0`, if it is one -/
def Construct.unsignZero {α : Type} : Construct α → Construct α
  | .literal value => .literal value.unsignZero
  | c => c

def Node.unsignZeros : Node → Node := Node.fold fun c => .mk c.unsignZero

theorem Node.unsignZeros_mk (c : Construct Node) :
    (Node.mk c).unsignZeros = .mk (c.map Node.unsignZeros).unsignZero :=
  Node.fold_mk _ c

/-! ## documents -/

namespace Json

theorem unsignZeros_array (ts : List Json) :
    (Json.array ts).unsignZeros = .array (ts.map unsignZeros) := by
  have h : unsignZerosList ts = ts.map unsignZeros := by
    induction ts with
    | nil => rfl
    | cons t ts ih => rw [unsignZerosList, ih, List.map_cons]
  rw [unsignZeros, h]

theorem unsignZeros_object (fs : List (String × Json)) :
    (Json.object fs).unsignZeros = .object (fs.map fun f => (f.1, f.2.unsignZeros)) := by
  have h : unsignZerosFields fs = fs.map fun f => (f.1, f.2.unsignZeros) := by
    induction fs with
    | nil => rfl
    | cons f fs ih =>
      obtain ⟨key, t⟩ := f
      rw [unsignZerosFields, ih, List.map_cons]
  rw [unsignZeros, h]

theorem unsignZeros_string (s : String) : (Json.string s).unsignZeros = .string s := rfl

theorem unsignZeros_ofOption (t : Option Json) :
    (Json.ofOption t).unsignZeros = .ofOption (t.map unsignZeros) := by
  cases t <;> rfl

theorem unsignZeros_ofLabel (label : Option String) :
    (Json.ofLabel label).unsignZeros = .ofLabel label := by
  cases label <;> rfl

theorem unsignZeros_ofDouble (x : Binary64) :
    (Json.ofDouble x).unsignZeros = .ofDouble x.unsignZero := by
  unfold ofDouble
  by_cases h : x.isFinite = true
  · rw [dif_pos h, dif_pos (x.isFinite_unsignZero.trans h)]
    rfl
  · rw [dif_neg h, dif_neg (x.isFinite_unsignZero ▸ h)]
    rfl

theorem unsignZeros_record (kind : String) (fs : List (String × Json)) :
    (record kind fs).unsignZeros = record kind (fs.map fun f => (f.1, f.2.unsignZeros)) :=
  unsignZeros_object _

end Json

theorem Literal.document_unsignZero (l : Literal) :
    l.unsignZero.document = l.document.unsignZeros := by
  cases l with
  | number x => exact (Json.unsignZeros_ofDouble x).symm
  | string s => rfl

theorem Binding.document_unsignZeros (b : Binding Json) :
    (b.map Json.unsignZeros).document = b.document.unsignZeros := by
  simp only [Binding.document, Binding.map, Json.unsignZeros_record, List.map_cons, List.map_nil,
    Json.unsignZeros_string, Json.unsignZeros_ofOption]

theorem Property.document_unsignZeros (p : Property Json) :
    (p.map Json.unsignZeros).document = p.document.unsignZeros := by
  rw [Property.document, Property.document, Json.unsignZeros_record]
  cases h : p.accessor <;>  simp only [Property.map, h] <;> rfl

theorem Case.document_unsignZeros (c : Case Json) :
    (c.map Json.unsignZeros).document = c.document.unsignZeros := by
  rw [Case.document, Case.document, Json.unsignZeros_record]
  cases h : c.test <;>
    simp [Case.map, h, Json.unsignZeros_array, Json.unsignZeros_object, Json.unsignZeros_string]

theorem Handler.document_unsignZeros (h : Handler Json) :
    (h.map Json.unsignZeros).document = h.document.unsignZeros := by
  simp only [Handler.document, Handler.map, Json.unsignZeros_record, List.map_cons, List.map_nil,
    Json.unsignZeros_string, Json.unsignZeros_array]

theorem Construct.document_unsignZeros (c : Construct Json) :
    (c.map Json.unsignZeros).unsignZero.document = c.document.unsignZeros := by
  rw [document, document, Json.unsignZeros_record]
  cases c <;>
    simp only [map, unsignZero, variant, fields, List.map_cons, List.map_nil, List.map_map,
      Option.map_map, Function.comp_def, Json.unsignZeros_array, Json.unsignZeros_object,
      Json.unsignZeros_string, Json.unsignZeros_ofOption, Json.unsignZeros_ofLabel,
      Literal.document_unsignZero, Binding.document_unsignZeros, Property.document_unsignZeros,
      Case.document_unsignZeros, Handler.document_unsignZeros]

theorem Construct.unsignZero_map {α β : Type} (f : α → β) (c : Construct α) :
    (c.map f).unsignZero = c.unsignZero.map f := by
  cases c <;> rfl

theorem Node.document_unsignZeros (n : Node) : n.unsignZeros.document = n.document.unsignZeros := by
  induction n using induct with
  | h c ih =>
    calc (Node.mk c).unsignZeros.document
        = ((c.map Node.unsignZeros).map Node.document).unsignZero.document := by
          rw [unsignZeros_mk, document_mk, ← Construct.unsignZero_map]
      _ = ((c.map Node.document).map Json.unsignZeros).unsignZero.document := by
          have h : c.map (Node.document ∘ Node.unsignZeros) =
              c.map (Json.unsignZeros ∘ Node.document) := Construct.map_congr ih
          rw [Construct.map_map, h, Construct.map_map]
      _ = (Node.mk c).document.unsignZeros := by
          rw [Construct.document_unsignZeros, document_mk]

/-! ## regular nodes -/

section
variable {α β γ : Type}

theorem Construct.isProper_map (f : α → β) (c : Construct α) : (c.map f).IsProper ↔ c.IsProper := by
  cases c with
  | literal value => cases value <;> exact Iff.rfl
  | _ => exact Iff.rfl

theorem Construct.isProper_unsignZero {c : Construct α} (h : c.IsProper) :
    c.unsignZero.IsProper := by
  cases c with
  | literal value =>
    cases value with
    | number x => exact x.isFinite_unsignZero.trans h
    | string s => exact h
  | _ => exact h

theorem Construct.children_unsignZero (c : Construct α) : c.unsignZero.children = c.children := by
  cases c <;> rfl

theorem Node.regular_unsignZeros {n : Node} (h : n.Regular) : n.unsignZeros.Regular := by
  induction n using induct with
  | h c ih =>
    obtain ⟨hc, hchildren⟩ := (regular_mk c).1 h
    rw [unsignZeros_mk, regular_mk]
    refine ⟨Construct.isProper_unsignZero ((Construct.isProper_map _ c).2 hc), fun m hm => ?_⟩
    rw [Construct.children_unsignZero, Construct.children_map] at hm
    obtain ⟨x, hx, rfl⟩ := List.mem_map.1 hm
    exact ih x hx (hchildren x hx)

/-! ## agreement -/

theorem Construct.agrees_unsignZero (r : α → β → Bool) (c : Construct α) (d : Construct β) :
    c.unsignZero.agrees r d = c.agrees r d := by
  cases c with
  | literal value =>
    cases d with
    | literal value' =>
      cases value with
      | number x =>
        cases value' with
        | number y => exact x.agrees_unsignZero y
        | string t => rfl
      | string s => rfl
    | _ => rfl
  | _ => rfl

theorem Node.agrees_unsignZeros (n m : Node) : n.unsignZeros.agrees m = n.agrees m := by
  induction n using induct generalizing m with
  | h c ih =>
    obtain ⟨d⟩ := m
    have hc : (c.map Node.unsignZeros).map Node.agrees = c.map Node.agrees := by
      rw [Construct.map_map]
      exact Construct.map_congr fun x hx => funext (ih x hx)
    rw [unsignZeros_mk, agrees_mk, agrees_mk, ← Construct.unsignZero_map, hc,
      Construct.agrees_unsignZero]

/-! ### a regular node agrees with itself -/

theorem listAgrees_map_self (r : γ → α → Bool) (u : α → γ) {xs : List α}
    (h : ∀ x ∈ xs, r (u x) x = true) : listAgrees r (xs.map u) xs = true := by
  induction xs with
  | nil => rfl
  | cons x xs ih =>
    rw [List.forall_mem_cons] at h
    rw [List.map_cons, listAgrees, h.1, ih h.2]
    rfl

theorem optionAgrees_map_self (r : γ → α → Bool) (u : α → γ) {x : Option α}
    (h : ∀ y ∈ x, r (u y) y = true) : optionAgrees r (x.map u) x = true := by
  cases x with
  | none => rfl
  | some x => exact h x rfl

theorem Literal.agrees_self {l : Literal} (h : (Construct.literal l : Construct α).IsProper) :
    l.agrees l = true := by
  cases l with
  | number x => exact (Binary64.agrees_iff h h).2 (.inl rfl)
  | string s => exact beq_self_eq_true s

section
variable {t : α → α → Bool}

theorem Binding.agrees_map_self {b : Binding α} (h : ∀ x ∈ b.init, t x x = true) :
    (b.map t).agrees (fun test m => test m) b = true := by
  simp [Binding.agrees, Binding.map, optionAgrees_map_self (fun test m => test m) t h]

theorem Property.agrees_map_self {p : Property α} (h : t p.value p.value = true) :
    (p.map t).agrees (fun test m => test m) p = true := by
  simp [Property.agrees, Property.map, h]

theorem Case.agrees_map_self {c : Case α} (ht : ∀ x ∈ c.test, t x x = true)
    (hb : ∀ x ∈ c.body, t x x = true) : (c.map t).agrees (fun test m => test m) c = true := by
  simp [Case.agrees, Case.map, optionAgrees_map_self (fun test m => test m) t ht,
    listAgrees_map_self (fun test m => test m) t hb]

theorem Handler.agrees_map_self {h : Handler α} (hb : ∀ x ∈ h.body, t x x = true) :
    (h.map t).agrees (fun test m => test m) h = true := by
  simp [Handler.agrees, Handler.map, listAgrees_map_self (fun test m => test m) t hb]

theorem Construct.agrees_map_self {c : Construct α} (hc : c.IsProper)
    (h : ∀ x ∈ c.children, t x x = true) :
    (c.map t).agrees (fun test m => test m) c = true := by
  cases c with
  | literal l => exact Literal.agrees_self hc
  | vars bindings =>
    exact listAgrees_map_self _ _ fun b hb =>
      Binding.agrees_map_self fun x hx => h x (mem_children_vars hb hx)
  | object properties =>
    exact listAgrees_map_self _ _ fun p hp =>
      Property.agrees_map_self (h p.value (mem_children_object hp))
  | tryCatch body handler fin =>
    have hbody : listAgrees (fun test m => test m) (body.map t) body = true :=
      listAgrees_map_self _ _ fun x hx => h x (List.mem_append_left _ hx)
    have hhandler : optionAgrees (Handler.agrees fun test m => test m) (handler.map (Handler.map t))
        handler = true :=
      optionAgrees_map_self _ _ fun i hi =>
        Handler.agrees_map_self fun x hx => h x (mem_children_handler hi hx)
    have hfin : optionAgrees (listAgrees fun test m => test m) (fin.map (List.map t)) fin = true :=
      optionAgrees_map_self _ _ fun l hl =>
        listAgrees_map_self _ _ fun x hx => h x (mem_children_finalizer hl hx)
    show (_ && _ && _) = true
    rw [hbody, hhandler, hfin]
    rfl
  | switch d cases =>
    have hd : t d d = true := h d List.mem_cons_self
    have hcases : listAgrees (Case.agrees fun test m => test m) (cases.map (Case.map t))
        cases = true :=
      listAgrees_map_self _ _ fun c hc => Case.agrees_map_self
        (fun x hx => h x (mem_children_switch hc (.inl hx)))
        (fun x hx => h x (mem_children_switch hc (.inr hx)))
    show (_ && _) = true
    rw [hcases, Bool.and_true]
    exact hd
  | _ =>
    unfold map agrees
    simp_all [children, listAgrees_map_self, optionAgrees_map_self]

end

theorem Node.agrees_self {n : Node} (h : n.Regular) : n.agrees n = true := by
  induction n using induct with
  | h c ih =>
    obtain ⟨hc, hchildren⟩ := (regular_mk c).1 h
    rw [agrees_mk]
    exact Construct.agrees_map_self hc fun x hx => ih x hx (hchildren x hx)

/-! ### nodes that agree -/

section
variable {r : α → β → Bool} {f : α → γ} {g : β → γ}

theorem map_eq_of_listAgrees {xs : List α} {ys : List β} (hr : listAgrees r xs ys = true)
    (h : ∀ x ∈ xs, ∀ y, r x y = true → f x = g y) : xs.map f = ys.map g := by
  induction xs generalizing ys with
  | nil =>
    cases ys with
    | nil => rfl
    | cons y ys => cases hr
  | cons x xs ih =>
    cases ys with
    | nil => cases hr
    | cons y ys =>
      rw [listAgrees, Bool.and_eq_true] at hr
      rw [List.forall_mem_cons] at h
      rw [List.map_cons, List.map_cons, h.1 y hr.1, ih hr.2 h.2]

theorem map_eq_of_optionAgrees {x : Option α} {y : Option β} (hr : optionAgrees r x y = true)
    (h : ∀ z ∈ x, ∀ y, r z y = true → f z = g y) : x.map f = y.map g := by
  cases x with
  | none =>
    cases y with
    | none => rfl
    | some y => cases hr
  | some x =>
    cases y with
    | none => cases hr
    | some y => exact congrArg some (h x rfl y hr)

theorem Binding.map_eq_of_agrees {b : Binding α} {b' : Binding β} (hr : b.agrees r b' = true)
    (h : ∀ x ∈ b.init, ∀ y, r x y = true → f x = g y) : b.map f = b'.map g := by
  rw [Binding.agrees, Bool.and_eq_true, beq_iff_eq] at hr
  rw [Binding.map, Binding.map, hr.1, map_eq_of_optionAgrees hr.2 h]

theorem Property.map_eq_of_agrees {p : Property α} {p' : Property β} (hr : p.agrees r p' = true)
    (h : ∀ y, r p.value y = true → f p.value = g y) : p.map f = p'.map g := by
  rw [Property.agrees, Bool.and_eq_true, Bool.and_eq_true, beq_iff_eq, beq_iff_eq] at hr
  rw [Property.map, Property.map, hr.1.1, hr.2, h _ hr.1.2]

theorem Case.map_eq_of_agrees {c : Case α} {c' : Case β} (hr : c.agrees r c' = true)
    (ht : ∀ x ∈ c.test, ∀ y, r x y = true → f x = g y)
    (hb : ∀ x ∈ c.body, ∀ y, r x y = true → f x = g y) : c.map f = c'.map g := by
  rw [Case.agrees, Bool.and_eq_true] at hr
  rw [Case.map, Case.map, map_eq_of_optionAgrees hr.1 ht, map_eq_of_listAgrees hr.2 hb]

theorem Handler.map_eq_of_agrees {i : Handler α} {i' : Handler β} (hr : i.agrees r i' = true)
    (h : ∀ x ∈ i.body, ∀ y, r x y = true → f x = g y) : i.map f = i'.map g := by
  rw [Handler.agrees, Bool.and_eq_true, beq_iff_eq] at hr
  rw [Handler.map, Handler.map, hr.1, map_eq_of_listAgrees hr.2 h]

theorem Literal.unsignZero_eq_of_agrees {l l' : Literal} (h : l.agrees l' = true) :
    l.unsignZero = l'.unsignZero := by
  cases l with
  | number x =>
    cases l' with
    | number y => exact congrArg Literal.number (Binary64.unsignZero_eq_of_agrees h)
    | string t => cases h
  | string s =>
    cases l' with
    | number y => cases h
    | string t => exact congrArg Literal.string (beq_iff_eq.1 h)

theorem Construct.map_eq_of_agrees {c : Construct α} {d : Construct β} (hr : c.agrees r d = true)
    (h : ∀ x ∈ c.children, ∀ y, r x y = true → f x = g y) :
    (c.map f).unsignZero = (d.map g).unsignZero := by
  have one {x : α} (hx : x ∈ c.children) {y : β} (hr : r x y = true) : f x = g y := h x hx y hr
  have option {x : Option α} (hx : ∀ z ∈ x.toList, z ∈ c.children) {y : Option β}
      (hr : optionAgrees r x y = true) : x.map f = y.map g :=
    map_eq_of_optionAgrees hr fun z hz => h z (hx z (Option.mem_toList.2 hz))
  have list {xs : List α} (hxs : ∀ x ∈ xs, x ∈ c.children) {ys : List β}
      (hr : listAgrees r xs ys = true) : xs.map f = ys.map g :=
    map_eq_of_listAgrees hr fun x hx => h x (hxs x hx)
  clear h
  revert hr
  fun_cases Construct.agrees r c d <;> intro hr
  -- first the rows that compare literals, or parts that are not children themselves
  case case6 => exact congrArg literal (Literal.unsignZero_eq_of_agrees hr)
  case case4 bs bs' =>
    have hbs : bs.map (Binding.map f) = bs'.map (Binding.map g) :=
      map_eq_of_listAgrees hr fun b hb b' hbb' =>
        Binding.map_eq_of_agrees hbb' fun x hx y => one (mem_children_vars hb hx)
    exact congrArg vars hbs
  case case12 ps ps' =>
    have hps : ps.map (Property.map f) = ps'.map (Property.map g) :=
      map_eq_of_listAgrees hr fun p hp p' hpp' =>
        Property.map_eq_of_agrees hpp' fun y => one (mem_children_object hp)
    exact congrArg object hps
  case case21 b i l b' i' l' =>
    rw [Bool.and_eq_true, Bool.and_eq_true] at hr
    have hb : b.map f = b'.map g := list (fun x hx => List.mem_append_left _ hx) hr.1.1
    have hi : i.map (Handler.map f) = i'.map (Handler.map g) :=
      map_eq_of_optionAgrees hr.1.2 fun k hk k' hkk' =>
        Handler.map_eq_of_agrees hkk' fun x hx y => one (mem_children_handler hk hx)
    have hl : l.map (List.map f) = l'.map (List.map g) :=
      map_eq_of_optionAgrees hr.2 fun xs hxs ys =>
        list fun x hx => mem_children_finalizer hxs hx
    simp only [map, unsignZero, hb, hi, hl]
  case case25 e cs e' cs' =>
    rw [Bool.and_eq_true] at hr
    have he : f e = g e' := one List.mem_cons_self hr.1
    have hcs : cs.map (Case.map f) = cs'.map (Case.map g) :=
      map_eq_of_listAgrees hr.2 fun k hk k' hkk' => Case.map_eq_of_agrees hkk'
        (fun x hx y => one (mem_children_switch hk (.inl hx)))
        (fun x hx y => one (mem_children_switch hk (.inr hx)))
    simp only [map, unsignZero, he, hcs]
  all_goals grind [map, unsignZero, children]

end
end

namespace Node

instance : Nonempty Node := ⟨.mk (.program [])⟩

/-- some node that passes a test, with its zeros unsigned -/
noncomputable def accepted (test : Node → Bool) : Node :=
  (Classical.epsilon fun m => test m = true).unsignZeros

theorem unsignZeros_eq_of_agrees {a b : Node} (ha : a.Regular) (h : a.agrees b = true) :
    a.unsignZeros = b.unsignZeros := by
  induction a using induct generalizing b with
  | h c ih =>
    obtain ⟨d⟩ := b
    obtain ⟨-, hchildren⟩ := (regular_mk c).1 ha
    -- the tests into which the children are turned tell what the children are
    have haccepted : ∀ x ∈ c.children, accepted x.agrees = x.unsignZeros := by
      intro x hx
      have hsome : ∃ m, x.agrees m = true := ⟨x, agrees_self (hchildren x hx)⟩
      exact (ih x hx (hchildren x hx) (Classical.epsilon_spec hsome)).symm
    have hc : (c.map agrees).map accepted = c.map unsignZeros := by
      rw [Construct.map_map]
      exact Construct.map_congr haccepted
    rw [agrees_mk] at h
    rw [unsignZeros_mk, unsignZeros_mk, ← hc]
    refine congrArg Node.mk (Construct.map_eq_of_agrees h fun test htest m hm => ?_)
    rw [Construct.children_map] at htest
    obtain ⟨x, hx, rfl⟩ := List.mem_map.1 htest
    rw [haccepted x hx]
    exact ih x hx (hchildren x hx) hm

/-- **Regular nodes agree iff they are equal with zeros unsigned.** -/
theorem agrees_iff_unsignZeros {a b : Node} (ha : a.Regular) (hb : b.Regular) :
    a.agrees b = true ↔ a.unsignZeros = b.unsignZeros := by
  constructor
  · exact unsignZeros_eq_of_agrees ha
  · intro h
    rw [← agrees_unsignZeros, h, agrees_unsignZeros]
    exact agrees_self hb

end Node
end TagTree
