import Mathlib.Data.List.Forall2
import TagTree.Json.Token
import TagTree.Node.Basic
import TagTree.Tag

/-!
# The layout of tagged trees as a relation

Which nodes a tree stands for, said without reading order, events or refusals.  `Row` has one rule
for every tag, over a given relation `R` between the trees in child places and what they stand for;
`Decodes` ties the knot.

* `slot?`            what stands in a slot: a missing slot and `null` are both nothing;
* `IsList R`         an array whose elements stand for the members of a list, in order;
* `IsBinding R`, `IsProperty R`, `IsCase R`, `IsHandler R`   the arrays without tag;
* `Row R`            the table of tags;
* `Row.imp`          only what is nested less deep counts;
* `Row.exists_rel`   every child of a construct comes from a tree.
-/

namespace TagTree.Layout

/-- what stands in a slot, if anything does; slots that no rule asks for are ignored -/
def slot? (items : List Json) (i : Nat) : Option Json :=
  match items[i]? with
  | none | some .null => none
  | some t => some t

/-- a key is a text, or a number as it is written -/
inductive IsKey : Json → String → Prop
  | text {key : String} : IsKey (.string key) key
  | number {n : Number} : IsKey (.number n) n.text

inductive IsAccessor : Json → Accessor → Prop
  | get : IsAccessor (.string "get") .get
  | set : IsAccessor (.string "set") .set

/-- `true` is plain assignment; a text is an operator that is applied first -/
inductive IsOperator : Json → String → Prop
  | plain : IsOperator (.bool true) "="
  | compound {op : String} : IsOperator (.string op) (op ++ "=")

section
variable {α : Type} (R : Json → α → Prop)

inductive IsList : Json → List α → Prop
  | mk {ts : List Json} {xs : List α} : List.Forall₂ R ts xs → IsList (.array ts) xs

/-! ## arrays without tag -/

/-- `[name, init?]` -/
inductive IsBinding : Json → Binding α → Prop
  | mk {items : List Json} {name : String} {init : Option α} :
    slot? items 0 = some (.string name) → Option.Rel R (slot? items 1) init →
    IsBinding (.array items) ⟨name, init⟩

/-- `[key, value, accessor?]` -/
inductive IsProperty : Json → Property α → Prop
  | mk {items : List Json} {k v : Json} {key : String} {value : α} {accessor : Option Accessor} :
    slot? items 0 = some k → IsKey k key → slot? items 1 = some v → R v value →
    Option.Rel IsAccessor (slot? items 2) accessor →
    IsProperty (.array items) ⟨key, value, accessor⟩

/-- `[test?, body]`; without a test it is the default -/
inductive IsCase : Json → Case α → Prop
  | mk {items : List Json} {b : Json} {test : Option α} {body : List α} :
    Option.Rel R (slot? items 0) test → slot? items 1 = some b → IsList R b body →
    IsCase (.array items) ⟨test, body⟩

/-- `[param, body]` -/
inductive IsHandler : Json → Handler α → Prop
  | mk {items : List Json} {b : Json} {param : String} {body : List α} :
    slot? items 0 = some (.string param) → slot? items 1 = some b → IsList R b body →
    IsHandler (.array items) ⟨param, body⟩

/-! ## tagged arrays -/

/-- the rules, one for every tag; slot 0 holds the tag itself -/
inductive Row : Tag → List Json → Construct α → Prop
  | toplevel {s b body} : slot? s 1 = some b → IsList R b body → Row .toplevel s (.program body)
  | defun {s b name params body} : slot? s 1 = Option.map .string name →
    slot? s 2 = some (.array (params.map .string)) → slot? s 3 = some b → IsList R b body →
    Row .defun s (.function .declaration name params body)
  | function {s b name params body} : slot? s 1 = Option.map .string name →
    slot? s 2 = some (.array (params.map .string)) → slot? s 3 = some b → IsList R b body →
    Row .function s (.function .expression name params body)
  | returns {s value} : Option.Rel R (slot? s 1) value → Row .returns s (.returns value)
  | vars {s b bindings} : slot? s 1 = some b → IsList (IsBinding R) b bindings →
    Row .vars s (.vars bindings)
  | stat {s t e} : slot? s 1 = some t → R t e → Row .stat s (.statement e)
  | num {s n} : slot? s 1 = some (.number n) → Row .num s (.literal (.number n.toDouble))
  | string {s x} : slot? s 1 = some (.string x) → Row .string s (.literal (.string x))
  | name {s x} : slot? s 1 = some (.string x) → Row .name s (.identifier x)
  | binary {s op t₁ t₂ l r} : slot? s 1 = some (.string op) → slot? s 2 = some t₁ → R t₁ l →
    slot? s 3 = some t₂ → R t₂ r → Row .binary s (.binary op l r)
  | array {s b elements} : slot? s 1 = some b → IsList R b elements → Row .array s (.array elements)
  | call {s t b callee args} : slot? s 1 = some t → R t callee → slot? s 2 = some b →
    IsList R b args → Row .call s (.call callee args)
  | regexp {s pattern flags} : slot? s 1 = some (.string pattern) →
    slot? s 2 = Option.map .string flags → Row .regexp s (.regex pattern (flags.getD ""))
  | object {s b properties} : slot? s 1 = some b → IsList (IsProperty R) b properties →
    Row .object s (.object properties)
  | block {s body} : Option.Rel (IsList R) (slot? s 1) body → Row .block s (.block (body.getD []))
  | ifElse {s t₁ t₂ c t e} : slot? s 1 = some t₁ → R t₁ c → slot? s 2 = some t₂ → R t₂ t →
    Option.Rel R (slot? s 3) e → Row .ifElse s (.ifElse c t e)
  | assign {s o t₁ t₂ op t v} : slot? s 1 = some o → IsOperator o op → slot? s 2 = some t₁ →
    R t₁ t → slot? s 3 = some t₂ → R t₂ v → Row .assign s (.assignment op t v)
  | unaryPrefix {s op t x} : slot? s 1 = some (.string op) → slot? s 2 = some t → R t x →
    Row .unaryPrefix s (.unaryPrefix op x)
  | unaryPostfix {s op t x} : slot? s 1 = some (.string op) → slot? s 2 = some t → R t x →
    Row .unaryPostfix s (.unaryPostfix op x)
  | new {s t c args} : slot? s 1 = some t → R t c → Option.Rel (IsList R) (slot? s 2) args →
    Row .new s (.new c (args.getD []))
  | dot {s t o name} : slot? s 1 = some t → R t o → slot? s 2 = some (.string name) →
    Row .dot s (.member o name)
  | sub {s t₁ t₂ o i} : slot? s 1 = some t₁ → R t₁ o → slot? s 2 = some t₂ → R t₂ i →
    Row .sub s (.index o i)
  | tryCatch {s b body h fin} : slot? s 1 = some b → IsList R b body →
    Option.Rel (IsHandler R) (slot? s 2) h → Option.Rel (IsList R) (slot? s 3) fin →
    Row .tryCatch s (.tryCatch body h fin)
  | throws {s t v} : slot? s 1 = some t → R t v → Row .throws s (.throws v)
  | whileLoop {s t₁ t₂ c b} : slot? s 1 = some t₁ → R t₁ c → slot? s 2 = some t₂ → R t₂ b →
    Row .whileLoop s (.whileLoop c b)
  | doWhile {s t₁ t₂ c b} : slot? s 1 = some t₁ → R t₁ c → slot? s 2 = some t₂ → R t₂ b →
    Row .doWhile s (.doWhile c b)
  | switch {s t b d cases} : slot? s 1 = some t → R t d → slot? s 2 = some b →
    IsList (IsCase R) b cases → Row .switch s (.switch d cases)
  | forLoop {s t i c u b} : Option.Rel R (slot? s 1) i → Option.Rel R (slot? s 2) c →
    Option.Rel R (slot? s 3) u → slot? s 4 = some t → R t b → Row .forLoop s (.forLoop i c u b)
  | forIn {s t₁ t₂ t₃ t₄ i l o b} : slot? s 1 = some t₁ → R t₁ i → slot? s 2 = some t₂ → R t₂ l →
    slot? s 3 = some t₃ → R t₃ o → slot? s 4 = some t₄ → R t₄ b → Row .forIn s (.forIn i l o b)
  | seq {s es} : List.Forall₂ R (s.drop 1) es → Row .seq s (.sequence es)
  | conditional {s t₁ t₂ t₃ c t e} : slot? s 1 = some t₁ → R t₁ c → slot? s 2 = some t₂ → R t₂ t →
    slot? s 3 = some t₃ → R t₃ e → Row .conditional s (.ternary c t e)
  | breaks {s label} : slot? s 1 = Option.map .string label → Row .breaks s (.breaks label)
  | continues {s label} : slot? s 1 = Option.map .string label → Row .continues s (.continues label)
  | label {s label t b} : slot? s 1 = some (.string label) → slot? s 2 = some t → R t b →
    Row .label s (.labeled label b)

end

inductive Decodes : Json → Node → Prop
  | mk {tag : Tag} {slots : List Json} {c : Construct Node} :
    Row Decodes tag (.string tag.spelling :: slots) c →
    Decodes (.array (.string tag.spelling :: slots)) (.mk c)

/-! ## what a row depends on -/

theorem slot?_eq_some {items : List Json} {i : Nat} {t : Json} (h : slot? items i = some t) :
    items[i]? = some t := by
  unfold slot? at h
  split at h
  · cases h
  · cases h
  · rename_i ht
    rwa [Option.some.inj h] at ht

theorem depth_lt_of_slot? {items : List Json} {i : Nat} {t : Json} (h : slot? items i = some t) :
    t.depth < (Json.array items).depth :=
  Json.depth_lt_of_mem (List.mem_of_getElem? (slot?_eq_some h))

theorem IsList.imp {β : Type} {R S : Json → β → Prop} (h : ∀ t x, R t x → S t x) {t : Json}
    {xs : List β} (hr : IsList R t xs) : IsList S t xs := by
  obtain ⟨hr⟩ := hr
  exact .mk (hr.imp h)

theorem rel_imp {β : Type} {R S : Json → β → Prop} (h : ∀ t x, R t x → S t x) {t : Option Json}
    {x : Option β} (hr : Option.Rel R t x) : Option.Rel S t x := by
  cases hr with
  | none => exact .none
  | some hx => exact .some (h _ _ hx)

/-- below a depth, the first relation implies the second -/
def ImpBelow {β : Type} (d : Nat) (R S : Json → β → Prop) : Prop :=
  ∀ (t : Json) (x : β), t.depth < d → R t x → S t x

section
variable {α β : Type} {R S : Json → α → Prop} {d : Nat}

theorem ImpBelow.forall₂ {P Q : Json → β → Prop} (h : ImpBelow d P Q) {ts : List Json}
    {xs : List β} (hts : ∀ t ∈ ts, t.depth < d) (hr : List.Forall₂ P ts xs) :
    List.Forall₂ Q ts xs := by
  induction hr with
  | nil => exact .nil
  | cons hx _ ih =>
    refine .cons (h _ _ (hts _ List.mem_cons_self) hx) (ih fun t ht => ?_)
    exact hts t (List.mem_cons_of_mem _ ht)

theorem ImpBelow.isList {P Q : Json → β → Prop} (h : ImpBelow d P Q) :
    ImpBelow d (IsList P) (IsList Q) := by
  rintro _ xs ht ⟨hr⟩
  refine .mk (h.forall₂ (fun t hm => ?_) hr)
  exact Nat.lt_trans (Json.depth_lt_of_mem hm) ht

theorem ImpBelow.rel {P Q : Json → β → Prop} (h : ImpBelow d P Q) {items : List Json}
    (hd : (Json.array items).depth ≤ d) {i : Nat} {x : Option β}
    (hr : Option.Rel P (slot? items i) x) : Option.Rel Q (slot? items i) x := by
  cases hs : slot? items i with
  | none =>
    rw [hs] at hr
    cases hr
    exact .none
  | some t =>
    rw [hs] at hr
    cases hr with
    | some hx => exact .some (h _ _ (Nat.lt_of_lt_of_le (depth_lt_of_slot? hs) hd) hx)

theorem ImpBelow.slot {P Q : Json → β → Prop} (h : ImpBelow d P Q) {items : List Json}
    (hd : (Json.array items).depth ≤ d) {i : Nat} {t : Json} {x : β}
    (hs : slot? items i = some t) (hx : P t x) : Q t x :=
  h _ _ (Nat.lt_of_lt_of_le (depth_lt_of_slot? hs) hd) hx

theorem ImpBelow.isBinding (h : ImpBelow d R S) : ImpBelow d (IsBinding R) (IsBinding S) := by
  rintro _ b ht ⟨hn, hi⟩
  exact .mk hn (h.rel (Nat.le_of_lt ht) hi)

theorem ImpBelow.isProperty (h : ImpBelow d R S) : ImpBelow d (IsProperty R) (IsProperty S) := by
  rintro _ p ht ⟨hk, hkey, hv, hx, ha⟩
  exact .mk hk hkey hv (h.slot (Nat.le_of_lt ht) hv hx) ha

theorem ImpBelow.isCase (h : ImpBelow d R S) : ImpBelow d (IsCase R) (IsCase S) := by
  rintro _ c ht ⟨htest, hb, hbody⟩
  exact .mk (h.rel (Nat.le_of_lt ht) htest) hb (h.isList.slot (Nat.le_of_lt ht) hb hbody)

theorem ImpBelow.isHandler (h : ImpBelow d R S) : ImpBelow d (IsHandler R) (IsHandler S) := by
  rintro _ c ht ⟨hp, hb, hbody⟩
  exact .mk hp hb (h.isList.slot (Nat.le_of_lt ht) hb hbody)

/-- only what is nested less deep than the array counts -/
theorem Row.imp {tag : Tag} {s : List Json} {c : Construct α}
    (h : ImpBelow (Json.array s).depth R S) (hr : Row R tag s c) : Row S tag s c := by
  have one {i : Nat} {t : Json} {x : α} : slot? s i = some t → R t x → S t x :=
    h.slot (Nat.le_refl _)
  have many {i : Nat} {t : Json} {xs : List α} :
      slot? s i = some t → IsList R t xs → IsList S t xs := h.isList.slot (Nat.le_refl _)
  have maybe {i : Nat} {x : Option α} : Option.Rel R (slot? s i) x → Option.Rel S (slot? s i) x :=
    h.rel (Nat.le_refl _)
  have maybeMany {i : Nat} {xs : Option (List α)} :
      Option.Rel (IsList R) (slot? s i) xs → Option.Rel (IsList S) (slot? s i) xs :=
    h.isList.rel (Nat.le_refl _)
  cases hr with
  | toplevel hb h₁ => exact .toplevel hb (many hb h₁)
  | defun hn hp hb h₁ => exact .defun hn hp hb (many hb h₁)
  | function hn hp hb h₁ => exact .function hn hp hb (many hb h₁)
  | returns h₁ => exact .returns (maybe h₁)
  | vars hb h₁ => exact .vars hb (h.isBinding.isList.slot (Nat.le_refl _) hb h₁)
  | stat ht h₁ => exact .stat ht (one ht h₁)
  | num hn => exact .num hn
  | string hx => exact .string hx
  | name hx => exact .name hx
  | binary ho hl h₁ hr h₂ => exact .binary ho hl (one hl h₁) hr (one hr h₂)
  | array hb h₁ => exact .array hb (many hb h₁)
  | call ht h₁ hb h₂ => exact .call ht (one ht h₁) hb (many hb h₂)
  | regexp hp hf => exact .regexp hp hf
  | object hb h₁ => exact .object hb (h.isProperty.isList.slot (Nat.le_refl _) hb h₁)
  | block h₁ => exact .block (maybeMany h₁)
  | ifElse hc h₁ ht h₂ h₃ => exact .ifElse hc (one hc h₁) ht (one ht h₂) (maybe h₃)
  | assign ho hop ht h₁ hv h₂ => exact .assign ho hop ht (one ht h₁) hv (one hv h₂)
  | unaryPrefix ho hx h₁ => exact .unaryPrefix ho hx (one hx h₁)
  | unaryPostfix ho hx h₁ => exact .unaryPostfix ho hx (one hx h₁)
  | new hc h₁ h₂ => exact .new hc (one hc h₁) (maybeMany h₂)
  | dot ho h₁ hn => exact .dot ho (one ho h₁) hn
  | sub ho h₁ hi h₂ => exact .sub ho (one ho h₁) hi (one hi h₂)
  | tryCatch hb h₁ h₂ h₃ =>
    exact .tryCatch hb (many hb h₁) (h.isHandler.rel (Nat.le_refl _) h₂) (maybeMany h₃)
  | throws hv h₁ => exact .throws hv (one hv h₁)
  | whileLoop hc h₁ hb h₂ => exact .whileLoop hc (one hc h₁) hb (one hb h₂)
  | doWhile hc h₁ hb h₂ => exact .doWhile hc (one hc h₁) hb (one hb h₂)
  | switch hd h₁ hb h₂ =>
    exact .switch hd (one hd h₁) hb (h.isCase.isList.slot (Nat.le_refl _) hb h₂)
  | forLoop h₁ h₂ h₃ hb h₄ => exact .forLoop (maybe h₁) (maybe h₂) (maybe h₃) hb (one hb h₄)
  | forIn hi h₁ hl h₂ ho h₃ hb h₄ =>
    exact .forIn hi (one hi h₁) hl (one hl h₂) ho (one ho h₃) hb (one hb h₄)
  | seq h₁ =>
    refine .seq (h.forall₂ (fun t ht => ?_) h₁)
    exact Json.depth_lt_of_mem (List.mem_of_mem_drop ht)
  | conditional hc h₁ ht h₂ he h₃ =>
    exact .conditional hc (one hc h₁) ht (one ht h₂) he (one he h₃)
  | breaks hl => exact .breaks hl
  | continues hl => exact .continues hl
  | label hl hb h₁ => exact .label hl hb (one hb h₁)

/-! ## where children come from -/

theorem exists_rel_of_forall₂ {P : Json → β → Prop} {ts : List Json} {xs : List β} {x : β}
    (h : List.Forall₂ P ts xs) (hx : x ∈ xs) : ∃ t, P t x := by
  induction h with
  | nil => cases hx
  | cons h₁ _ ih =>
    rcases List.mem_cons.1 hx with rfl | hx
    · exact ⟨_, h₁⟩
    · exact ih hx

theorem IsList.exists_rel {P : Json → β → Prop} {t : Json} {xs : List β} {x : β}
    (h : IsList P t xs) (hx : x ∈ xs) : ∃ t, P t x := by
  obtain ⟨h⟩ := h
  exact exists_rel_of_forall₂ h hx

theorem exists_rel_of_rel {P : Json → β → Prop} {t : Option Json} {y : Option β} {x : β}
    (h : Option.Rel P t y) (hx : x ∈ y.toList) : ∃ t, P t x := by
  cases h with
  | none => cases hx
  | some h =>
    cases List.mem_singleton.1 hx
    exact ⟨_, h⟩

theorem exists_rel_cons {P : Json → β → Prop} {t : Json} {x y : β} {xs : List β} (h : P t y)
    (hs : x ∈ xs → ∃ t, P t x) (hx : x ∈ y :: xs) : ∃ t, P t x := by
  rcases List.mem_cons.1 hx with rfl | hx
  · exact ⟨_, h⟩
  · exact hs hx

theorem exists_rel_single {P : Json → β → Prop} {t : Json} {x y : β} (h : P t y) (hx : x ∈ [y]) :
    ∃ t, P t x := by
  cases List.mem_singleton.1 hx
  exact ⟨_, h⟩

theorem exists_rel_append {P : Json → β → Prop} {x : β} {xs ys : List β}
    (h₁ : x ∈ xs → ∃ t, P t x) (h₂ : x ∈ ys → ∃ t, P t x) (hx : x ∈ xs ++ ys) : ∃ t, P t x := by
  rcases List.mem_append.1 hx with hx | hx
  · exact h₁ hx
  · exact h₂ hx

theorem exists_rel_getD {P : Json → β → Prop} {t : Option Json} {xs : Option (List β)} {x : β}
    (h : Option.Rel (IsList P) t xs) (hx : x ∈ xs.getD []) : ∃ t, P t x := by
  cases h with
  | none => cases hx
  | some h => exact h.exists_rel hx

/-- every child of a construct comes from a tree -/
theorem Row.exists_rel {tag : Tag} {s : List Json} {c : Construct α} {x : α}
    (hr : Row R tag s c) (hx : x ∈ c.children) : ∃ t, R t x := by
  cases hr with
  | toplevel _ h₁ => exact h₁.exists_rel hx
  | defun _ _ _ h₁ => exact h₁.exists_rel hx
  | function _ _ _ h₁ => exact h₁.exists_rel hx
  | returns h₁ => exact exists_rel_of_rel h₁ hx
  | vars _ h₁ =>
    obtain ⟨b, hb, hx⟩ := List.mem_flatMap.1 hx
    obtain ⟨_, ⟨_, hi⟩⟩ := h₁.exists_rel hb
    exact exists_rel_of_rel hi hx
  | stat _ h₁ => exact exists_rel_single h₁ hx
  | num _ => cases hx
  | string _ => cases hx
  | name _ => cases hx
  | binary _ _ h₁ _ h₂ => exact exists_rel_cons h₁ (exists_rel_single h₂) hx
  | array _ h₁ => exact h₁.exists_rel hx
  | call _ h₁ _ h₂ => exact exists_rel_cons h₁ h₂.exists_rel hx
  | regexp _ _ => cases hx
  | object _ h₁ =>
    obtain ⟨p, hp, rfl⟩ := List.mem_map.1 hx
    obtain ⟨_, ⟨_, _, _, hv, _⟩⟩ := h₁.exists_rel hp
    exact ⟨_, hv⟩
  | block h₁ => exact exists_rel_getD h₁ hx
  | ifElse _ h₁ _ h₂ h₃ =>
    exact exists_rel_cons h₁ (exists_rel_cons h₂ (exists_rel_of_rel h₃)) hx
  | assign _ _ _ h₁ _ h₂ => exact exists_rel_cons h₁ (exists_rel_single h₂) hx
  | unaryPrefix _ _ h₁ => exact exists_rel_single h₁ hx
  | unaryPostfix _ _ h₁ => exact exists_rel_single h₁ hx
  | new _ h₁ h₂ => exact exists_rel_cons h₁ (exists_rel_getD h₂) hx
  | dot _ h₁ _ => exact exists_rel_single h₁ hx
  | sub _ h₁ _ h₂ => exact exists_rel_cons h₁ (exists_rel_single h₂) hx
  | tryCatch _ h₁ h₂ h₃ =>
    refine exists_rel_append h₁.exists_rel
      (exists_rel_append (fun hx => ?_) (exists_rel_getD h₃)) hx
    obtain ⟨c, hc, hx⟩ := List.mem_flatMap.1 hx
    obtain ⟨_, ⟨_, _, hb⟩⟩ := exists_rel_of_rel h₂ hc
    exact hb.exists_rel hx
  | throws _ h₁ => exact exists_rel_single h₁ hx
  | whileLoop _ h₁ _ h₂ => exact exists_rel_cons h₁ (exists_rel_single h₂) hx
  | doWhile _ h₁ _ h₂ => exact exists_rel_cons h₁ (exists_rel_single h₂) hx
  | switch _ h₁ _ h₂ =>
    refine exists_rel_cons h₁ (fun hx => ?_) hx
    obtain ⟨c, hc, hx⟩ := List.mem_flatMap.1 hx
    obtain ⟨_, ⟨ht, _, hb⟩⟩ := h₂.exists_rel hc
    exact exists_rel_append (exists_rel_of_rel ht) hb.exists_rel hx
  | forLoop h₁ h₂ h₃ _ h₄ =>
    exact exists_rel_append (exists_rel_of_rel h₁) (exists_rel_append (exists_rel_of_rel h₂)
      (exists_rel_append (exists_rel_of_rel h₃) (exists_rel_single h₄))) hx
  | forIn _ h₁ _ h₂ _ h₃ _ h₄ =>
    exact exists_rel_cons h₁ (exists_rel_cons h₂ (exists_rel_cons h₃ (exists_rel_single h₄))) hx
  | seq h₁ => exact exists_rel_of_forall₂ h₁ hx
  | conditional _ h₁ _ h₂ _ h₃ =>
    exact exists_rel_cons h₁ (exists_rel_cons h₂ (exists_rel_single h₃)) hx
  | breaks _ => cases hx
  | continues _ => cases hx
  | label _ _ h₁ => exact exists_rel_single h₁ hx

end

/-- what passes from the child places of an array to the array holds of all trees that stand for
a node -/
theorem Decodes.induct {P : Json → Node → Prop}
    (step : ∀ (tag : Tag) (slots : List Json) (c : Construct Node),
      Row P tag (.string tag.spelling :: slots) c →
      P (.array (.string tag.spelling :: slots)) (.mk c))
    {t : Json} {n : Node} (h : Decodes t n) : P t n := by
  -- the depth of the tree bounds the depth of its child places
  suffices H : ∀ d : Nat, ImpBelow d Decodes P from H (t.depth + 1) t n (Nat.lt_succ_self _) h
  intro d
  induction d with
  | zero => exact fun _ _ hd => absurd hd (Nat.not_lt_zero _)
  | succ d ih =>
    rintro _ _ hd ⟨hr⟩
    refine step _ _ _ (hr.imp fun u x hu => ih u x ?_)
    omega

end TagTree.Layout
