import TagTree.Decode.Inside
import TagTree.Proofs.Layout

/-!
# Decoding is the layout

A decoder succeeds with exactly what the layout relation allows.  Every reader of slots has one
lemma about its success; a construct is read by the row of its tag, and the depth of a tree carries
this to the whole tree.

* `row_of_construct`        the slots of a tag are read with success only if its row holds;
* `construct_of_row`        and they are, if it does;
* `layer_eq_ok`             both, for a whole tagged array;
* `decode_ok_iff_decodes`   a tree decodes to a node iff it stands for the node.
-/

namespace TagTree

/-! ## success, reader by reader -/

namespace Traced
variable {ε α β : Type}

theorem result_bind_eq_ok {x : Traced ε α} {f : α → Traced ε β} {b : β} :
    (x >>= f).result = .ok b ↔ ∃ a, x.result = .ok a ∧ (f a).result = .ok b := by
  rw [result_bind]
  cases x.result <;> simp

theorem ok_bind {x : Traced ε α} {f : α → Traced ε β} {a : α} {b : β} (hx : x.result = .ok a)
    (hf : (f a).result = .ok b) : (x >>= f).result = .ok b :=
  result_bind_eq_ok.2 ⟨a, hx, hf⟩

theorem result_pure_eq_ok {a b : α} : (pure a : Traced ε α).result = .ok b ↔ a = b := by
  show Except.ok a = Except.ok b ↔ a = b
  simp

theorem result_each_eq_ok {f : α → Traced ε β} {xs : List α} {ys : List β} :
    (each f xs).result = .ok ys ↔ List.Forall₂ (fun x y => (f x).result = .ok y) xs ys := by
  induction xs generalizing ys with
  | nil => rw [each, result_pure_eq_ok, List.forall₂_nil_left_iff, eq_comm]
  | cons x xs ih =>
    simp only [each, result_bind_eq_ok, result_pure_eq_ok, List.forall₂_cons_left_iff, ih]
    constructor
    · rintro ⟨y, hy, ys, hys, rfl⟩
      exact ⟨y, ys, hy, hys, rfl⟩
    · rintro ⟨y, ys, hy, hys, rfl⟩
      exact ⟨y, hy, ys, hys, rfl⟩

theorem result_optional_eq_ok {f : α → Traced ε β} {x : Option α} {y : Option β} :
    (optional f x).result = .ok y ↔ Option.Rel (fun x y => (f x).result = .ok y) x y := by
  cases x with
  | none =>
    rw [optional, result_pure_eq_ok]
    cases y <;> simp
  | some x =>
    simp only [optional, result_bind_eq_ok, result_pure_eq_ok]
    cases y <;> simp

end Traced

/-- the decoder succeeds at a tree with the value -/
def Decode.Gives {β : Type} (f : Json → Traced Refusal β) (t : Json) (x : β) : Prop :=
  (f t).result = .ok x

namespace Slots
open Traced Layout Decode
variable {β : Type} {f : Json → Traced Refusal β} {s : Slots} {i : Nat}

theorem result_refuse {flaw : Flaw} {x : β} : (s.refuse flaw : Traced Refusal β).result ≠ .ok x :=
  nofun

theorem present?_eq : s.present? i = slot? s.items i := by
  unfold present? slot?
  cases h : s.items[i]? with
  | none => rfl
  | some t => cases t <;> rfl

theorem required_eq_ok {wanted : Wanted} {t : Json} :
    (s.required i wanted).result = .ok t ↔ slot? s.items i = some t := by
  unfold required
  rw [present?_eq]
  cases slot? s.items i with
  | none => exact ⟨nofun, nofun⟩
  | some u => rw [result_pure_eq_ok, Option.some.injEq]

theorem string?_eq_ok {x : Option String} :
    (s.string? i).result = .ok x ↔ slot? s.items i = x.map .string := by
  unfold string?
  rw [present?_eq]
  cases slot? s.items i with
  | none =>
    rw [result_pure_eq_ok]
    cases x <;> simp
  | some t =>
    cases t with
    | string y =>
      rw [result_pure_eq_ok]
      cases x <;> simp
    | _ => cases x <;> exact ⟨nofun, nofun⟩

theorem string_eq_ok {x : String} :
    (s.string i).result = .ok x ↔ slot? s.items i = some (.string x) := by
  unfold string
  rw [result_bind_eq_ok]
  constructor
  · rintro ⟨y, hy, hx⟩
    rw [string?_eq_ok] at hy
    cases y with
    | none => exact absurd hx result_refuse
    | some y =>
      rw [result_pure_eq_ok] at hx
      rw [hy, hx]
      rfl
  · intro h
    exact ⟨some x, string?_eq_ok.2 h, result_pure_eq_ok.2 rfl⟩

theorem number_eq_ok {x : Binary64} :
    (s.number i).result = .ok x ↔ ∃ n, slot? s.items i = some (.number n) ∧ n.toDouble = x := by
  unfold number
  rw [result_bind_eq_ok]
  constructor
  · rintro ⟨t, ht, hx⟩
    rw [required_eq_ok] at ht
    cases t with
    | number n => exact ⟨n, ht, result_pure_eq_ok.1 hx⟩
    | _ => exact absurd hx result_refuse
  · rintro ⟨n, hn, hx⟩
    exact ⟨.number n, required_eq_ok.2 hn, result_pure_eq_ok.2 hx⟩

theorem array_eq_ok {ts : List Json} :
    (s.array i).result = .ok ts ↔ slot? s.items i = some (.array ts) := by
  unfold array
  rw [result_bind_eq_ok]
  constructor
  · rintro ⟨t, ht, hx⟩
    rw [required_eq_ok] at ht
    cases t with
    | array us =>
      rw [result_pure_eq_ok] at hx
      rw [ht, hx]
    | _ => exact absurd hx result_refuse
  · intro h
    exact ⟨.array ts, required_eq_ok.2 h, result_pure_eq_ok.2 rfl⟩

theorem child_eq_ok {x : β} :
    (s.child i f).result = .ok x ↔ ∃ t, slot? s.items i = some t ∧ Gives f t x := by
  unfold child
  rw [result_bind_eq_ok]
  simp only [required_eq_ok]
  rfl

theorem child?_eq_ok {x : Option β} :
    (s.child? i f).result = .ok x ↔ Option.Rel (Gives f) (slot? s.items i) x := by
  unfold child?
  rw [result_optional_eq_ok, present?_eq]
  rfl

theorem each_eq_ok {xs : List β} :
    (s.each i f).result = .ok xs ↔ ∃ t, slot? s.items i = some t ∧ IsList (Gives f) t xs := by
  unfold each
  rw [result_bind_eq_ok]
  simp only [array_eq_ok, result_each_eq_ok]
  constructor
  · rintro ⟨ts, ht, hx⟩
    exact ⟨_, ht, .mk hx⟩
  · rintro ⟨_, ht, ⟨hx⟩⟩
    exact ⟨_, ht, hx⟩

theorem each?_eq_ok {xs : Option (List β)} :
    (s.each? i f).result = .ok xs ↔ Option.Rel (IsList (Gives f)) (slot? s.items i) xs := by
  unfold each?
  rw [present?_eq]
  cases hs : slot? s.items i with
  | none =>
    rw [result_pure_eq_ok]
    cases xs <;> simp
  | some t =>
    simp only [result_bind_eq_ok, result_pure_eq_ok, each_eq_ok, hs]
    cases xs <;> simp

theorem rest_eq_ok {xs : List β} :
    (s.rest i f).result = .ok xs ↔ List.Forall₂ (Gives f) (s.items.drop i) xs :=
  result_each_eq_ok

theorem positional_eq_ok {name : String} {t : Json} :
    (positional name t).result = .ok s ↔ ∃ items, t = .array items ∧ s = ⟨name, items⟩ := by
  cases t with
  | array items =>
    rw [positional, result_pure_eq_ok]
    simp [eq_comm]
  | _ => exact ⟨nofun, fun ⟨_, h, _⟩ => nomatch h⟩

end Slots

namespace Decode
open Traced Slots Layout

/-! ## parts -/

theorem params_eq_ok {s : Slots} {ts : List Json} {i : Nat} {xs : List String} :
    (params s i ts).result = .ok xs ↔ ts = xs.map .string := by
  induction ts generalizing i xs with
  | nil =>
    rw [params, result_pure_eq_ok]
    cases xs <;> simp
  | cons t ts ih =>
    cases t with
    | string x =>
      simp only [params, result_bind_eq_ok, result_pure_eq_ok, ih]
      constructor
      · rintro ⟨ys, rfl, rfl⟩
        rfl
      · intro h
        cases xs with
        | nil => cases h
        | cons y ys =>
          rw [List.map_cons, List.cons.injEq, Json.string.injEq] at h
          exact ⟨ys, h.2, by rw [h.1]⟩
    | _ => cases xs <;> exact ⟨nofun, nofun⟩

theorem assignmentOperator_eq_ok {s : Slots} {op : String} :
    (assignmentOperator s).result = .ok op ↔ ∃ t, slot? s.items 1 = some t ∧ IsOperator t op := by
  unfold assignmentOperator
  rw [present?_eq]
  constructor
  · intro h
    split at h
    · rename_i ht
      rw [← result_pure_eq_ok.1 h]
      exact ⟨_, ht, .plain⟩
    · rename_i ht
      rw [← result_pure_eq_ok.1 h]
      exact ⟨_, ht, .compound⟩
    · exact absurd h result_refuse
  · rintro ⟨t, ht, ho⟩
    rw [ht]
    cases ho <;> rfl

theorem propertyKey_eq_ok {s : Slots} {key : String} :
    (propertyKey s).result = .ok key ↔ ∃ t, slot? s.items 0 = some t ∧ IsKey t key := by
  unfold propertyKey
  rw [present?_eq]
  constructor
  · intro h
    split at h
    · rename_i ht
      rw [← result_pure_eq_ok.1 h]
      exact ⟨_, ht, .text⟩
    · rename_i ht
      rw [← result_pure_eq_ok.1 h]
      exact ⟨_, ht, .number⟩
    · exact absurd h result_refuse
  · rintro ⟨t, ht, hk⟩
    rw [ht]
    cases hk <;> rfl

theorem accessor_eq_ok {s : Slots} {a : Option Accessor} :
    (accessor s).result = .ok a ↔ Option.Rel IsAccessor (slot? s.items 2) a := by
  unfold accessor
  rw [result_bind_eq_ok]
  constructor
  · rintro ⟨x, hx, ha⟩
    rw [string?_eq_ok] at hx
    rw [hx]
    cases x with
    | none =>
      rw [← result_pure_eq_ok.1 ha]
      exact .none
    | some x =>
      dsimp only at ha
      split at ha
      · rename_i hget
        rw [← result_pure_eq_ok.1 ha, hget]
        exact .some .get
      · split at ha
        · rename_i hset
          rw [← result_pure_eq_ok.1 ha, hset]
          exact .some .set
        · exact absurd ha result_refuse
  · intro h
    simp only [string?_eq_ok]
    generalize slot? s.items 2 = t at h
    cases h with
    | none => exact ⟨none, rfl, rfl⟩
    | some h =>
      cases h with
      | get => exact ⟨some "get", rfl, rfl⟩
      | set => exact ⟨some "set", rfl, rfl⟩

section
variable {α : Type} {f : Json → Traced Refusal α}

theorem gives_binding : Gives (binding f) = IsBinding (Gives f) := by
  funext t b
  simp only [Gives, binding, result_bind_eq_ok, result_pure_eq_ok, positional_eq_ok, string_eq_ok,
    child?_eq_ok, eq_iff_iff]
  constructor
  · rintro ⟨_, ⟨items, rfl, rfl⟩, name, hn, init, hi, rfl⟩
    exact .mk hn hi
  · rintro ⟨hn, hi⟩
    exact ⟨_, ⟨_, rfl, rfl⟩, _, hn, _, hi, rfl⟩

theorem gives_property : Gives (property f) = IsProperty (Gives f) := by
  funext t p
  simp only [Gives, property, result_bind_eq_ok, result_pure_eq_ok, positional_eq_ok,
    propertyKey_eq_ok, accessor_eq_ok, child_eq_ok, eq_iff_iff]
  constructor
  · rintro ⟨_, ⟨items, rfl, rfl⟩, key, ⟨k, hk, hkey⟩, a, ha, value, ⟨v, hv, hx⟩, rfl⟩
    exact .mk hk hkey hv hx ha
  · rintro ⟨hk, hkey, hv, hx, ha⟩
    exact ⟨_, ⟨_, rfl, rfl⟩, _, ⟨_, hk, hkey⟩, _, ha, _, ⟨_, hv, hx⟩, rfl⟩

theorem gives_switchCase : Gives (switchCase f) = IsCase (Gives f) := by
  funext t c
  simp only [Gives, switchCase, result_bind_eq_ok, result_pure_eq_ok, positional_eq_ok,
    child?_eq_ok, each_eq_ok, eq_iff_iff]
  constructor
  · rintro ⟨_, ⟨items, rfl, rfl⟩, test, ht, body, ⟨b, hb, hx⟩, rfl⟩
    exact .mk ht hb hx
  · rintro ⟨ht, hb, hx⟩
    exact ⟨_, ⟨_, rfl, rfl⟩, _, ht, _, ⟨_, hb, hx⟩, rfl⟩

theorem gives_handler : Gives (handler f) = IsHandler (Gives f) := by
  funext t h
  simp only [Gives, handler, result_bind_eq_ok, result_pure_eq_ok, positional_eq_ok,
    string_eq_ok, each_eq_ok, eq_iff_iff]
  constructor
  · rintro ⟨_, ⟨items, rfl, rfl⟩, param, hp, body, ⟨b, hb, hx⟩, rfl⟩
    exact .mk hp hb hx
  · rintro ⟨hp, hb, hx⟩
    exact ⟨_, ⟨_, rfl, rfl⟩, _, hp, _, ⟨_, hb, hx⟩, rfl⟩

/-! ## constructs -/

theorem function_eq_ok {form : FunctionForm} {s : Slots} {c : Construct α} :
    (function f form s).result = .ok c ↔ ∃ name params body b,
      slot? s.items 1 = Option.map .string name ∧
      slot? s.items 2 = some (.array (params.map .string)) ∧
      slot? s.items 3 = some b ∧ IsList (Gives f) b body ∧
      .function form name params body = c := by
  simp only [function, result_bind_eq_ok, result_pure_eq_ok, array_eq_ok, params_eq_ok,
    string?_eq_ok, each_eq_ok]
  constructor
  · rintro ⟨_, hp, params, rfl, name, hn, body, ⟨b, hb, hx⟩, rfl⟩
    exact ⟨name, params, body, b, hn, hp, hb, hx, rfl⟩
  · rintro ⟨name, params, body, b, hn, hp, hb, hx, rfl⟩
    exact ⟨_, hp, params, rfl, name, hn, body, ⟨b, hb, hx⟩, rfl⟩

theorem row_of_construct {tag : Tag} {s : Slots} {c : Construct α}
    (h : (construct f tag s).result = .ok c) : Row (Gives f) tag s.items c := by
  cases tag <;>
    simp only [construct, result_bind_eq_ok, result_pure_eq_ok, function_eq_ok, string_eq_ok,
      string?_eq_ok, number_eq_ok, child_eq_ok, child?_eq_ok, each_eq_ok, each?_eq_ok, rest_eq_ok,
      assignmentOperator_eq_ok, gives_binding, gives_property, gives_switchCase, gives_handler] at h
  case toplevel => obtain ⟨_, ⟨_, hb, h₁⟩, rfl⟩ := h; exact .toplevel hb h₁
  case defun => obtain ⟨_, _, _, _, hn, hp, hb, h₁, rfl⟩ := h; exact .defun hn hp hb h₁
  case function => obtain ⟨_, _, _, _, hn, hp, hb, h₁, rfl⟩ := h; exact .function hn hp hb h₁
  case returns => obtain ⟨_, h₁, rfl⟩ := h; exact .returns h₁
  case vars => obtain ⟨_, ⟨_, hb, h₁⟩, rfl⟩ := h; exact .vars hb h₁
  case stat => obtain ⟨_, ⟨_, ht, h₁⟩, rfl⟩ := h; exact .stat ht h₁
  case num => obtain ⟨_, ⟨_, hn, rfl⟩, rfl⟩ := h; exact .num hn
  case string => obtain ⟨_, hx, rfl⟩ := h; exact .string hx
  case name => obtain ⟨_, hx, rfl⟩ := h; exact .name hx
  case binary =>
    obtain ⟨_, ho, _, ⟨_, hl, h₁⟩, _, ⟨_, hr, h₂⟩, rfl⟩ := h
    exact .binary ho hl h₁ hr h₂
  case array => obtain ⟨_, ⟨_, hb, h₁⟩, rfl⟩ := h; exact .array hb h₁
  case call => obtain ⟨_, ⟨_, ht, h₁⟩, _, ⟨_, hb, h₂⟩, rfl⟩ := h; exact .call ht h₁ hb h₂
  case regexp => obtain ⟨_, hp, _, hf, rfl⟩ := h; exact .regexp hp hf
  case object => obtain ⟨_, ⟨_, hb, h₁⟩, rfl⟩ := h; exact .object hb h₁
  case block => obtain ⟨_, h₁, rfl⟩ := h; exact .block h₁
  case ifElse =>
    obtain ⟨_, ⟨_, hc, h₁⟩, _, ⟨_, ht, h₂⟩, _, h₃, rfl⟩ := h
    exact .ifElse hc h₁ ht h₂ h₃
  case assign =>
    obtain ⟨_, ⟨_, ho, hop⟩, _, ⟨_, ht, h₁⟩, _, ⟨_, hv, h₂⟩, rfl⟩ := h
    exact .assign ho hop ht h₁ hv h₂
  case unaryPrefix => obtain ⟨_, ho, _, ⟨_, hx, h₁⟩, rfl⟩ := h; exact .unaryPrefix ho hx h₁
  case unaryPostfix => obtain ⟨_, ho, _, ⟨_, hx, h₁⟩, rfl⟩ := h; exact .unaryPostfix ho hx h₁
  case new => obtain ⟨_, ⟨_, hc, h₁⟩, _, h₂, rfl⟩ := h; exact .new hc h₁ h₂
  case dot => obtain ⟨_, ⟨_, ho, h₁⟩, _, hn, rfl⟩ := h; exact .dot ho h₁ hn
  case sub => obtain ⟨_, ⟨_, ho, h₁⟩, _, ⟨_, hi, h₂⟩, rfl⟩ := h; exact .sub ho h₁ hi h₂
  case tryCatch =>
    obtain ⟨_, ⟨_, hb, h₁⟩, _, h₂, _, h₃, rfl⟩ := h
    exact .tryCatch hb h₁ h₂ h₃
  case throws => obtain ⟨_, ⟨_, hv, h₁⟩, rfl⟩ := h; exact .throws hv h₁
  case whileLoop =>
    obtain ⟨_, ⟨_, hc, h₁⟩, _, ⟨_, hb, h₂⟩, rfl⟩ := h
    exact .whileLoop hc h₁ hb h₂
  case doWhile =>
    obtain ⟨_, ⟨_, hc, h₁⟩, _, ⟨_, hb, h₂⟩, rfl⟩ := h
    exact .doWhile hc h₁ hb h₂
  case switch => obtain ⟨_, ⟨_, hd, h₁⟩, _, ⟨_, hb, h₂⟩, rfl⟩ := h; exact .switch hd h₁ hb h₂
  case forLoop =>
    obtain ⟨_, h₁, _, h₂, _, h₃, _, ⟨_, hb, h₄⟩, rfl⟩ := h
    exact .forLoop h₁ h₂ h₃ hb h₄
  case forIn =>
    obtain ⟨_, ⟨_, hi, h₁⟩, _, ⟨_, hl, h₂⟩, _, ⟨_, ho, h₃⟩, _, ⟨_, hb, h₄⟩, rfl⟩ := h
    exact .forIn hi h₁ hl h₂ ho h₃ hb h₄
  case seq => obtain ⟨_, h₁, rfl⟩ := h; exact .seq h₁
  case conditional =>
    obtain ⟨_, ⟨_, hc, h₁⟩, _, ⟨_, ht, h₂⟩, _, ⟨_, he, h₃⟩, rfl⟩ := h
    exact .conditional hc h₁ ht h₂ he h₃
  case breaks => obtain ⟨_, hl, rfl⟩ := h; exact .breaks hl
  case continues => obtain ⟨_, hl, rfl⟩ := h; exact .continues hl
  case label => obtain ⟨_, hl, _, ⟨_, hb, h₁⟩, rfl⟩ := h; exact .label hl hb h₁

theorem construct_of_row {tag : Tag} {s : Slots} {c : Construct α}
    (h : Row (Gives f) tag s.items c) : (construct f tag s).result = .ok c := by
  have one {i : Nat} {t : Json} {x : α} (hs : slot? s.items i = some t) (hx : Gives f t x) :
      (s.child i f).result = .ok x := child_eq_ok.2 ⟨t, hs, hx⟩
  have many {i : Nat} {t : Json} {xs : List α} (hs : slot? s.items i = some t)
      (hx : IsList (Gives f) t xs) : (s.each i f).result = .ok xs := each_eq_ok.2 ⟨t, hs, hx⟩
  cases h with
  | toplevel hb h₁ => exact ok_bind (many hb h₁) rfl
  | defun hn hp hb h₁ => exact function_eq_ok.2 ⟨_, _, _, _, hn, hp, hb, h₁, rfl⟩
  | function hn hp hb h₁ => exact function_eq_ok.2 ⟨_, _, _, _, hn, hp, hb, h₁, rfl⟩
  | returns h₁ => exact ok_bind (child?_eq_ok.2 h₁) rfl
  | vars hb h₁ =>
    rw [← gives_binding] at h₁
    exact ok_bind (each_eq_ok.2 ⟨_, hb, h₁⟩) rfl
  | stat ht h₁ => exact ok_bind (one ht h₁) rfl
  | num hn => exact ok_bind (number_eq_ok.2 ⟨_, hn, rfl⟩) rfl
  | string hx => exact ok_bind (string_eq_ok.2 hx) rfl
  | name hx => exact ok_bind (string_eq_ok.2 hx) rfl
  | binary ho hl h₁ hr h₂ =>
    exact ok_bind (string_eq_ok.2 ho) (ok_bind (one hl h₁) (ok_bind (one hr h₂) rfl))
  | array hb h₁ => exact ok_bind (many hb h₁) rfl
  | call ht h₁ hb h₂ => exact ok_bind (one ht h₁) (ok_bind (many hb h₂) rfl)
  | regexp hp hf => exact ok_bind (string_eq_ok.2 hp) (ok_bind (string?_eq_ok.2 hf) rfl)
  | object hb h₁ =>
    rw [← gives_property] at h₁
    exact ok_bind (each_eq_ok.2 ⟨_, hb, h₁⟩) rfl
  | block h₁ => exact ok_bind (each?_eq_ok.2 h₁) rfl
  | ifElse hc h₁ ht h₂ h₃ =>
    exact ok_bind (one hc h₁) (ok_bind (one ht h₂) (ok_bind (child?_eq_ok.2 h₃) rfl))
  | assign ho hop ht h₁ hv h₂ =>
    exact ok_bind (assignmentOperator_eq_ok.2 ⟨_, ho, hop⟩)
      (ok_bind (one ht h₁) (ok_bind (one hv h₂) rfl))
  | unaryPrefix ho hx h₁ => exact ok_bind (string_eq_ok.2 ho) (ok_bind (one hx h₁) rfl)
  | unaryPostfix ho hx h₁ => exact ok_bind (string_eq_ok.2 ho) (ok_bind (one hx h₁) rfl)
  | new hc h₁ h₂ => exact ok_bind (one hc h₁) (ok_bind (each?_eq_ok.2 h₂) rfl)
  | dot ho h₁ hn => exact ok_bind (one ho h₁) (ok_bind (string_eq_ok.2 hn) rfl)
  | sub ho h₁ hi h₂ => exact ok_bind (one ho h₁) (ok_bind (one hi h₂) rfl)
  | tryCatch hb h₁ h₂ h₃ =>
    rw [← gives_handler] at h₂
    exact ok_bind (many hb h₁) (ok_bind (child?_eq_ok.2 h₂) (ok_bind (each?_eq_ok.2 h₃) rfl))
  | throws hv h₁ => exact ok_bind (one hv h₁) rfl
  | whileLoop hc h₁ hb h₂ => exact ok_bind (one hc h₁) (ok_bind (one hb h₂) rfl)
  | doWhile hc h₁ hb h₂ => exact ok_bind (one hc h₁) (ok_bind (one hb h₂) rfl)
  | switch hd h₁ hb h₂ =>
    rw [← gives_switchCase] at h₂
    exact ok_bind (one hd h₁) (ok_bind (each_eq_ok.2 ⟨_, hb, h₂⟩) rfl)
  | forLoop h₁ h₂ h₃ hb h₄ =>
    exact ok_bind (child?_eq_ok.2 h₁) (ok_bind (child?_eq_ok.2 h₂)
      (ok_bind (child?_eq_ok.2 h₃) (ok_bind (one hb h₄) rfl)))
  | forIn hi h₁ hl h₂ ho h₃ hb h₄ =>
    exact ok_bind (one hi h₁) (ok_bind (one hl h₂) (ok_bind (one ho h₃) (ok_bind (one hb h₄) rfl)))
  | seq h₁ => exact ok_bind (rest_eq_ok.2 h₁) rfl
  | conditional hc h₁ ht h₂ he h₃ =>
    exact ok_bind (one hc h₁) (ok_bind (one ht h₂) (ok_bind (one he h₃) rfl))
  | breaks hl => exact ok_bind (string?_eq_ok.2 hl) rfl
  | continues hl => exact ok_bind (string?_eq_ok.2 hl) rfl
  | label hl hb h₁ => exact ok_bind (string_eq_ok.2 hl) (ok_bind (one hb h₁) rfl)

theorem tagged_eq_ok {t : Json} {tag : Tag} {s : Slots} :
    (tagged t).result = .ok (tag, s) ↔ ∃ slots, t = .array (.string tag.spelling :: slots) ∧
      s = ⟨tag.spelling, .string tag.spelling :: slots⟩ := by
  constructor
  · intro h
    unfold tagged at h
    split at h
    · split at h
      · split at h
        · rename_i ht
          have hraw := Tag.spelling_ofSpelling? ht
          rw [result_pure_eq_ok, Prod.mk.injEq] at h
          obtain ⟨rfl, rfl⟩ := h
          rw [← hraw]
          exact ⟨_, rfl, rfl⟩
        · cases h
      · cases h
    · cases h
  · rintro ⟨slots, rfl, rfl⟩
    simp only [tagged, Tag.ofSpelling?_spelling]
    rfl

theorem layer_eq_ok {t : Json} {c : Construct α} :
    (layer f t).result = .ok c ↔ ∃ (tag : Tag) (slots : List Json),
      t = .array (.string tag.spelling :: slots) ∧
      Row (Gives f) tag (.string tag.spelling :: slots) c := by
  unfold layer
  simp only [result_bind_eq_ok]
  constructor
  · rintro ⟨⟨tag, s⟩, hs, _, _, hc⟩
    obtain ⟨slots, rfl, rfl⟩ := tagged_eq_ok.1 hs
    exact ⟨tag, slots, rfl, row_of_construct hc⟩
  · rintro ⟨tag, slots, rfl, hc⟩
    exact ⟨⟨tag, _⟩, tagged_eq_ok.2 ⟨slots, rfl, rfl⟩, (), rfl, construct_of_row hc⟩

end
end Decode

/-! ## whole trees -/

namespace Node
open Traced Layout Decode

theorem decode_eq_ok {t : Json} {n : Node} :
    (decode t).result = .ok n ↔ ∃ c, (layer decode t).result = .ok c ∧ .mk c = n := by
  rw [decode_eq, ← bind_pure_comp, result_bind_eq_ok]
  simp only [result_pure_eq_ok]

theorem decodes_of_decode {t : Json} {n : Node} (h : (decode t).result = .ok n) :
    Decodes t n := by
  -- the decoder asks only about trees that are nested less deep
  suffices H : ∀ d : Nat, ImpBelow d (Gives decode) Decodes from
    H (t.depth + 1) t n (Nat.lt_succ_self _) h
  intro d
  induction d with
  | zero => exact fun _ _ hd => absurd hd (Nat.not_lt_zero _)
  | succ d ih =>
    intro u m hd hu
    obtain ⟨c, hc, rfl⟩ := decode_eq_ok.1 hu
    obtain ⟨tag, slots, rfl, hr⟩ := layer_eq_ok.1 hc
    refine .mk (hr.imp fun v x hv => ih v x ?_)
    omega

theorem decode_of_decodes {t : Json} {n : Node} (h : Decodes t n) : (decode t).result = .ok n := by
  refine h.induct (P := Gives decode) fun tag slots c hr => ?_
  exact decode_eq_ok.2 ⟨c, layer_eq_ok.2 ⟨tag, slots, rfl, hr⟩, rfl⟩

/-- **Decoding accepts exactly the layout**: a tree decodes to a node if and only if it stands for
the node. -/
theorem decode_ok_iff_decodes (t : Json) (n : Node) :
    (decode t).result = .ok n ↔ Decodes t n :=
  ⟨decodes_of_decode, decode_of_decodes⟩

end Node
end TagTree
