import TagTree.Diagnostic
import TagTree.Proofs.Readings

/-!
# Where a refusal comes from

A refusal arises at one location: the readings before it pass, and what stands there is no array
of its form, or has a flaw of its own.  Nothing on the way out changes the refusal.

* `Blamed`                      a value of a role is refused because of what stands at a location;
* `exists_blamed`               every refusal has such a location;
* `Blamed.refusal?`             and the location explains the refusal;
* `Cause.Names`                 how a cause names the construct at its location;
* `Node.diagnosed_names_part`   a refused tree has a part that is refused alike and that is named.
-/

namespace TagTree
open Layout Traced

/-! ## diagnosed results -/

/-- the result with its refusal as a diagnostic -/
def Traced.diagnosed {α : Type} (x : Traced Refusal α) : Except Diagnostic α :=
  x.result.mapError Diagnostic.ofRefusal

theorem Traced.diagnosed_eq_error {α : Type} {x : Traced Refusal α} {d : Diagnostic} :
    x.diagnosed = .error d ↔ ∃ r, x.refusal? = some r ∧ Diagnostic.ofRefusal r = d := by
  unfold diagnosed refusal?
  cases x.result <;> simp [Except.mapError]

def Cause.raw? : Cause → Option String
  | .unknownConstruct _ raw => some raw
  | .malformedShape _ _ raw => some raw
  | _ => none

/-! ## locations of refusals -/

/-- a value of a role is refused because of what stands at the location -/
inductive Blamed : Role → Json → List Nat → Refusal → Prop
  | misfit {f : ItemForm} {t : Json} {e : Refusal} : f.misfit? t = some e → Blamed (.one f) t [] e
  | flaw {f : ItemForm} {items : List Json} {before after : List Reading} {r : Reading}
      {flaw : Flaw} :
    f.misfit? (.array items) = none → f.readings items = before ++ r :: after →
    (∀ b ∈ before, b.refusal? (f.slots items) = none) → r.flaw? (r.found? items) = some flaw →
    Blamed (.one f) (.array items) [] (.malformed (f.slots items).construct flaw (.array items))
  | slot {f : ItemForm} {items : List Json} {before after : List Reading} {r : Reading} {x : Json}
      {l : List Nat} {e : Refusal} :
    f.misfit? (.array items) = none → f.readings items = before ++ r :: after →
    (∀ b ∈ before, b.refusal? (f.slots items) = none) → r.flaw? (r.found? items) = none →
    r.found? items = some x → Blamed r.role x l e →
    Blamed (.one f) (.array items) (r.slot :: l) e
  | element {f : ItemForm} {ts : List Json} {i : Nat} {x : Json} {l : List Nat} {e : Refusal} :
    ts[i]? = some x → (∀ j < i, ∀ b ∈ ts[j]?, (f.decode b).refusal? = none) →
    Blamed (.one f) x l e → Blamed (.each f) (.array ts) (i :: l) e

theorem exists_blamed {role : Role} {t : Json} {e : Refusal} (h : role.refusal? t = some e) :
    ∃ l, Blamed role t l e := by
  induction t using Json.induct generalizing role e with
  | h t ih =>
    cases role with
    | other => cases h
    | one f =>
      cases hm : f.misfit? t with
      | some e' =>
        rw [Role.refusal?, ItemForm.refusal?_decode_of_misfit hm] at h
        cases h
        exact ⟨[], .misfit hm⟩
      | none =>
        obtain ⟨items, rfl⟩ := ItemForm.eq_array_of_fit hm
        rw [Role.refusal?, ItemForm.refusal?_decode_of_fit hm] at h
        obtain ⟨before, r, after, hr, he, hb⟩ := List.findSome?_eq_some_iff.1 h
        cases hf : r.flaw? (r.found? items) with
        | some flaw =>
          rw [Reading.refusal?_of_flaw hf] at he
          cases he
          exact ⟨[], .flaw hm hr hb hf⟩
        | none =>
          rw [Reading.refusal?_of_sound hf] at he
          obtain ⟨x, hx, he⟩ := Option.bind_eq_some_iff.1 he
          have hmem : x ∈ items := List.mem_of_getElem? (Reading.getElem?_of_found? hx)
          obtain ⟨l, hl⟩ := ih x hmem he
          exact ⟨_, .slot hm hr hb hf hx hl⟩
    | each f =>
      cases t with
      | array ts =>
        obtain ⟨before, x, after, rfl, he, hb⟩ := List.findSome?_eq_some_iff.1 h
        have he : (Role.one f).refusal? x = some e := he
        obtain ⟨l, hl⟩ := ih x (List.mem_append_right _ List.mem_cons_self) he
        refine ⟨before.length :: l, .element (by simp) (fun j hj b hbj => hb b ?_) hl⟩
        rw [List.getElem?_append_left hj] at hbj
        exact List.mem_of_getElem? hbj
      | _ => cases h

/-- the location explains the refusal -/
theorem Blamed.refusal? {role : Role} {t : Json} {l : List Nat} {e : Refusal}
    (h : Blamed role t l e) : role.refusal? t = some e := by
  induction h with
  | misfit hm => exact ItemForm.refusal?_decode_of_misfit hm
  | flaw hm hr hb hf =>
    rw [Role.refusal?, ItemForm.refusal?_decode_of_fit hm]
    exact List.findSome?_eq_some_iff.2 ⟨_, _, _, hr, Reading.refusal?_of_flaw hf, hb⟩
  | slot hm hr hb hf hx _ ih =>
    rw [Role.refusal?, ItemForm.refusal?_decode_of_fit hm]
    refine List.findSome?_eq_some_iff.2 ⟨_, _, _, hr, ?_, hb⟩
    exact (Reading.refusal?_of_sound hf).trans (Option.bind_eq_some_iff.2 ⟨_, hx, ih⟩)
  | @element f ts i x l e hx hb _ ih =>
    obtain ⟨hi, rfl⟩ := List.getElem?_eq_some_iff.1 hx
    refine List.findSome?_eq_some_iff.2 ⟨ts.take i, ts[i], ts.drop (i + 1), ?_, ih, ?_⟩
    · rw [← List.drop_eq_getElem_cons hi, List.take_append_drop]
    · intro b hb'
      obtain ⟨j, hj⟩ := List.mem_iff_getElem?.1 hb'
      rw [List.getElem?_take] at hj
      split at hj
      · exact hb j ‹_› b hj
      · cases hj

theorem Role.follow_slot {f : ItemForm} {items : List Json} {r : Reading} {x : Json}
    (hr : r ∈ f.readings items) (hx : r.found? items = some x) (l : List Nat) :
    (Role.one f).follow (.array items) (r.slot :: l) = r.role.follow x l := by
  rw [Role.follow, Reading.getElem?_of_found? hx]
  show ((f.roles items).getD r.slot .other).follow x l = _
  rw [ItemForm.role_of_mem_readings hr]

theorem Role.follow_element {f : ItemForm} {ts : List Json} {i : Nat} {x : Json}
    (hx : ts[i]? = some x) (l : List Nat) :
    (Role.each f).follow (.array ts) (i :: l) = (Role.one f).follow x l := by
  rw [Role.follow, hx]
  rfl

theorem Json.at?_array {ts : List Json} {i : Nat} {x : Json} (hx : ts[i]? = some x) (l : List Nat) :
    (Json.array ts).at? (i :: l) = x.at? l := by
  show (ts[i]?).bind _ = _
  rw [hx]
  rfl

/-- the location leads to a value of a form, which is refused alike for a fault of its own -/
theorem Blamed.exists_at? {role : Role} {t : Json} {l : List Nat} {e : Refusal}
    (h : Blamed role t l e) :
    ∃ s f, t.at? l = some s ∧ role.follow t l = .one f ∧ Blamed (.one f) s [] e := by
  induction h with
  | misfit hm => exact ⟨_, _, rfl, rfl, .misfit hm⟩
  | flaw hm hr hb hf => exact ⟨_, _, rfl, rfl, .flaw hm hr hb hf⟩
  | slot hm hr hb hf hx _ ih =>
    obtain ⟨s, g, hs, hg, hb⟩ := ih
    have hmem := hr ▸ List.mem_append_right _ List.mem_cons_self
    refine ⟨s, g, ?_, ?_, hb⟩
    · rw [Json.at?_array (Reading.getElem?_of_found? hx), hs]
    · rw [Role.follow_slot hmem hx, hg]
  | element hx _ _ ih =>
    obtain ⟨s, g, hs, hg, hb⟩ := ih
    refine ⟨s, g, ?_, ?_, hb⟩
    · rw [Json.at?_array hx, hs]
    · rw [Role.follow_element hx, hg]

/-! ## names of constructs -/

/-- how the cause of a refusal names the construct that the value was to be; in every case the
value is quoted -/
inductive Cause.Names : ItemForm → Json → Cause → Prop
  | unknown {tag : String} {rest : List Json} : Tag.ofSpelling? tag = none →
    Names .node (.array (.string tag :: rest))
      (.unknownConstruct tag (Json.array (.string tag :: rest)).compact)
  /-- no array, or none with a text in slot 0 -/
  | untagged {t : Json} {message : String} : (∀ tag rest, t ≠ .array (.string tag :: rest)) →
    Names .node t (.malformedShape "tagged tree" message t.compact)
  | tagged {tag : Tag} {rest : List Json} {message : String} :
    Names .node (.array (.string tag.spelling :: rest))
      (.malformedShape tag.spelling message (Json.array (.string tag.spelling :: rest)).compact)
  | positional {f : ItemForm} {t : Json} {message : String} : f ≠ .node →
    Names f t (.malformedShape f.name message t.compact)

theorem Cause.Names.raw? {f : ItemForm} {t : Json} {c : Cause} (h : Cause.Names f t c) :
    c.raw? = some t.compact := by
  cases h <;> rfl

theorem Cause.names_of_misfit {f : ItemForm} {t : Json} {e : Refusal} (h : f.misfit? t = some e) :
    Cause.Names f t (Diagnostic.ofRefusal e).cause := by
  cases f with
  | node =>
    have h : (Decode.tagged t).result = .error e := refusal?_eq_some.1 h
    unfold Decode.tagged at h
    split at h
    · split at h
      · split at h
        · cases h
        · cases h
          exact .unknown ‹_›
      · rename_i hno
        cases h
        refine .untagged fun tag rest ht => ?_
        cases ht
        exact hno tag rest rfl
    · rename_i hno
      cases h
      exact .untagged fun tag rest ht => hno _ ht
  | _ =>
    cases t with
    | array items => cases h
    | _ =>
      cases h
      exact .positional (by decide)

theorem Cause.names_of_blamed {f : ItemForm} {t : Json} {e : Refusal}
    (h : Blamed (.one f) t [] e) : Cause.Names f t (Diagnostic.ofRefusal e).cause := by
  cases h with
  | misfit hm => exact Cause.names_of_misfit hm
  | @flaw _ items _ _ _ flaw hm hr hb hf =>
    cases f with
    | node =>
      obtain ⟨⟨tag, s⟩, hs⟩ := refusal?_eq_none.1 hm
      obtain ⟨rest, ht, rfl⟩ := Decode.tagged_eq_ok.1 hs
      cases ht
      have htag : Tag.ofItems? (.string tag.spelling :: rest) = some tag := tag.ofSpelling?_spelling
      simp only [ItemForm.slots, htag]
      exact .tagged
    | _ => exact .positional (by decide)

/-- **A refusal names the construct at fault, and nothing on the way out changes it.**  It is the
refusal of one part of the tree on its own, at a location to which the layout gives the role of an
item, by the decoder of that item; it quotes the part and names what the part was to be. -/
theorem Node.diagnosed_names_part {t : Json} {e : Diagnostic}
    (h : (Node.decode t).diagnosed = .error e) :
    (∃ (l : List Nat) (s : Json) (f : ItemForm),
      t.at? l = some s ∧ (Role.one .node).follow t l = .one f ∧
      (f.decode s).diagnosed = .error e ∧
      e.cause.raw? = some s.compact ∧ Cause.Names f s e.cause) ∧
    e.context.span = none ∧ e.context.source = none ∧ e.cause.below? = none ∧
    (e.context.help.isSome = true ↔ ∃ tag raw, e.cause = .unknownConstruct tag raw) := by
  obtain ⟨r, hr, rfl⟩ := diagnosed_eq_error.1 h
  have hr : (Role.one .node).refusal? t = some r := hr
  obtain ⟨l, hl⟩ := exists_blamed hr
  obtain ⟨s, f, hs, hf, hb⟩ := hl.exists_at?
  have names := Cause.names_of_blamed hb
  have same : (f.decode s).diagnosed = .error (Diagnostic.ofRefusal r) :=
    diagnosed_eq_error.2 ⟨r, hb.refusal?, rfl⟩
  refine ⟨⟨l, s, f, hs, hf, same, names.raw?, names⟩, ?_⟩
  cases r <;>
    simp [Diagnostic.ofRefusal, Diagnostic.unknownConstruct, Diagnostic.malformedShape,
      Cause.below?]

/-- `{ static a: 1 }`: there is no such accessor -/
def staticProperty : Json :=
  .array [.string "a", .array [.string "num", .number (.natural 1 (by decide))], .string "static"]

/-- `return { static a: 1 };`, and behind it an unknown construct -/
def staticPropertyReturned : Json :=
  .array [.string "toplevel", .array [
    .array [.string "return", .array [.string "object", .array [staticProperty]]],
    .array [.string "with", .null]]]

/-- the property is blamed, not the constructs around it and not what comes later -/
theorem Node.diagnosed_names_part_staticProperty :
    (Node.decode staticPropertyReturned).diagnosed =
      .error (.malformedShape "property" (Flaw.accessor "static").message staticProperty) ∧
    ∃ (l : List Nat) (s : Json) (f : ItemForm),
      staticPropertyReturned.at? l = some s ∧
      (Role.one .node).follow staticPropertyReturned l = .one f ∧
      (f.decode s).diagnosed =
        .error (.malformedShape "property" (Flaw.accessor "static").message staticProperty) ∧
      Cause.Names f s
        (.malformedShape "property" (Flaw.accessor "static").message staticProperty.compact) := by
  have h : (Node.decode staticPropertyReturned).diagnosed =
      .error (.malformedShape "property" (Flaw.accessor "static").message staticProperty) := rfl
  obtain ⟨⟨l, s, f, hs, hf, same, _, names⟩, _⟩ := Node.diagnosed_names_part h
  exact ⟨h, l, s, f, hs, hf, same, names⟩

end TagTree
