import TagTree.Decode.Node

/-!
# Decoding looks inside only

A layer asks the decoder of children only about values that are nested less deep than the value
itself.  So the depth of a tree is enough to decode it, and decoding is its own layer.

* `Decode.layer_congr`   decoders that agree on what is nested less deep give the same layer;
* `Node.decode_eq`       decoding a tree is decoding its layer with the children decoded.
-/

namespace TagTree

def AgreeBelow {β : Type} (d : Nat) (f g : Json → Traced Refusal β) : Prop :=
  ∀ t : Json, t.depth < d → f t = g t

namespace Slots
variable {β : Type} {f g : Json → Traced Refusal β} {s : Slots} {d : Nat}

theorem mem_of_present? {i : Nat} {t : Json} (h : s.present? i = some t) : t ∈ s.items := by
  unfold present? at h
  obtain ⟨h, -⟩ := Option.filter_eq_some_iff.1 h
  exact List.mem_of_getElem? h

theorem depth_lt_of_present? {i : Nat} {t : Json} (h : s.present? i = some t) :
    t.depth < (Json.array s.items).depth :=
  Json.depth_lt_of_mem (mem_of_present? h)

theorem child_congr (hd : (Json.array s.items).depth ≤ d) (h : AgreeBelow d f g) (i : Nat) :
    s.child i f = s.child i g := by
  unfold child required
  cases hp : s.present? i with
  | none => rfl
  | some t => exact h t (Nat.lt_of_lt_of_le (depth_lt_of_present? hp) hd)

theorem child?_congr (hd : (Json.array s.items).depth ≤ d) (h : AgreeBelow d f g) (i : Nat) :
    s.child? i f = s.child? i g := by
  unfold child?
  cases hp : s.present? i with
  | none => rfl
  | some t =>
    rw [Traced.optional, Traced.optional, h t (Nat.lt_of_lt_of_le (depth_lt_of_present? hp) hd)]

theorem each_congr (hd : (Json.array s.items).depth ≤ d) (h : AgreeBelow d f g) (i : Nat) :
    s.each i f = s.each i g := by
  unfold each array required
  cases hp : s.present? i with
  | none => rfl
  | some t =>
    cases t with
    | array items =>
      refine Traced.each_congr fun t ht => h t ?_
      have h₁ := Json.depth_lt_of_mem ht
      have h₂ := depth_lt_of_present? hp
      omega
    | _ => rfl

theorem each?_congr (hd : (Json.array s.items).depth ≤ d) (h : AgreeBelow d f g) (i : Nat) :
    s.each? i f = s.each? i g := by
  unfold each?
  rw [each_congr hd h]

theorem rest_congr (hd : (Json.array s.items).depth ≤ d) (h : AgreeBelow d f g) (i : Nat) :
    s.rest i f = s.rest i g :=
  Traced.each_congr fun t ht =>
    h t (Nat.lt_of_lt_of_le (Json.depth_lt_of_mem (List.mem_of_mem_drop ht)) hd)

theorem positional_bind_congr {γ : Type} (name : String) (t : Json)
    {k l : Slots → Traced Refusal γ}
    (h : ∀ s : Slots, (Json.array s.items).depth = t.depth → k s = l s) :
    (positional name t >>= k) = (positional name t >>= l) := by
  cases t with
  | array items => exact h ⟨name, items⟩ rfl
  | _ => rfl

end Slots

namespace Decode
variable {α : Type} {f g : Json → Traced Refusal α} {d : Nat}

theorem binding_congr (h : AgreeBelow d f g) : AgreeBelow d (binding f) (binding g) := by
  intro t ht
  refine Slots.positional_bind_congr _ t fun s hs => ?_
  rw [Slots.child?_congr (by omega) h]

theorem property_congr (h : AgreeBelow d f g) : AgreeBelow d (property f) (property g) := by
  intro t ht
  refine Slots.positional_bind_congr _ t fun s hs => ?_
  rw [Slots.child_congr (by omega) h]

theorem switchCase_congr (h : AgreeBelow d f g) : AgreeBelow d (switchCase f) (switchCase g) := by
  intro t ht
  refine Slots.positional_bind_congr _ t fun s hs => ?_
  rw [Slots.child?_congr (by omega) h, Slots.each_congr (by omega) h]

theorem handler_congr (h : AgreeBelow d f g) : AgreeBelow d (handler f) (handler g) := by
  intro t ht
  refine Slots.positional_bind_congr _ t fun s hs => ?_
  rw [Slots.each_congr (by omega) h]

theorem construct_congr {s : Slots} (hd : (Json.array s.items).depth ≤ d) (h : AgreeBelow d f g)
    (tag : Tag) : construct f tag s = construct g tag s := by
  cases tag <;>
    simp only [construct, function, Slots.child_congr hd h, Slots.child?_congr hd h,
      Slots.each_congr hd h, Slots.each?_congr hd h, Slots.rest_congr hd h,
      Slots.each_congr hd (binding_congr h), Slots.each_congr hd (property_congr h),
      Slots.each_congr hd (switchCase_congr h), Slots.child?_congr hd (handler_congr h)]

theorem tagged_bind_congr {γ : Type} (t : Json) {k l : Tag × Slots → Traced Refusal γ}
    (h : ∀ tag s, (Json.array s.items).depth = t.depth → k (tag, s) = l (tag, s)) :
    (tagged t >>= k) = (tagged t >>= l) := by
  cases t with
  | array items =>
    cases items with
    | nil => rfl
    | cons x xs =>
      cases x with
      | string raw =>
        cases ht : Tag.ofSpelling? raw with
        | none => simp only [tagged, ht]; rfl
        | some tag =>
          simp only [tagged, ht]
          exact h tag ⟨tag.spelling, .string raw :: xs⟩ rfl
      | _ => rfl
  | _ => rfl

theorem layer_congr {t : Json} (h : AgreeBelow t.depth f g) : layer f t = layer g t := by
  refine tagged_bind_congr t fun tag s hs => ?_
  show (Traced.note _ >>= fun _ => construct f tag s) = (Traced.note _ >>= fun _ => construct g tag s)
  rw [construct_congr (Nat.le_of_eq hs) h]

end Decode

namespace Node

theorem decodeWithin_congr {d e : Nat} {t : Json} (hd : t.depth ≤ d) (he : t.depth ≤ e) :
    decodeWithin d t = decodeWithin e t := by
  induction d generalizing e t with
  | zero => exact absurd hd (Nat.not_le_of_lt t.depth_pos)
  | succ d ih =>
    cases e with
    | zero => exact absurd he (Nat.not_le_of_lt t.depth_pos)
    | succ e =>
      have h : Decode.layer (decodeWithin d) t = Decode.layer (decodeWithin e) t :=
        Decode.layer_congr fun u hu => ih (by omega) (by omega)
      rw [decodeWithin, decodeWithin, h]

/-- more depth than a tree has changes nothing -/
theorem decodeWithin_eq {d : Nat} {t : Json} (h : t.depth ≤ d) : decodeWithin d t = decode t :=
  decodeWithin_congr h (Nat.le_refl _)

theorem decode_eq (t : Json) : decode t = Node.mk <$> Decode.layer decode t := by
  have h : Decode.layer (decodeWithin t.depth) t = Decode.layer decode t :=
    Decode.layer_congr fun u hu => decodeWithin_eq (Nat.le_of_lt hu)
  rw [← decodeWithin_eq (Nat.le_succ t.depth), decodeWithin, h, bind_pure_comp]

end Node
end TagTree
