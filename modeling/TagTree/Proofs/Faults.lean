import TagTree.Proofs.CausalScanners
import TagTree.Proofs.Offsets

/-!
# A syntax error is decided by the text in front of it

The reader is causal, so a fault of a text stays where it is whatever follows its place, unless it
says that the text has ended, or that a number is out of range.  Another text has other fuel, but
fuel for a text is fuel enough; and lines, columns and offsets do not depend on what follows.

* `value_congr`            fuel for a text is fuel enough;
* `document_refused`       a fault of a text stays whatever follows its place;
* `Fault.locate_append`    so does the place that is reported;
* `readTree_refused`       so what is reported is decided by the text up to its place.
-/

namespace TagTree
namespace Json
namespace Reader

/-! ## fuel -/

/-- texts are read alike with two amounts of fuel that are enough for them -/
def ValueAlike (d e : Nat) : Prop :=
  ∀ s : Bytes, 2 * s.length < d → 2 * s.length < e → value d s = value e s

def ItemsAlike (d e : Nat) : Prop :=
  ∀ read (s : Bytes), 2 * s.length + 1 < d → 2 * s.length + 1 < e → items d read s = items e read s

def FieldsAlike (d e : Nat) : Prop :=
  ∀ read atEnd (s : Bytes), 2 * s.length + 1 < d → 2 * s.length + 1 < e →
    fields d read atEnd s = fields e read atEnd s

theorem ValueAlike.step {d e : Nat} (hi : ItemsAlike d e) (hf : FieldsAlike d e) :
    ValueAlike (d + 1) (e + 1) := by
  intro s hd he
  rw [value, value]
  cases hs : skip s with
  | nil => rfl
  | cons b t =>
    have hst := length_lt_of_skip hs
    dsimp only
    cases ht : skip t with
    | nil => rfl
    | cons c r =>
      have htr := length_lt_of_skip ht
      have hc : (c :: r).length = r.length + 1 := rfl
      dsimp only
      rw [hi [] (c :: r) (by omega) (by omega), hf [] .endInObject (c :: r) (by omega) (by omega)]

theorem ItemsAlike.step {d e : Nat} (hv : ValueAlike d e) (hi : ItemsAlike d e) :
    ItemsAlike (d + 1) (e + 1) := by
  intro read s hd he
  rw [items_succ, items_succ, hv s (by omega) (by omega)]
  cases hx : value e s with
  | error f => rfl
  | ok x =>
    have hlt := (reads_all e).1.shorter hx
    apply separated_congr
    intro t ht
    exact hi (x.1 :: read) t (by omega) (by omega)

theorem FieldsAlike.step {d e : Nat} (hv : ValueAlike d e) (hf : FieldsAlike d e) :
    FieldsAlike (d + 1) (e + 1) := by
  intro read atEnd s hd he
  rw [fields_succ, fields_succ]
  cases hk : key atEnd s with
  | error f => rfl
  | ok k =>
    have hks : k.2.length < s.length := by
      obtain ⟨w, hw, _⟩ := key_local hk
      rw [hw, List.length_append, List.length_cons]
      omega
    show value d k.2 >>= _ = value e k.2 >>= _
    rw [hv k.2 (by omega) (by omega)]
    cases hx : value e k.2 with
    | error f => rfl
    | ok x =>
      have hlt := (reads_all e).1.shorter hx
      apply separated_congr
      intro t ht
      exact hf (insertField k.1 x.1 read) .endInValue t (by omega) (by omega)

theorem alike_all (d e : Nat) : ValueAlike d e ∧ ItemsAlike d e ∧ FieldsAlike d e := by
  induction d generalizing e with
  | zero =>
    refine ⟨fun s hd => ?_, fun read s hd => ?_, fun read atEnd s hd => ?_⟩
    · exact absurd hd (Nat.not_lt_zero _)
    · exact absurd hd (Nat.not_lt_zero _)
    · exact absurd hd (Nat.not_lt_zero _)
  | succ d ih =>
    cases e with
    | zero =>
      refine ⟨fun s _ he => ?_, fun read s _ he => ?_, fun read atEnd s _ he => ?_⟩
      · exact absurd he (Nat.not_lt_zero _)
      · exact absurd he (Nat.not_lt_zero _)
      · exact absurd he (Nat.not_lt_zero _)
    | succ e =>
      obtain ⟨hv, hi, hf⟩ := ih e
      exact ⟨ValueAlike.step hi hf, ItemsAlike.step hv hi, FieldsAlike.step hv hf⟩

/-- fuel for a text is fuel enough -/
theorem value_congr {d e : Nat} {s : Bytes} (hd : 2 * s.length < d) (he : 2 * s.length < e) :
    value d s = value e s :=
  (alike_all d e).1 s hd he

/-! ## whole texts -/

/-- the end of a text, behind its value -/
def ending (x : Json) (s : Bytes) : Except Fault (Json × Bytes) :=
  match skip s with
  | [] => .ok (x, [])
  | r => .error (Problem.trailingCharacters.behind r)

theorem forward_ending (x : Json) : Forward (ending x) := by
  have hend {s : Bytes} (hs : skip s = []) : ending x s = .ok (x, []) := by rw [ending, hs]
  have hmore {a : Bytes} {b : UInt8} (ha : Leads a b) (t : Bytes) :
      ending x (a ++ b :: t) = .error (Problem.trailingCharacters.before t) := by
    rw [ending, ha.skip]
    rfl
  refine ⟨⟨fun {s y r} hy => ?_, fun {s e} he _ => ?_⟩, fun {s e} he _ => ?_⟩
  · cases hs : skip s with
    | nil =>
      cases (hend hs).symm.trans hy
      refine ⟨s, s.append_nil.symm, fun r' hr' => ?_⟩
      rw [List.head?_eq_none_iff.1 hr', List.append_nil]
      exact hend hs
    | cons b t =>
      obtain ⟨a, ha, rfl⟩ := exists_leads hs
      cases (hmore ha t).symm.trans hy
  · cases hs : skip s with
    | nil => cases (hend hs).symm.trans he
    | cons b t =>
      obtain ⟨a, ha, rfl⟩ := exists_leads hs
      cases (hmore ha t).symm.trans he
      refine ⟨a ++ [b], t, by simp, rfl, fun r' => ?_⟩
      rw [List.append_assoc]
      exact hmore ha r'
  · cases hs : skip s with
    | nil => cases (hend hs).symm.trans he
    | cons b t =>
      obtain ⟨a, ha, rfl⟩ := exists_leads hs
      cases (hmore ha t).symm.trans he
      show t.length < _
      rw [List.length_append, List.length_cons]
      omega

def whole (fuel : Nat) (s : Bytes) : Except Fault (Json × Bytes) :=
  value fuel s >>= fun x => ending x.1 x.2

theorem causal_whole (fuel : Nat) : Causal (whole fuel) :=
  (reads_all fuel).1.causal.bind forward_ending

theorem document_eq_error_iff {fuel : Nat} {s : Bytes} (h : 2 * s.length < fuel) {e : Fault} :
    document s = .error e ↔ whole fuel s = .error e := by
  have hmap : document s = (whole fuel s).map Prod.fst := by
    rw [document, whole, value_congr (by omega) h]
    cases value fuel s with
    | error f => rfl
    | ok x =>
      simp only [bind, Except.bind, ending]
      cases skip x.2 with
      | nil => rfl
      | cons b t => rfl
  rw [hmap]
  cases whole fuel s with
  | error f => simp [Except.map]
  | ok x => simp [Except.map]

/-- a fault of a text stays whatever follows its place -/
theorem document_refused {s : Bytes} {e : Fault} (he : document s = .error e)
    (hd : e.problem.IsDecided) :
    ∃ w r, s = w ++ r ∧ e = e.problem.before r ∧
      ∀ r', document (w ++ r') = .error (e.problem.before r') := by
  have hfuel {fuel : Nat} (hs : 2 * s.length < fuel) :=
    (causal_whole fuel).refused ((document_eq_error_iff hs).1 he) hd
  obtain ⟨w, r, hs, hr, -⟩ := hfuel (Nat.lt_succ_self _)
  refine ⟨w, r, hs, hr, fun r' => ?_⟩
  -- with fuel for the other text the fault has the same place, so the same bytes in front of it
  obtain ⟨w', t, hs', ht, hw⟩ :=
    hfuel (show 2 * s.length < 2 * s.length + 2 * (w ++ r').length + 1 by omega)
  have hleft : r.length = t.length := congrArg Fault.left (hr.symm.trans ht)
  obtain ⟨rfl, rfl⟩ := List.append_inj' (hs.symm.trans hs') hleft
  exact (document_eq_error_iff (by omega)).2 (hw r')

end Reader

/-! ## places -/

open Text

theorem position_append (w r r' : Bytes) :
    position (w ++ r') w.length = position (w ++ r) w.length := by
  simp only [position, List.take_left]

theorem offset_append (w r r' : Bytes) :
    offset (w ++ r') (position (w ++ r) w.length).line (position (w ++ r) w.length).column =
      offset (w ++ r) (position (w ++ r) w.length).line (position (w ++ r) w.length).column := by
  have hle (t : Bytes) : w.length ≤ (w ++ t).length := by
    rw [List.length_append]
    omega
  have hstart : StartsLine (w ++ r') w.length ↔ StartsLine (w ++ r) w.length := by
    rw [← column_eq_zero (hle r'), ← column_eq_zero (hle r), position_append w r r']
  have hoffset := offset_position (w ++ r') (hle r')
  rw [position_append w r r'] at hoffset
  rw [hoffset, offset_position (w ++ r) (hle r)]
  exact if_congr hstart rfl rfl

theorem Fault.position_locate (p : Problem) (w r : Bytes) :
    ((p.before r).locate (w ++ r)).position = position (w ++ r) w.length := by
  simp only [Fault.locate, Problem.before, List.length_append, Nat.add_sub_cancel]

/-- the line, the column and the offset of a fault depend on the text in front of it -/
theorem Fault.locate_append (p : Problem) (w r r' : Bytes) :
    (p.before r').locate (w ++ r') = (p.before r).locate (w ++ r) := by
  simp only [Fault.locate, Problem.before, List.length_append, Nat.add_sub_cancel,
    position_append w r r', offset_append w r r']

theorem read_eq_error {text : String} {e : ReadError} :
    Json.read text = .error e ↔
      ∃ f, Reader.document (bytes text) = .error f ∧ f.locate (bytes text) = e := by
  rw [Json.read]
  cases Reader.document (bytes text) with
  | error f => simp [Except.mapError]
  | ok t => simp [Except.mapError]

theorem ReadError.isDecided {e : ReadError}
    (hend : ¬ "EOF while parsing ".toList <+: e.message.toList)
    (hrange : ¬ "number out of range".toList <+: e.message.toList) : e.problem.IsDecided := by
  have hmessage : e.problem.message.toList <+: e.message.toList := by
    simp only [ReadError.message, String.toList_append, List.append_assoc]
    exact List.prefix_append _ _
  exact (Problem.isDecided_iff _).2 ⟨fun h => hend (h.trans hmessage),
    fun h => hrange (h.trans hmessage)⟩

end Json

open Text

/-- **A syntax error is decided by the text up to its place.**  What is refused, neither because the
text ends nor for a number out of range, is refused at one place of the text; and every text with
the same bytes in front of this place is refused with the same message, cause and span. -/
theorem readTree_refused {text : String} {e : Json.ReadError} (he : Json.read text = .error e)
    (hend : ¬ "EOF while parsing ".toList <+: e.message.toList)
    (hrange : ¬ "number out of range".toList <+: e.message.toList) :
    readTree text = .error (Diagnostic.ofReadError e) ∧
    ∃ p ≤ (bytes text).length,
      (∀ q ≤ (bytes text).length, position (bytes text) q = e.position ↔ q = p) ∧
      ∀ text' : String, (bytes text').take p = (bytes text).take p →
        readTree text' = .error (Diagnostic.ofReadError e) := by
  have hreport {s : String} (hs : Json.read s = .error e) :
      readTree s = .error (Diagnostic.ofReadError e) := by
    rw [readTree, hs]
    rfl
  refine ⟨hreport he, ?_⟩
  obtain ⟨f, hf, rfl⟩ := Json.read_eq_error.1 he
  obtain ⟨w, r, hs, hr, hw⟩ :=
    Json.Reader.document_refused hf (Json.ReadError.isDecided hend hrange)
  have hp : w.length ≤ (bytes text).length := by
    rw [hs, List.length_append]
    omega
  have hposition : position (bytes text) w.length = (f.locate (bytes text)).position := by
    rw [hs, hr, Json.Fault.position_locate]
  refine ⟨w.length, hp, fun q hq => ⟨fun h => ?_, fun h => ?_⟩, fun text' htake => ?_⟩
  · exact position_inj hq hp (h.trans hposition.symm)
  · rw [h, hposition]
  · obtain ⟨r', hr'⟩ : ∃ r', bytes text' = w ++ r' := by
      refine ⟨(bytes text').drop w.length, ?_⟩
      have hsplit := List.take_append_drop w.length (bytes text')
      rw [htake, hs, List.take_left] at hsplit
      exact hsplit.symm
    apply hreport
    apply Json.read_eq_error.2
    refine ⟨f.problem.before r', ?_, ?_⟩
    · rw [hr']
      exact hw r'
    · rw [hr', Json.Fault.locate_append f.problem w r r', ← hr, ← hs]

/-- an element of an array that is no word, in the second line -/
def misspelt : String := "[\"toplevel\",\n  nil]"

def misspeltError : Json.ReadError := ⟨.expectedWord, ⟨2, 4⟩, 16⟩

theorem read_misspelt : Json.read misspelt = .error misspeltError := by
  have hread : (Json.read misspelt).map (fun _ => ()) = .error misspeltError := by decide +kernel
  cases h : Json.read misspelt with
  | error e =>
    rw [h] at hread
    cases hread
    rfl
  | ok t =>
    rw [h] at hread
    cases hread

/-- behind its second letter the text may go on as it likes -/
theorem readTree_refused_misspelt :
    readTree misspelt = .error (Diagnostic.ofReadError misspeltError) ∧
    misspeltError.message = "expected ident at line 2 column 4" ∧
    readTree "[\"toplevel\",\n  ni\", 1e999" = .error (Diagnostic.ofReadError misspeltError) := by
  have hmessage : misspeltError.message = "expected ident at line 2 column 4" := by
    decide +kernel
  have hend : ¬ "EOF while parsing ".toList <+: misspeltError.message.toList := by
    decide +kernel
  have hrange : ¬ "number out of range".toList <+: misspeltError.message.toList := by
    decide +kernel
  obtain ⟨hreport, p, -, hplace, hsame⟩ := readTree_refused read_misspelt hend hrange
  have hp : 17 = p := (hplace 17 (by decide +kernel)).1 (by decide +kernel)
  subst hp
  exact ⟨hreport, hmessage, hsame _ (by decide +kernel)⟩

end TagTree
