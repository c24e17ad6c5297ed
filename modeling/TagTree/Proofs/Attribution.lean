import TagTree.Outcome
import TagTree.Proofs.Blame

/-!
# Failures and their sources

A source fails because its text cannot be read or because the tree cannot be decoded.  The failure
is reported as it arose, and bears the source unless it has one of its own already.

* `Source.Fails`                  the failure of a source as it arises;
* `Source.result_eq_error`        what is reported is this failure with the source attached;
* `Diagnostic.foldl_withSource`   later sources change nothing;
* `Source.outcome_attributed`     what is kept, what is added, and what a failure points at.
-/

namespace TagTree

/-! ## attached sources -/

namespace Diagnostic

theorem source_withSource (d : Diagnostic) (s : Source) :
    (d.withSource s).context.source = some (d.context.source.getD s) := by
  cases h : d.context.source <;> simp [withSource, h]

theorem isSome_label? (d : Diagnostic) : d.label?.isSome = d.context.span.isSome :=
  Option.isSome_map

theorem pointsIntoSource_withSource (d : Diagnostic) (s : Source) :
    (d.withSource s).pointsIntoSource = d.context.span.isSome := by
  rw [pointsIntoSource, source_withSource, span_withSource, Option.isSome_some, Bool.and_true]

theorem foldl_withSource (d : Diagnostic) (s : Source) (ss : List Source) :
    ss.foldl withSource (d.withSource s) = d.withSource s := by
  induction ss with
  | nil => rfl
  | cons t ss ih => rw [List.foldl_cons, withSource_withSource, ih]

end Diagnostic

/-! ## failures as they arise -/

namespace Source

/-- the failure of a source, before the source is attached to it -/
inductive Fails (read : String → Except Diagnostic Json) (s : Source) : Diagnostic → Prop
  | reading {e : Diagnostic} : read s.text = .error e → Fails read s e
  | decoding {t : Json} {e : Diagnostic} :
    read s.text = .ok t → (Node.decode t).diagnosed = .error e → Fails read s e

theorem fails_iff {read : String → Except Diagnostic Json} {s : Source} {e : Diagnostic} :
    s.Fails read e ↔ (read s.text >>= fun t => (Node.decode t).diagnosed) = .error e := by
  constructor
  · intro h
    cases h with
    | reading hr =>
      rw [hr]
      rfl
    | decoding hr hd =>
      rw [hr]
      exact hd
  · intro h
    cases hr : read s.text with
    | error d =>
      rw [hr] at h
      cases h
      exact .reading hr
    | ok t =>
      rw [hr] at h
      exact .decoding hr h

theorem result_eq_error {read : String → Except Diagnostic Json} {s : Source} {d : Diagnostic} :
    (s.outcome read).result = .error d ↔ ∃ e, s.Fails read e ∧ d = e.withSource s := by
  have attached : (s.outcome read).result =
      (read s.text >>= fun t => (Node.decode t).diagnosed).mapError (·.withSource s) := by
    rw [result_eq]
    cases read s.text with
    | error e => rfl
    | ok t =>
      show (Node.decode t).result.mapError (fun r => (Diagnostic.ofRefusal r).withSource s) =
        ((Node.decode t).result.mapError Diagnostic.ofRefusal).mapError (·.withSource s)
      cases (Node.decode t).result <;> rfl
  simp only [attached, fails_iff]
  cases (read s.text >>= fun t => (Node.decode t).diagnosed) with
  | error e => simp [Except.mapError, eq_comm]
  | ok n => simp [Except.mapError]

end Source

/-! ## failures to read -/

def Cause.isParse : Cause → Bool
  | .parse _ _ => true
  | _ => false

/-- a failure to read points at one byte of the text, or right behind the text -/
theorem exists_span_of_readTree {text : String} {e : Diagnostic} (h : readTree text = .error e) :
    e.cause.isParse = true ∧ e.context.source = none ∧
      ∃ i ≤ text.utf8ByteSize, e.context.span = some ⟨i, i⟩ := by
  rw [readTree, Json.read] at h
  cases hd : Json.Reader.document (Text.bytes text) with
  | error f =>
    rw [hd] at h
    cases h
    refine ⟨rfl, rfl, (f.locate (Text.bytes text)).offset, ?_, rfl⟩
    exact Text.offset_le (Text.bytes text) _ _
  | ok t =>
    rw [hd] at h
    cases h

/-- a failure to decode points at nothing -/
theorem context_of_diagnosed {t : Json} {e : Diagnostic}
    (h : (Node.decode t).diagnosed = .error e) :
    e.cause.isParse = false ∧ e.context.source = none ∧ e.context.span = none := by
  obtain ⟨r, _, rfl⟩ := Traced.diagnosed_eq_error.1 h
  cases r <;> exact ⟨rfl, rfl, rfl⟩

/-- the reader of trees attaches no source, and a span iff it fails itself -/
theorem Source.Fails.context {s : Source} {e : Diagnostic} (h : s.Fails readTree e) :
    e.context.source = none ∧ e.context.span.isSome = e.cause.isParse ∧
      (∀ span, e.context.span = some span →
        span.start = span.stop ∧ span.stop ≤ s.text.utf8ByteSize) ∧
      ∀ t, readTree s.text = .ok t → e.context.span = none := by
  cases h with
  | reading hr =>
    obtain ⟨hparse, hsource, i, hi, hspan⟩ := exists_span_of_readTree hr
    refine ⟨hsource, ?_, ?_, ?_⟩
    · rw [hspan, hparse, Option.isSome_some]
    · intro span h
      rw [hspan] at h
      cases h
      exact ⟨rfl, hi⟩
    · intro t ht
      rw [hr] at ht
      cases ht
  | decoding hr he =>
    obtain ⟨hparse, hsource, hspan⟩ := context_of_diagnosed he
    refine ⟨hsource, ?_, ?_, fun _ _ => hspan⟩
    · rw [hspan, hparse, Option.isSome_none]
    · intro span h
      rw [hspan] at h
      cases h

/-- **A failure is attributed to its source and otherwise left as it arose.**  With any reader a
source fails iff its text cannot be read or the tree cannot be decoded; what is reported is that
failure, with its own source if it had one and this source if not, and further sources change
nothing.  The reader of trees leaves the source open, and points at a byte of it iff the text cannot
be read. -/
theorem Source.outcome_attributed (s : Source) :
    (∀ read : String → Except Diagnostic Json,
      ((∃ d, (s.outcome read).result = .error d) ↔
        (∃ e, read s.text = .error e) ∨
          ∃ t e, read s.text = .ok t ∧ (Node.decode t).diagnosed = .error e) ∧
      ∀ d, (s.outcome read).result = .error d →
        ∃ e, s.Fails read e ∧ d.cause = e.cause ∧ d.code = e.code ∧
          d.context.help = e.context.help ∧ d.context.span = e.context.span ∧
          d.label? = e.label? ∧ d.context.source = some (e.context.source.getD s) ∧
          ∀ ss : List Source, ss.foldl Diagnostic.withSource d = d) ∧
    ∀ d, (s.outcome readTree).result = .error d →
      d.context.source = some s ∧ d.context.span.isSome = d.cause.isParse ∧
      d.label?.isSome = d.cause.isParse ∧ d.pointsIntoSource = d.cause.isParse ∧
      (∀ span, d.context.span = some span →
        span.start = span.stop ∧ span.stop ≤ s.text.utf8ByteSize) ∧
      ∀ t, readTree s.text = .ok t → d.context.span = none ∧ d.label? = none := by
  constructor
  · intro read
    constructor
    · constructor
      · rintro ⟨d, hd⟩
        obtain ⟨e, hf, _⟩ := result_eq_error.1 hd
        cases hf with
        | reading hr => exact .inl ⟨e, hr⟩
        | decoding hr he => exact .inr ⟨_, e, hr, he⟩
      · rintro (⟨e, hr⟩ | ⟨t, e, hr, he⟩)
        · exact ⟨_, result_eq_error.2 ⟨e, .reading hr, rfl⟩⟩
        · exact ⟨_, result_eq_error.2 ⟨e, .decoding hr he, rfl⟩⟩
    · intro d hd
      obtain ⟨e, hf, rfl⟩ := result_eq_error.1 hd
      exact ⟨e, hf, rfl, rfl, rfl, rfl, rfl, e.source_withSource s, e.foldl_withSource s⟩
  · intro d hd
    obtain ⟨e, hf, rfl⟩ := result_eq_error.1 hd
    obtain ⟨hsource, hspan, hplace, hdecoded⟩ := hf.context
    refine ⟨?_, hspan, ?_, ?_, hplace, fun t ht => ⟨hdecoded t ht, ?_⟩⟩
    · rw [e.source_withSource, hsource, Option.getD_none]
    · exact (Diagnostic.isSome_label? _).trans hspan
    · exact (e.pointsIntoSource_withSource s).trans hspan
    · show e.label? = none
      rw [Diagnostic.label?, hdecoded t ht, Option.map_none]

/-- a text that ends early -/
def truncated : Source := ⟨"a.json", "[\"name\","⟩

/-- where another failure lies -/
def included : Source := ⟨"included.json", "[]"⟩

/-- a reader that finds the failure elsewhere -/
def readIncluded (_ : String) : Except Diagnostic Json :=
  .error ⟨.parse "empty unit" none, { source := some included }⟩

theorem exists_readTree_truncated :
    ∃ e, readTree truncated.text = .error e ∧ e.context.span = some ⟨7, 7⟩ := by
  have h : (((readTree truncated.text).map fun _ => none).tryCatch fun e => .ok e.context.span) =
      .ok (some ⟨7, 7⟩) := by decide +kernel
  cases hr : readTree truncated.text with
  | error e =>
    rw [hr] at h
    exact ⟨e, rfl, Except.ok.inj h⟩
  | ok t =>
    rw [hr] at h
    cases h

/-- a failure to read points into its text; a failure that has a source keeps it -/
theorem Source.outcome_attributed_truncated :
    (∃ d, (truncated.outcome readTree).result = .error d ∧ d.context.source = some truncated ∧
      d.context.span = some ⟨7, 7⟩ ∧ d.pointsIntoSource = true) ∧
    ∃ d, (truncated.outcome readIncluded).result = .error d ∧ d.context.source = some included ∧
      d.withSource truncated = d := by
  obtain ⟨any, trees⟩ := Source.outcome_attributed truncated
  constructor
  · obtain ⟨e, hr, hspan⟩ := exists_readTree_truncated
    obtain ⟨fails, kept⟩ := any readTree
    obtain ⟨d, hd⟩ := fails.2 (.inl ⟨e, hr⟩)
    obtain ⟨e', he, _, _, _, hsame, _⟩ := kept d hd
    obtain ⟨hsource, hparse, _, hpoints, _⟩ := trees d hd
    have hspan : d.context.span = some ⟨7, 7⟩ := by
      cases he with
      | reading hr' =>
        rw [hr] at hr'
        cases hr'
        exact hsame.trans hspan
      | decoding hr' _ =>
        rw [hr] at hr'
        cases hr'
    refine ⟨d, hd, hsource, hspan, ?_⟩
    rw [hpoints, ← hparse, hspan, Option.isSome_some]
  · obtain ⟨fails, kept⟩ := any readIncluded
    obtain ⟨d, hd⟩ := fails.2 (.inl ⟨_, rfl⟩)
    obtain ⟨e, he, _, _, _, _, _, hsource, hlater⟩ := kept d hd
    refine ⟨d, hd, ?_, hlater [truncated]⟩
    cases he with
    | reading hr =>
      cases hr
      exact hsource
    | decoding hr _ => cases hr

end TagTree
