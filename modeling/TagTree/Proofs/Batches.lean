import TagTree.Proofs.Attribution
import TagTree.Proofs.Discovery
import TagTree.Proofs.Runs

/-!
# Batches

A run loads all its inputs first.  If one of them cannot be read, this is all that is reported.  If
all can be read, every input has its outcome, which depends on its own text alone; so a run that
prints about its inputs only is the concatenation of the runs on each of them.

* `Path.Readable`            a path leads to a file that holds text;
* `inputs_singleton`         a readable path is its own input;
* `outcomes_of_readable`     if all inputs can be read, each has its outcome;
* `outcomes_of_unreadable`   the first input that cannot be read ends a run;
* `Action.run_eq_singles`    a run on many inputs is the concatenation of runs on one;
* `Action.run_unreadable`    a run with an unreadable input prints nothing and names the input.
-/

namespace TagTree

/-! ## readable inputs -/

theorem Text.ofBytes?_eq_some {bs : List UInt8} {s : String} :
    ofBytes? bs = some s ↔ bs = bytes s := by
  constructor
  · intro h
    unfold ofBytes? String.fromUTF8? at h
    split at h
    · cases h
      show bs = bs.toByteArray.data.toList
      rw [List.data_toByteArray]
    · cases h
  · rintro rfl
    exact ofBytes?_bytes s

namespace Path

/-- a path leads to a file, and the file holds the bytes of a text -/
def Readable (files : FileSystem) (p : Path) : Prop :=
  ∃ text, p.resolve files = .ok (.file (Text.bytes text))

def outcome (files : FileSystem) (p : Path) : Outcome :=
  Source.outcome readTree ⟨p.spelling, (p.read files).toOption.getD ""⟩

section
variable {files : FileSystem} {p : Path}

theorem read_eq_ok {text : String} :
    p.read files = .ok text ↔ p.resolve files = .ok (.file (Text.bytes text)) := by
  unfold read
  cases p.resolve files with
  | error e => simp
  | ok q =>
    cases q with
    | directory here above => simp
    | file content =>
      simp only [Except.ok.injEq, Place.file.injEq, ← Text.ofBytes?_eq_some]
      cases Text.ofBytes? content <;> simp

instance : Decidable (p.Readable files) :=
  decidable_of_iff ((p.read files).toOption.isSome = true) <| by
    simp only [Readable, ← read_eq_ok]
    cases p.read files <;> simp [Except.toOption]

theorem exists_read_eq_error (h : ¬ p.Readable files) : ∃ e, p.read files = .error e := by
  cases hr : p.read files with
  | error e => exact ⟨e, rfl⟩
  | ok text => exact absurd ⟨text, read_eq_ok.1 hr⟩ h

theorem loadSource_of_readable (h : p.Readable files) :
    loadSource files p = .ok ⟨p.spelling, (p.read files).toOption.getD ""⟩ := by
  obtain ⟨text, ht⟩ := h
  rw [loadSource, read_eq_ok.2 ht]
  rfl

theorem loadSource_of_read_error {e : FileError} (h : p.read files = .error e) :
    loadSource files p = .error (Diagnostic.unreadable "read" p e) := by
  rw [loadSource, h]

theorem readable_iff : p.Readable files ↔ ∃ s, loadSource files p = .ok s := by
  constructor
  · intro h
    exact ⟨_, loadSource_of_readable h⟩
  · rintro ⟨s, hs⟩
    by_contra h
    obtain ⟨e, he⟩ := exists_read_eq_error h
    rw [loadSource_of_read_error he] at hs
    cases hs

end
end Path

/-! ## outcomes of runs -/

section
variable {files : FileSystem} {paths ps : List Path} {p : Path}

theorem inputs_singleton (h : p.Readable files) : inputs files [p] = .ok [p] := by
  obtain ⟨text, ht⟩ := h
  have hd : p.directory? files = none := by
    rw [Path.directory?, ht]
  have hp : p.expand files = .ok [p] := by
    rw [Path.expand, hd]
  rw [inputs, List.mapM_cons, hp]
  rfl

theorem outcomes_of_readable (hp : inputs files paths = .ok ps) (h : ∀ p ∈ ps, p.Readable files) :
    outcomes files paths = .ok (ps.map (Path.outcome files)) := by
  have hs := mapM_eq_ok_map fun p hm => Path.loadSource_of_readable (h p hm)
  rw [outcomes, sources, hp]
  show (ps.mapM (loadSource files) >>= fun ss => pure (ss.map (Source.outcome readTree))) = _
  rw [hs]
  show Except.ok ((ps.map _).map (Source.outcome readTree)) = _
  rw [List.map_map]
  rfl

theorem outcomes_of_unreadable {before after : List Path} {e : FileError}
    (hp : inputs files paths = .ok (before ++ p :: after)) (hb : ∀ q ∈ before, q.Readable files)
    (he : p.read files = .error e) :
    outcomes files paths = .error (Diagnostic.unreadable "read" p e) := by
  have hs : (before ++ p :: after).mapM (loadSource files) =
      .error (Diagnostic.unreadable "read" p e) :=
    mapM_eq_error (fun q hq => Path.readable_iff.1 (hb q hq)) (Path.loadSource_of_read_error he)
  rw [outcomes, sources, hp]
  show ((before ++ p :: after).mapM (loadSource files) >>= _) = _
  rw [hs]
  rfl

end

/-! ## runs on many inputs and on one -/

theorem printAll_eq_join {a : Action} (ha : a ≠ .check) (colours : Bool) (os : List Outcome) :
    printAll colours a os = String.join (os.map (Outcome.print colours a)) := by
  cases a with
  | check => exact absurd rfl ha
  | _ => exact String.append_empty

section
variable {a : Action} {env : Environment} {files : FileSystem} {paths : List Path}

theorem Action.diagnostics_of_outcomes {os : List Outcome} (h : outcomes files paths = .ok os) :
    (a.run env files paths).diagnostics = os.filterMap Outcome.diagnostic? := by
  rw [Action.run_eq, h]

theorem Action.stdout_of_outcomes {os : List Outcome} (h : outcomes files paths = .ok os) :
    (a.run env files paths).stdout = printAll env.colours a os := by
  rw [Action.run_eq, h]

theorem outcomes_singleton {p : Path} (h : p.Readable files) :
    outcomes files [p] = .ok [p.outcome files] :=
  outcomes_of_readable (inputs_singleton h) (List.forall_mem_singleton.2 h)

theorem Path.outcome_of_loadSource {p : Path} {s : Source} (h : loadSource files p = .ok s) :
    p.outcome files = s.outcome readTree := by
  have hs := Path.loadSource_of_readable (Path.readable_iff.2 ⟨s, h⟩)
  rw [h] at hs
  rw [Path.outcome, ← Except.ok.inj hs]

end

/-- **A run on many inputs is the concatenation of runs on one.**  If all inputs can be loaded, what
is printed and reported is what the same action prints and reports about each of them alone, in
order, and the run succeeds iff all of these do.  The run on one input depends on the input alone,
whatever else the file system holds. -/
theorem Action.run_eq_singles {a : Action} (ha : a ≠ .check) (env : Environment)
    {files : FileSystem} {paths ps : List Path} (hp : inputs files paths = .ok ps)
    (hl : ∀ p ∈ ps, ∃ s, loadSource files p = .ok s) :
    (a.run env files paths).stdout =
      String.join (ps.map fun p => (a.run env files [p]).stdout) ∧
    (a.run env files paths).diagnostics = (ps.flatMap fun p => (a.run env files [p]).diagnostics) ∧
    (a.run env files paths).codes = (ps.flatMap fun p => (a.run env files [p]).codes) ∧
    ((a.run env files paths).exit = 0 ↔ ∀ p ∈ ps, (a.run env files [p]).exit = 0) ∧
    ∀ p ∈ ps, inputs files [p] = .ok [p] ∧
      ∀ files', loadSource files' p = loadSource files p →
        a.run env files' [p] = a.run env files [p] := by
  have readable : ∀ p ∈ ps, p.Readable files := fun p hm => Path.readable_iff.2 (hl p hm)
  have batch := outcomes_of_readable hp readable
  have diagnostics : (a.run env files paths).diagnostics =
      ps.flatMap fun p => (a.run env files [p]).diagnostics := by
    rw [diagnostics_of_outcomes batch, List.filterMap_map, List.filterMap_eq_flatMap_toList]
    refine List.flatMap_congr fun p hm => ?_
    rw [diagnostics_of_outcomes (outcomes_singleton (readable p hm)),
      List.filterMap_eq_flatMap_toList, List.flatMap_singleton]
    rfl
  have codes : (a.run env files paths).codes = ps.flatMap fun p => (a.run env files [p]).codes := by
    rw [Report.codes, diagnostics, List.map_flatMap]
    rfl
  refine ⟨?_, diagnostics, codes, ?_, ?_⟩
  · rw [stdout_of_outcomes batch, printAll_eq_join ha, List.map_map]
    refine congrArg String.join (List.map_congr_left fun p hm => ?_)
    rw [stdout_of_outcomes (outcomes_singleton (readable p hm)), printAll_eq_join ha,
      List.map_singleton, String.join_cons, String.join_nil, String.append_empty]
    rfl
  · simp only [Action.exit_eq_zero_iff, codes, List.flatMap_eq_nil_iff]
  · intro p hm
    refine ⟨inputs_singleton (readable p hm), fun files' same => ?_⟩
    obtain ⟨s, hs⟩ := hl p hm
    have hs' : loadSource files' p = .ok s := same.trans hs
    have readable' : p.Readable files' := Path.readable_iff.2 ⟨s, hs'⟩
    rw [Action.run, Action.run, outcomes_singleton readable', outcomes_singleton (readable p hm),
      Path.outcome_of_loadSource hs, Path.outcome_of_loadSource hs']

theorem readable_mixedInputs : ∀ p ∈ mixedInputs, p.Readable mixedFiles := by
  decide +kernel

/-- a success between two failures -/
theorem Action.run_eq_singles_mixedFiles :
    inputs mixedFiles mixedPaths = .ok mixedInputs ∧
    (Action.kinds.run {} mixedFiles mixedPaths).stdout =
      String.join (mixedInputs.map fun p => (Action.kinds.run {} mixedFiles [p]).stdout) ∧
    (Action.kinds.run {} mixedFiles [⟨"../home/d/c.json"⟩]).stdout =
      "== ../home/d/c.json ==\nIdentifier\n" ∧
    (Action.kinds.run {} mixedFiles mixedPaths).exit ≠ 0 := by
  have hp : inputs mixedFiles mixedPaths = .ok mixedInputs := by decide +kernel
  have hl : ∀ p ∈ mixedInputs, ∃ s, loadSource mixedFiles p = .ok s :=
    fun p hm => Path.readable_iff.1 (readable_mixedInputs p hm)
  have ha : Action.kinds ≠ .check := by simp
  obtain ⟨stdout, _, _, exit, _⟩ := Action.run_eq_singles ha {} hp hl
  refine ⟨hp, stdout, by decide +kernel, fun h => ?_⟩
  exact absurd (exit.1 h ⟨"w.json"⟩ (by decide)) (by decide +kernel)

/-! ## runs with an unreadable input -/

theorem Diagnostic.code_eq_io_iff {d : Diagnostic} :
    d.code = "arbor::driver::io" ↔ ∃ message below, d.cause = .io message below := by
  rw [Diagnostic.code]
  cases d.cause with
  | io message below => exact iff_of_true (by rfl) ⟨message, below, rfl⟩
  | _ => exact iff_of_false (by simp [Cause.stage, Cause.category]) (by simp)

/-- a text that can be loaded does not fail for its file -/
theorem Source.Fails.cause_ne_io {s : Source} {e : Diagnostic} (h : s.Fails readTree e)
    (message : String) (below : Option String) : e.cause ≠ .io message below := by
  intro hio
  cases h with
  | reading hr =>
    have hparse := (exists_span_of_readTree hr).1
    rw [hio] at hparse
    cases hparse
  | decoding _ hd =>
    obtain ⟨r, _, rfl⟩ := Traced.diagnosed_eq_error.1 hd
    cases r <;> cases hio

theorem Outcome.diagnostic?_eq_some {o : Outcome} {d : Diagnostic} :
    o.diagnostic? = some d ↔ o.result = .error d := by
  rw [Outcome.diagnostic?]
  cases o.result <;> simp

/-- an outcome is never a failure to read its file -/
theorem Path.cause_outcome_ne_io {files : FileSystem} {p : Path} {d : Diagnostic}
    (h : (p.outcome files).diagnostic? = some d) (message : String) (below : Option String) :
    d.cause ≠ .io message below := by
  obtain ⟨e, hf, rfl⟩ := Source.result_eq_error.1 (Outcome.diagnostic?_eq_some.1 h)
  exact hf.cause_ne_io message below

/-- **An unreadable input ends a run before anything is printed.**  Whatever the action and the
other inputs, all that is left is one diagnostic, which names the first input that cannot be read.
If all can be read, every one has its outcome, and none is reported as unreadable. -/
theorem Action.run_unreadable {files : FileSystem} {paths ps : List Path}
    (hp : inputs files paths = .ok ps) :
    ((∃ p ∈ ps, ¬ p.Readable files) →
      ∃ before p after e, ps = before ++ p :: after ∧ (∀ q ∈ before, q.Readable files) ∧
        ¬ p.Readable files ∧ p.read files = .error e ∧
        ∀ (a : Action) (env : Environment),
          a.run env files paths =
            { exit := 1, stdout := "", log := [],
              diagnostics := [⟨.io ("failed to read '" ++ p.spelling ++ "'") (some e.message), {}⟩] } ∧
          (a.run env files paths).codes = ["arbor::driver::io"]) ∧
    ((∀ p ∈ ps, p.Readable files) →
      ∃ os, List.Forall₂ (Outcome.Of files) ps os ∧
        ∀ (a : Action) (env : Environment),
          (a.run env files paths).stdout = printAll env.colours a os ∧
          (a.run env files paths).diagnostics = os.filterMap Outcome.diagnostic? ∧
          (∀ d ∈ (a.run env files paths).diagnostics, ∀ message below,
            d.cause ≠ .io message below) ∧
          "arbor::driver::io" ∉ (a.run env files paths).codes) := by
  constructor
  · rintro ⟨u, hu, hn⟩
    rcases forall_or_first (Path.Readable files) ps with h | ⟨before, p, after, rfl, hb, hr⟩
    · exact absurd (h u hu) hn
    obtain ⟨e, he⟩ := Path.exists_read_eq_error hr
    have failed := outcomes_of_unreadable hp hb he
    refine ⟨before, p, after, e, rfl, hb, hr, he, fun a env => ?_⟩
    have report : a.run env files paths =
        { exit := 1, diagnostics := [Diagnostic.unreadable "read" p e] } := by
      rw [Action.run_eq, failed]
    exact ⟨report, congrArg Report.codes report⟩
  · intro hr
    have batch := outcomes_of_readable hp hr
    refine ⟨ps.map (Path.outcome files), ?_, fun a env => ?_⟩
    · refine List.forall₂_map_right_iff.2 (List.forall₂_same.2 fun p hm => ?_)
      exact Outcome.of_loadSource (Path.loadSource_of_readable (hr p hm))
    have noFile : ∀ d ∈ (a.run env files paths).diagnostics, ∀ message below,
        d.cause ≠ .io message below := by
      rw [diagnostics_of_outcomes batch]
      intro d hd
      obtain ⟨o, ho, hod⟩ := List.mem_filterMap.1 hd
      obtain ⟨p, _, rfl⟩ := List.mem_map.1 ho
      exact Path.cause_outcome_ne_io hod
    refine ⟨stdout_of_outcomes batch, diagnostics_of_outcomes batch, noFile, fun hc => ?_⟩
    obtain ⟨d, hd, hcode⟩ := List.mem_map.1 hc
    obtain ⟨message, below, hio⟩ := Diagnostic.code_eq_io_iff.1 hcode
    exact noFile d hd message below hio

/-- a file that holds no text, a path to nothing, and two texts that hold no node -/
def unreadablePaths : List Path :=
  [⟨"w.json"⟩, ⟨"missing"⟩, ⟨"../home/d/e.txt"⟩, ⟨"/home/b.json"⟩]

/-- the file that holds no text comes before the missing one and is named; where all inputs are
readable, none is -/
theorem Action.run_unreadable_mixedFiles :
    (∀ a : Action, (a.run {} mixedFiles unreadablePaths).stdout = "" ∧
      (a.run {} mixedFiles unreadablePaths).diagnostics.map (·.cause) =
        [.io "failed to read '../home/d/e.txt'" (some "stream did not contain valid UTF-8")]) ∧
    ∀ a : Action, "arbor::driver::io" ∉ (a.run {} mixedFiles mixedPaths).codes := by
  have hp : inputs mixedFiles unreadablePaths =
      .ok [⟨"/home/b.json"⟩, ⟨"../home/d/e.txt"⟩, ⟨"missing"⟩, ⟨"w.json"⟩] := by decide +kernel
  have hb : Path.Readable mixedFiles ⟨"/home/b.json"⟩ := by decide +kernel
  have hn : ¬ Path.Readable mixedFiles ⟨"../home/d/e.txt"⟩ := by decide +kernel
  constructor
  · obtain ⟨before, p, after, e, hps, hbefore, hr, he, run⟩ :=
      (Action.run_unreadable hp).1 ⟨_, List.mem_cons_of_mem _ List.mem_cons_self, hn⟩
    have first : p = ⟨"../home/d/e.txt"⟩ := by
      rcases before with _ | ⟨q, _ | ⟨r, before⟩⟩
      · cases hps
        exact absurd hb hr
      · cases hps
        rfl
      · obtain ⟨_, hd⟩ := List.cons.inj hps
        have hq := hbefore r (List.mem_cons_of_mem _ List.mem_cons_self)
        rw [← (List.cons.inj hd).1] at hq
        exact absurd hq hn
    subst first
    have he' : Path.read mixedFiles ⟨"../home/d/e.txt"⟩ = .error .notText := by decide +kernel
    rw [he'] at he
    cases he
    intro a
    rw [(run a {}).1]
    exact ⟨rfl, rfl⟩
  · have hp : inputs mixedFiles mixedPaths = .ok mixedInputs := by decide +kernel
    obtain ⟨_, _, run⟩ := (Action.run_unreadable hp).2 readable_mixedInputs
    exact fun a => (run a {}).2.2.2

end TagTree
