import Mathlib.Data.List.Forall2
import TagTree.Proofs.Blame
import TagTree.Proofs.Handlers
import TagTree.Proofs.KindFields

/-!
# What the actions of a run have in common

All actions load the same inputs and fail for the same reasons; they differ in what they print.  A
run is described input by input: every input has a node or a failure, which is decided by its own
text alone.

* `Path.node`                  the node that an input holds, or why there is none;
* `Outcome.Of`                 what an outcome has to do with its input;
* `outcomes_of_loaded`         if all inputs can be loaded, each has its outcome, in order;
* `Text.pieces_append_cons`    a text is split at its separators;
* `Action.runs_agree`          the actions agree on exit status, codes, failures and counts.
-/

namespace TagTree

/-! ## inputs -/

namespace Path

/-- the node that an input holds, or why there is none -/
def node (files : FileSystem) (p : Path) : Except Diagnostic Node := do
  let s ← loadSource files p
  let t ← readTree s.text
  (Node.decode t).diagnosed

/-- an input can be loaded, its text is a tree, and the tree stands for a node -/
def Materializes (files : FileSystem) (p : Path) : Prop :=
  ∃ (s : Source) (t : Json) (n : Node),
    loadSource files p = .ok s ∧ readTree s.text = .ok t ∧ (Node.decode t).result = .ok n

def failureCode? (files : FileSystem) (p : Path) : Option String :=
  match p.node files with
  | .ok _ => none
  | .error d => some d.code

def fails (files : FileSystem) (p : Path) : Bool := (p.failureCode? files).isSome

theorem materializes_iff {files : FileSystem} {p : Path} :
    p.Materializes files ↔ ∃ n, p.node files = .ok n := by
  unfold Materializes node
  cases hs : loadSource files p with
  | error d => simp [bind, Except.bind]
  | ok s =>
    cases ht : readTree s.text with
    | error d => simp [bind, Except.bind, ht]
    | ok t =>
      cases hn : (Node.decode t).result <;>
        simp [bind, Except.bind, ht, Traced.diagnosed, hn, Except.mapError]

theorem failureCode?_eq_none {files : FileSystem} {p : Path} :
    p.failureCode? files = none ↔ p.Materializes files := by
  rw [materializes_iff, failureCode?]
  cases p.node files <;> simp

end Path

/-! ## outcomes -/

theorem Diagnostic.code_withSource (d : Diagnostic) (s : Source) : (d.withSource s).code = d.code :=
  rfl

/-- the outcome of an input: it bears the input's name, and its result is the input's node or a
failure with the code of the input's failure -/
inductive Outcome.Of (files : FileSystem) (p : Path) : Outcome → Prop
  | ok {log : List LogEntry} {n : Node} :
    p.node files = .ok n → Of files p ⟨p.spelling, log, .ok n⟩
  | failed {log : List LogEntry} {d e : Diagnostic} :
    p.node files = .error d → e.code = d.code → Of files p ⟨p.spelling, log, .error e⟩

theorem name_of_loadSource {files : FileSystem} {p : Path} {s : Source}
    (h : loadSource files p = .ok s) : s.name = p.spelling := by
  unfold loadSource at h
  split at h
  · cases h
    rfl
  · cases h

theorem Outcome.of_loadSource {files : FileSystem} {p : Path} {s : Source}
    (h : loadSource files p = .ok s) : Outcome.Of files p (s.outcome readTree) := by
  have hn : p.node files = (readTree s.text >>= fun t => (Node.decode t).diagnosed) := by
    rw [Path.node, h]
    rfl
  unfold Source.outcome
  cases ht : readTree s.text with
  | error d =>
    rw [name_of_loadSource h]
    refine .failed (d := d) ?_ (d.code_withSource s)
    rw [hn, ht]
    rfl
  | ok t =>
    have hd : p.node files = (Node.decode t).diagnosed := by
      rw [hn, ht]
      rfl
    dsimp only
    cases hr : (Node.decode t).result with
    | error r =>
      rw [name_of_loadSource h]
      refine .failed (d := Diagnostic.ofRefusal r) ?_ (Diagnostic.code_withSource _ s)
      rw [hd, Traced.diagnosed, hr]
      rfl
    | ok n =>
      rw [name_of_loadSource h]
      refine .ok ?_
      rw [hd, Traced.diagnosed, hr]
      rfl

theorem mapM_loadSource {files : FileSystem} {ps : List Path}
    (h : ∀ p ∈ ps, ∃ s, loadSource files p = .ok s) :
    ∃ ss, ps.mapM (loadSource files) = .ok ss ∧
      List.Forall₂ (fun p s => loadSource files p = .ok s) ps ss := by
  induction ps with
  | nil => exact ⟨[], rfl, .nil⟩
  | cons p ps ih =>
    obtain ⟨s, hs⟩ := h p List.mem_cons_self
    obtain ⟨ss, hm, hf⟩ := ih fun q hq => h q (List.mem_cons_of_mem _ hq)
    refine ⟨s :: ss, ?_, .cons hs hf⟩
    rw [List.mapM_cons, hs, hm]
    rfl

theorem outcomes_of_loaded {files : FileSystem} {paths ps : List Path}
    (hp : inputs files paths = .ok ps) (hl : ∀ p ∈ ps, ∃ s, loadSource files p = .ok s) :
    ∃ os, outcomes files paths = .ok os ∧ List.Forall₂ (Outcome.Of files) ps os := by
  obtain ⟨ss, hm, hf⟩ := mapM_loadSource hl
  refine ⟨ss.map (Source.outcome readTree), ?_, ?_⟩
  · rw [outcomes, sources, hp]
    show (ps.mapM (loadSource files) >>= fun ss => pure (ss.map (Source.outcome readTree))) = _
    rw [hm]
    rfl
  · exact List.forall₂_map_right_iff.2 (hf.imp fun p s hs => Outcome.of_loadSource hs)

/-- what depends on the input of an outcome only is listed by the inputs -/
theorem Outcome.map_eq_of_forall₂ {α : Type} {files : FileSystem} {ps : List Path} {os : List Outcome}
    {f : Path → α} {g : Outcome → α} (h : List.Forall₂ (Outcome.Of files) ps os)
    (hfg : ∀ p o, Outcome.Of files p o → g o = f p) : os.map g = ps.map f := by
  induction h with
  | nil => rfl
  | cons ho _ ih => rw [List.map_cons, List.map_cons, ih, hfg _ _ ho]

/-! ## printed lines -/

def kindsBlock (colours : Bool) (files : FileSystem) (p : Path) : String :=
  header colours p.spelling ++ match p.node files with
    | .ok n => kindWords n ++ "\n"
    | .error _ => ""

/-- the line of a check about an input: that it failed, or how many words of kinds are printed -/
def checkLine (colours : Bool) (files : FileSystem) (p : Path) : String :=
  match p.node files with
  | .ok n =>
    let words := Text.split ' ' (kindWords n)
    paint colours .green "ok" ++ s!"     {p.spelling} ({words.length} nodes)"
  | .error _ => paint colours .red "FAILED" ++ " " ++ p.spelling

def summaryLine (total ok failed : Nat) : String :=
  s!"checked {total} units: {ok} ok, {failed} failed"

namespace Text

theorem pieces_append_cons {sep : Char} {cs : List Char} (h : sep ∉ cs) (rest : List Char) :
    pieces sep (cs ++ sep :: rest) = cs :: pieces sep rest := by
  rw [pieces_append, pieces_eq_singleton h, List.singleton_append]

/-- words with a separator between them that none of them holds are the pieces -/
theorem pieces_intercalate {sep : Char} {words : List (List Char)} (hne : words ≠ [])
    (h : ∀ w ∈ words, sep ∉ w) : pieces sep (List.intercalate [sep] words) = words := by
  induction words with
  | nil => exact absurd rfl hne
  | cons w ws ih =>
    have hw : sep ∉ w := h w List.mem_cons_self
    cases ws with
    | nil =>
      rw [List.intercalate_singleton]
      exact pieces_eq_singleton hw
    | cons v vs =>
      have hv := ih (List.cons_ne_nil _ _) fun x hx => h x (List.mem_cons_of_mem _ hx)
      rw [List.intercalate_cons_cons, List.append_assoc, List.singleton_append,
        pieces_append_cons hw, hv]

theorem split_join_lines {lines : List String} (h : ∀ l ∈ lines, '\n' ∉ l.toList) :
    split '\n' (String.join (lines.map (· ++ "\n"))) = lines ++ [""] := by
  induction lines with
  | nil => rfl
  | cons l ls ih =>
    have hl : '\n' ∉ l.toList := h l List.mem_cons_self
    have ih := ih fun x hx => h x (List.mem_cons_of_mem _ hx)
    have first : (String.join ((l :: ls).map (· ++ "\n"))).toList =
        l.toList ++ '\n' :: (String.join (ls.map (· ++ "\n"))).toList := by
      simp
    rw [split, first, pieces_append_cons hl, List.map_cons, String.ofList_toList, List.cons_append]
    exact congrArg (l :: ·) ih

end Text

/-! ### words of kinds -/

theorem Kind.blank_notMem_name (k : Kind) : ' ' ∉ k.name.toList := by
  cases k <;> decide

theorem Node.kinds_ne_nil (n : Node) : n.kinds ≠ [] := by
  rw [n.kinds_eq_preorder, Item.preorder_eq]
  exact List.cons_ne_nil _ _

/-- the printed line of kinds has a word for every kind -/
theorem split_kindWords (n : Node) : Text.split ' ' (kindWords n) = n.kinds.map Kind.name := by
  have chars : (kindWords n).toList =
      List.intercalate [' '] (n.kinds.map fun k => k.name.toList) := by
    rw [kindWords, String.toList_intercalate, List.map_map]
    rfl
  have words : Text.pieces ' ' (kindWords n).toList = n.kinds.map fun k => k.name.toList := by
    rw [chars]
    refine Text.pieces_intercalate ?_ ?_
    · rw [ne_eq, List.map_eq_nil_iff]
      exact n.kinds_ne_nil
    · intro w hw
      obtain ⟨k, _, rfl⟩ := List.mem_map.1 hw
      exact k.blank_notMem_name
  rw [Text.split, words, List.map_map]
  exact List.map_congr_left fun k _ => String.ofList_toList

/-! ### texts about an input -/

theorem Outcome.print_kinds {files : FileSystem} {p : Path} {o : Outcome} (colours : Bool)
    (h : Outcome.Of files p o) : o.print colours .kinds = kindsBlock colours files p := by
  cases h with
  | ok hn => rw [kindsBlock, hn]; rfl
  | failed hn _ => rw [kindsBlock, hn]; rfl

theorem Outcome.print_check {files : FileSystem} {p : Path} {o : Outcome} (colours : Bool)
    (h : Outcome.Of files p o) : o.print colours .check = checkLine colours files p ++ "\n" := by
  cases h with
  | ok hn =>
    simp only [Outcome.print, okLine, checkLine, hn, split_kindWords, List.length_map,
      String.append_assoc]
    rfl
  | failed hn _ => rw [checkLine, hn]; rfl

theorem Outcome.code?_eq {files : FileSystem} {p : Path} {o : Outcome} (h : Outcome.Of files p o) :
    o.diagnostic?.map Diagnostic.code = p.failureCode? files := by
  cases h with
  | ok hn => rw [Path.failureCode?, hn]; rfl
  | failed hn hc =>
    rw [Path.failureCode?, hn]
    exact congrArg some hc

/-! ## line breaks -/

theorem newline_notMem_toDigits (n : Nat) : '\n' ∉ Nat.toDigits 10 n := by
  intro h
  exact absurd (Nat.isDigit_of_mem_toDigits (by decide) (by decide) h) (by decide)

theorem newline_notMem_paint {s : String} (colours : Bool) (c : Colour) (h : '\n' ∉ s.toList) :
    '\n' ∉ (paint colours c s).toList := by
  cases colours with
  | false => exact h
  | true => cases c <;> simp [paint, Colour.code, h]

theorem newline_notMem_checkLine (colours : Bool) (files : FileSystem) {p : Path}
    (h : '\n' ∉ p.spelling.toList) : '\n' ∉ (checkLine colours files p).toList := by
  unfold checkLine
  cases p.node files with
  | ok n =>
    have hp := newline_notMem_paint colours .green (s := "ok") (by decide)
    simp [hp, h, newline_notMem_toDigits, toString]
  | error d =>
    have hp := newline_notMem_paint colours .red (s := "FAILED") (by decide)
    simp [hp, h]

theorem newline_notMem_summaryLine (total ok failed : Nat) :
    '\n' ∉ (summaryLine total ok failed).toList := by
  simp [summaryLine, newline_notMem_toDigits, toString]

/-! ## runs -/

/-- what a run reports, whatever it prints -/
theorem Action.run_reports (a : Action) (env : Environment) (files : FileSystem) (paths : List Path) :
    ((a.run env files paths).exit, (a.run env files paths).codes) =
      match outcomes files paths with
      | .error d => (1, [d.code])
      | .ok os =>
        (if (os.filterMap Outcome.diagnostic?).isEmpty then 0 else 1,
          (os.filterMap Outcome.diagnostic?).map Diagnostic.code) := by
  rw [Report.codes, Action.run_eq]
  cases outcomes files paths <;> rfl

theorem Action.exit_eq_zero_iff (a : Action) {env : Environment} {files : FileSystem}
    {paths : List Path} :
    (a.run env files paths).exit = 0 ↔ (a.run env files paths).codes = [] := by
  rw [Report.codes, Action.run_eq]
  cases outcomes files paths with
  | error d => simp
  | ok os => cases os.filterMap Outcome.diagnostic? <;> simp

theorem codes_of_forall₂ {files : FileSystem} {ps : List Path} {os : List Outcome}
    (h : List.Forall₂ (Outcome.Of files) ps os) :
    (os.filterMap Outcome.diagnostic?).map Diagnostic.code =
      ps.filterMap (Path.failureCode? files) := by
  have same : os.map (fun o => o.diagnostic?.map Diagnostic.code) =
      ps.map (Path.failureCode? files) :=
    Outcome.map_eq_of_forall₂ h fun p o ho => Outcome.code?_eq ho
  have options {α β : Type} (f : α → Option β) (xs : List α) :
      xs.filterMap f = (xs.map f).filterMap id := by
    rw [List.filterMap_map]
    rfl
  rw [List.map_filterMap, options, same, ← options]

theorem length_codes (files : FileSystem) (ps : List Path) :
    (ps.filterMap (Path.failureCode? files)).length = ps.countP (Path.fails files) :=
  List.length_filterMap_eq_countP

theorem length_eq_ok_add_failed (files : FileSystem) (ps : List Path) :
    ps.length = (ps.countP fun p => !p.fails files) + ps.countP (Path.fails files) := by
  rw [List.length_eq_countP_add_countP (Path.fails files), Nat.add_comm]
  congr 2
  funext p
  cases p.fails files <;> rfl

theorem join_summaryLine (total ok failed : Nat) :
    s!"\nchecked {total} units: {ok} ok, {failed} failed\n" =
      String.join (["", summaryLine total ok failed].map (· ++ "\n")) := by
  apply String.toList_inj.1
  simp [summaryLine, toString]

theorem printAll_check {files : FileSystem} {ps : List Path} {os : List Outcome} (colours : Bool)
    (h : List.Forall₂ (Outcome.Of files) ps os) :
    printAll colours .check os =
      String.join ((ps.map (checkLine colours files) ++
        ["", summaryLine ps.length (ps.countP fun p => !p.fails files)
          (ps.countP (Path.fails files))]).map (· ++ "\n")) := by
  have lines : os.map (Outcome.print colours .check) =
      (ps.map (checkLine colours files)).map (· ++ "\n") := by
    rw [List.map_map]
    exact Outcome.map_eq_of_forall₂ h fun p o ho => Outcome.print_check colours ho
  have total : os.length = ps.length := h.length_eq.symm
  have failed : (os.filterMap Outcome.diagnostic?).length = ps.countP (Path.fails files) := by
    rw [← length_codes, ← codes_of_forall₂ h, List.length_map]
  have ok : ps.length - ps.countP (Path.fails files) = ps.countP fun p => !p.fails files := by
    have count := length_eq_ok_add_failed files ps
    omega
  simp only [printAll, Action.closing, summary, lines, total, failed, ok, join_summaryLine,
    List.map_append, String.join_append]

/-- **All actions tell one story about a run.**  They end with the same status and report the same
codes.  If every input can be loaded, the status is zero iff every input materializes, the codes are
those of the inputs that fail, in order, and a check prints a line for each input: that it failed, or
how many kinds are listed for it.  Its last line counts the inputs, and the two counts add up. -/
theorem Action.runs_agree (files : FileSystem) (paths : List Path) :
    (∀ (a b : Action) (env env' : Environment),
      (a.run env files paths).exit = (b.run env' files paths).exit ∧
      (a.run env files paths).codes = (b.run env' files paths).codes) ∧
    ∀ (ps : List Path) (env : Environment), inputs files paths = .ok ps →
      (∀ p ∈ ps, ∃ s, loadSource files p = .ok s) →
      (∀ a : Action,
        ((a.run env files paths).exit = 0 ↔ ∀ p ∈ ps, p.Materializes files) ∧
        (a.run env files paths).codes = ps.filterMap (Path.failureCode? files)) ∧
      (∀ p : Path, p.failureCode? files = none ↔ p.Materializes files) ∧
      (Action.kinds.run env files paths).stdout =
        String.join (ps.map (kindsBlock env.colours files)) ∧
      ∃ total ok failed : Nat,
        (Action.check.run env files paths).stdout =
          String.join ((ps.map (checkLine env.colours files) ++
            ["", summaryLine total ok failed]).map (· ++ "\n")) ∧
        total = ps.length ∧ failed = ps.countP (Path.fails files) ∧
        failed = (Action.check.run env files paths).codes.length ∧ total = ok + failed ∧
        ((∀ p ∈ ps, '\n' ∉ p.spelling.toList) →
          Text.split '\n' (Action.check.run env files paths).stdout =
            ps.map (checkLine env.colours files) ++ ["", summaryLine total ok failed] ++ [""]) := by
  constructor
  · intro a b env env'
    have h := (a.run_reports env files paths).trans (b.run_reports env' files paths).symm
    exact Prod.ext_iff.1 h
  · intro ps env hp hl
    obtain ⟨os, ho, hf⟩ := outcomes_of_loaded hp hl
    have codes : ∀ a : Action,
        (a.run env files paths).codes = ps.filterMap (Path.failureCode? files) := by
      intro a
      have h := (Prod.ext_iff.1 (a.run_reports env files paths)).2
      simp only [ho] at h
      rw [h, codes_of_forall₂ hf]
    have stdout : ∀ a : Action, (a.run env files paths).stdout = printAll env.colours a os := by
      intro a
      simp only [Action.run_eq, ho]
    refine ⟨fun a => ⟨?_, codes a⟩, fun p => Path.failureCode?_eq_none, ?_, ps.length,
      ps.countP fun p => !p.fails files, ps.countP (Path.fails files), ?_, rfl, rfl, ?_, ?_, ?_⟩
    · rw [a.exit_eq_zero_iff, codes, List.filterMap_eq_nil_iff]
      exact forall₂_congr fun p _ => Path.failureCode?_eq_none
    · rw [stdout]
      show String.join (os.map (Outcome.print env.colours .kinds)) ++ "" = _
      rw [String.append_empty,
        Outcome.map_eq_of_forall₂ hf fun p o h => Outcome.print_kinds env.colours h]
    · rw [stdout, printAll_check env.colours hf]
    · rw [codes, length_codes]
    · exact length_eq_ok_add_failed files ps
    · intro hname
      rw [stdout, printAll_check env.colours hf]
      refine Text.split_join_lines fun l hl => ?_
      rcases List.mem_append.1 hl with hl | hl
      · obtain ⟨p, hp, rfl⟩ := List.mem_map.1 hl
        exact newline_notMem_checkLine env.colours files (hname p hp)
      · rcases List.mem_pair.1 hl with rfl | rfl
        · exact List.not_mem_nil
        · exact newline_notMem_summaryLine _ _ _

/-- a text that ends early, a name in a directory beside what is no text, and an unknown construct,
all of them in the working directory -/
def mixedFiles : FileSystem where
  root :=
    [("home", .directory
      [("b.json", .file (Text.bytes "[\"name\",")),
        ("d", .directory
          [("c.json", .file (Text.bytes "[\"name\",\"x\"]")), ("e.txt", .file [0xFF])]),
        ("w.json", .file (Text.bytes "[\"with\"]"))])]
  working := ["home"]
  isProper := by decide +kernel
  isDirectory := by decide +kernel

/-- from the root, by way of the directory above, and in the working directory -/
def mixedPaths : List Path := [⟨"w.json"⟩, ⟨"../home/d"⟩, ⟨"/home/b.json"⟩]

def mixedInputs : List Path := [⟨"/home/b.json"⟩, ⟨"../home/d/c.json"⟩, ⟨"w.json"⟩]

/-- a run with one input that materializes and two that fail -/
theorem Action.runs_agree_mixedFiles :
    inputs mixedFiles mixedPaths = .ok mixedInputs ∧
    (∀ a : Action, (a.run {} mixedFiles mixedPaths).codes =
      ["arbor::syntax::parse", "arbor::materialize::unknown_construct"]) ∧
    Text.split '\n' (Action.check.run {} mixedFiles mixedPaths).stdout =
      ["FAILED /home/b.json", "ok     ../home/d/c.json (1 nodes)", "FAILED w.json", "",
        "checked 3 units: 1 ok, 2 failed", ""] := by
  have hp : inputs mixedFiles mixedPaths = .ok mixedInputs := by decide +kernel
  have hl : ∀ p ∈ mixedInputs, ∃ s, loadSource mixedFiles p = .ok s := by
    intro p h
    simp only [mixedInputs, List.mem_cons, List.not_mem_nil, or_false] at h
    rcases h with rfl | rfl | rfl
    · exact ⟨⟨"/home/b.json", "[\"name\","⟩, by decide +kernel⟩
    · exact ⟨⟨"../home/d/c.json", "[\"name\",\"x\"]"⟩, by decide +kernel⟩
    · exact ⟨⟨"w.json", "[\"with\"]"⟩, by decide +kernel⟩
  obtain ⟨reports, _, _, total, ok, failed, _, ht, hf, _, sum, lines⟩ :=
    (Action.runs_agree mixedFiles mixedPaths).2 mixedInputs {} hp hl
  refine ⟨hp, fun a => (reports a).2.trans (by decide +kernel), ?_⟩
  have ht : total = 3 := ht
  have hf : failed = 2 := hf.trans (by decide +kernel)
  have ho : ok = 1 := by omega
  rw [lines (by decide +kernel), ht, ho, hf]
  decide +kernel

end TagTree
