import TagTree.Command.Run

/-!
# What the loops of the commands have in common

Every command has a loop of its own, with a flag or a counter.  They leave the same behind: the text
about each outcome, in order, and the diagnostics of those that failed; the flag or the counter tells
whether there are any.

* `Outcome.tell`         the console after one more outcome;
* `foldl_tell`           the console after a batch;
* `astLoop_eq`, `kindsLoop_eq`, `checkLoop_eq`   each loop tells the outcomes one by one;
* `Action.handle_ok`     so the commands agree on the flag and the diagnostics;
* `Action.run_eq`        and runs differ in their output only.
-/

namespace TagTree

/-! ## one outcome -/

def Outcome.diagnostic? (o : Outcome) : Option Diagnostic :=
  match o.result with
  | .ok _ => none
  | .error d => some d

/-- what is printed about one outcome -/
def Outcome.print (colours : Bool) (a : Action) (o : Outcome) : String :=
  match a with
  | .ast format => header colours o.name ++ match o.result with
    | .ok n => format.text n ++ "\n"
    | .error _ => ""
  | .kinds => header colours o.name ++ match o.result with
    | .ok n => kindWords n ++ "\n"
    | .error _ => ""
  | .check => match o.result with
    | .ok n => okLine colours o.name n.kinds.length
    | .error _ => failedLine colours o.name

/-- the console after one more outcome -/
def Outcome.tell (colours : Bool) (a : Action) (out : Console) (o : Outcome) : Console :=
  ⟨out.output ++ o.print colours a, out.reported ++ o.diagnostic?.toList⟩

section
variable (colours : Bool)

/-- the console after a batch -/
theorem foldl_tell (a : Action) (out : Console) (os : List Outcome) :
    os.foldl (Outcome.tell colours a) out =
      ⟨out.output ++ String.join (os.map (Outcome.print colours a)),
        out.reported ++ os.filterMap Outcome.diagnostic?⟩ := by
  induction os generalizing out with
  | nil => simp
  | cons o os ih =>
    rw [List.foldl_cons, ih, Outcome.tell, List.map_cons, String.join_cons, String.append_assoc,
      List.append_assoc, List.filterMap_cons]
    cases o.diagnostic? <;> rfl

theorem Outcome.tell_of_ok (a : Action) (out : Console) {o : Outcome} {n : Node}
    (h : o.result = .ok n) :
    o.diagnostic? = none ∧ o.tell colours a out = out.print (o.print colours a) := by
  have hd : o.diagnostic? = none := by rw [Outcome.diagnostic?, h]
  refine ⟨hd, ?_⟩
  rw [Outcome.tell, hd]
  exact congrArg (Console.mk _) (List.append_nil _)

theorem Outcome.tell_of_error (a : Action) (out : Console) {o : Outcome} {d : Diagnostic}
    (h : o.result = .error d) :
    o.diagnostic? = some d ∧ o.tell colours a out = (out.print (o.print colours a)).report d := by
  have hd : o.diagnostic? = some d := by rw [Outcome.diagnostic?, h]
  refine ⟨hd, ?_⟩
  rw [Outcome.tell, hd]
  rfl

theorem Console.print_print (out : Console) (s t : String) :
    (out.print s).print t = out.print (s ++ t) :=
  congrArg (Console.mk · out.reported) String.append_assoc

/-! ## the loops

Each by induction on the outcomes, from any flag or counter and any console. -/

theorem astLoop_eq (format : Format) (allOk : Bool) (out : Console) (os : List Outcome) :
    astLoop colours format allOk out os =
      (allOk && (os.filterMap Outcome.diagnostic?).isEmpty,
        os.foldl (Outcome.tell colours (.ast format)) out) := by
  induction os generalizing allOk out with
  | nil => simp [astLoop]
  | cons o os ih =>
    rw [astLoop, List.foldl_cons, List.filterMap_cons]
    cases h : o.result with
    | ok n =>
      obtain ⟨hd, ht⟩ := Outcome.tell_of_ok colours (.ast format) out h
      simp only [ih, hd, ht, Outcome.print, h, Console.print_print]
    | error d =>
      obtain ⟨hd, ht⟩ := Outcome.tell_of_error colours (.ast format) out h
      simp [ih, hd, ht, Outcome.print, h]

theorem kindsLoop_eq (allOk : Bool) (out : Console) (os : List Outcome) :
    kindsLoop colours allOk out os =
      (allOk && (os.filterMap Outcome.diagnostic?).isEmpty,
        os.foldl (Outcome.tell colours .kinds) out) := by
  induction os generalizing allOk out with
  | nil => simp [kindsLoop]
  | cons o os ih =>
    rw [kindsLoop, List.foldl_cons, List.filterMap_cons]
    cases h : o.result with
    | ok n =>
      obtain ⟨hd, ht⟩ := Outcome.tell_of_ok colours .kinds out h
      simp only [ih, hd, ht, Outcome.print, h, Console.print_print]
    | error d =>
      obtain ⟨hd, ht⟩ := Outcome.tell_of_error colours .kinds out h
      simp [ih, hd, ht, Outcome.print, h]

/-- the counter counts what is reported -/
theorem checkLoop_eq (failed : Nat) (out : Console) (os : List Outcome) :
    checkLoop colours failed out os =
      (failed + (os.filterMap Outcome.diagnostic?).length,
        os.foldl (Outcome.tell colours .check) out) := by
  induction os generalizing failed out with
  | nil => simp [checkLoop]
  | cons o os ih =>
    rw [checkLoop, List.foldl_cons, List.filterMap_cons]
    cases h : o.result with
    | ok n =>
      obtain ⟨hd, ht⟩ := Outcome.tell_of_ok colours .check out h
      simp only [ih, hd, ht, Outcome.print, h]
    | error d =>
      obtain ⟨hd, ht⟩ := Outcome.tell_of_error colours .check out h
      have hcount (n : Nat) : failed + 1 + n = failed + (n + 1) := by omega
      simp only [ih, hd, ht, Outcome.print, h, List.length_cons, hcount]

/-! ## batches -/

/-- only a check closes with a summary -/
def Action.closing (total failed : Nat) : Action → String
  | .check => summary total failed
  | _ => ""

def printAll (colours : Bool) (a : Action) (os : List Outcome) : String :=
  String.join (os.map (Outcome.print colours a)) ++
    a.closing os.length (os.filterMap Outcome.diagnostic?).length

/-- the commands agree on the flag and the diagnostics -/
theorem Action.handle_ok (a : Action) (os : List Outcome) :
    a.handle colours (.ok os) =
      .ok ((os.filterMap Outcome.diagnostic?).isEmpty,
        ⟨printAll colours a os, os.filterMap Outcome.diagnostic?⟩) := by
  cases a with
  | ast format =>
    show Except.ok (astLoop colours format true {} os) = _
    rw [astLoop_eq, foldl_tell]
    simp [printAll, closing]
  | kinds =>
    show Except.ok (kindsLoop colours true {} os) = _
    rw [kindsLoop_eq, foldl_tell]
    simp [printAll, closing]
  | check =>
    show Except.ok ((checkLoop colours 0 {} os).1 == 0,
      (checkLoop colours 0 {} os).2.print
        (summary os.length (checkLoop colours 0 {} os).1)) = _
    have flag (ds : List Diagnostic) : (ds.length == 0) = ds.isEmpty := by cases ds <;> rfl
    rw [checkLoop_eq, foldl_tell, Nat.zero_add, flag]
    simp [printAll, closing, Console.print]

theorem Action.handle_single (a : Action) (name : String) (log : List LogEntry) (n : Node) :
    a.handle colours (.ok [⟨name, log, .ok n⟩]) =
      .ok (true, ⟨Outcome.print colours a ⟨name, log, .ok n⟩ ++ a.closing 1 0, []⟩) := by
  rw [handle_ok, printAll, List.map_singleton, String.join_cons, String.join_nil,
    String.append_empty]
  rfl

theorem Action.handle_error (a : Action) (d : Diagnostic) :
    a.handle colours (.error d) = .error d := by
  cases a <;> rfl

end

/-! ## runs -/

/-- a run tells of its outcomes and succeeds if none has failed; a failed batch is all it reports -/
theorem Action.run_eq (a : Action) (env : Environment) (files : FileSystem) (paths : List Path) :
    a.run env files paths =
      match outcomes files paths with
      | .error d => { exit := 1, diagnostics := [d] }
      | .ok os =>
        { exit := if (os.filterMap Outcome.diagnostic?).isEmpty then 0 else 1
          stdout := printAll env.colours a os
          diagnostics := os.filterMap Outcome.diagnostic?
          log := env.written (os.length == 1) (os.flatMap Outcome.log) } := by
  rw [Action.run]
  cases outcomes files paths with
  | error d =>
    dsimp only
    rw [Action.handle_error]
    rfl
  | ok os =>
    dsimp only
    rw [Action.handle_ok]
    rfl

end TagTree
