import TagTree.Proofs.Batches
import TagTree.Proofs.Discovery

/-!
# Paths to one file

Inputs are compared by their components, not by the files that they lead to.  A leading dot and two
dots are components, so that by them one file can be several inputs; there is no other way to name a
file twice.

* `Path.components_eq`          a relative path is its leading dot and its parts;
* `Path.map_name_location`      without two dots its location is told by its parts;
* `Path.StandsFor.dots`         what a path stands for has the dots of the path;
* `inputs_distinct_files`       which inputs can lead to one file, and how many a check counts.
-/

namespace TagTree
/-! ## locations -/

namespace Path

/-- the location of the file that a path leads to -/
def file? (files : FileSystem) (p : Path) : Option (List String) :=
  match p.resolve files with
  | .ok (.file _) => some (p.location files)
  | _ => none

section
variable {files : FileSystem} {p q : Path}

theorem file?_eq_some {names : List String} :
    p.file? files = some names ↔
      p.location files = names ∧ ∃ content, p.resolve files = .ok (.file content) := by
  unfold file?
  cases p.resolve files with
  | error e => simp
  | ok q => cases q <;> simp

theorem component?_eq_some {part : String} {c : Component} (h : component? part = some c) :
    c = .parent ∨ c = .name part := by
  unfold component? at h
  split at h
  · cases h
  · split at h
    · cases h
      exact .inl rfl
    · cases h
      exact .inr rfl

/-- without two dots components are names, and lead to these -/
theorem map_name_foldl_advance {parts : List String}
    (h : .parent ∉ parts.filterMap component?) (names : List String) :
    ((parts.filterMap component?).foldl Component.advance names).map .name =
      names.map .name ++ parts.filterMap component? := by
  induction parts generalizing names with
  | nil => exact (List.append_nil _).symm
  | cons part parts ih =>
    rw [List.filterMap_cons] at h ⊢
    cases hc : component? part with
    | none =>
      rw [hc] at h
      exact ih h names
    | some c =>
      rw [hc] at h
      obtain ⟨hc', hparts⟩ := not_or.1 (mt List.mem_cons.2 h)
      rcases component?_eq_some hc with rfl | rfl
      · exact absurd rfl hc'
      · show ((parts.filterMap component?).foldl Component.advance (names ++ [part])).map _ = _
        rw [ih hparts, List.map_append, List.append_assoc]
        rfl

/-- a relative path is its leading dot, if it has one, and what its parts stand for -/
theorem components_eq (hp : p.isAbsolute = false) :
    p.components =
      (if .current ∈ p.components then [.current] else []) ++ p.parts.filterMap component? := by
  have hinner : .current ∉ p.parts.filterMap component? := by
    intro hc
    obtain ⟨part, _, hpart⟩ := List.mem_filterMap.1 hc
    rcases component?_eq_some hpart with he | he <;> cases he
  have hcomponents : p.components = if p.parts.head? == some "."
      then .current :: p.parts.filterMap component? else p.parts.filterMap component? := by
    rw [components, hp]
    rfl
  cases hdot : p.parts.head? == some "." with
  | true =>
    rw [hdot] at hcomponents
    have hc : p.components = .current :: p.parts.filterMap component? := hcomponents
    rw [hc, if_pos List.mem_cons_self]
    rfl
  | false =>
    rw [hdot] at hcomponents
    have hc : p.components = p.parts.filterMap component? := hcomponents
    rw [hc, if_neg hinner]
    rfl

/-- without two dots a relative path leads from the working directory to its names -/
theorem map_name_location (hp : p.isAbsolute = false) (h : .parent ∉ p.components) :
    (p.location files).map .name =
      files.working.map .name ++ p.parts.filterMap component? := by
  have hinner : .parent ∉ p.parts.filterMap component? := by
    intro hm
    rw [components_eq hp] at h
    exact h (List.mem_append_right _ hm)
  have hlocation : p.location files =
      (p.parts.filterMap component?).foldl Component.advance files.working := by
    rw [location, hp, components_eq hp, List.foldl_append, if_neg Bool.false_ne_true]
    -- a leading dot leads nowhere else
    split <;> rfl
  rw [hlocation, map_name_foldl_advance hinner]

theorem components_eq_of_location (hp : p.isAbsolute = false) (hq : q.isAbsolute = false)
    (hpp : .parent ∉ p.components) (hqp : .parent ∉ q.components)
    (hdot : .current ∈ p.components ↔ .current ∈ q.components)
    (h : p.location files = q.location files) : p.components = q.components := by
  have hnames := congrArg (List.map Component.name) h
  rw [map_name_location hp hpp, map_name_location hq hqp] at hnames
  rw [components_eq hp, components_eq hq, List.append_cancel_left hnames]
  simp only [hdot]

/-- what a path stands for has the dots of the path, and is relative if the path is -/
theorem StandsFor.dots (h : p.StandsFor files q) :
    q.isAbsolute = p.isAbsolute ∧ (.parent ∈ q.components ↔ .parent ∈ p.components) ∧
      (.current ∈ q.components ↔ .current ∈ p.components) := by
  cases h with
  | itself _ => exact ⟨rfl, Iff.rfl, Iff.rfl⟩
  | @found d names stem content hd hat _ =>
    obtain ⟨_, hr⟩ := directory?_eq_some.1 hd
    have hne := (follow_of_resolve hr).1
    have hproper : (Entry.directory d).isProper = true := isProper_of_directory? hd
    rw [isAbsolute_below hne, components_below hne (Entry.isName_of_at? hproper hat)]
    exact ⟨rfl, by simp, by simp⟩

end
end Path

/-! ## inputs -/

section
variable {files : FileSystem} {paths ps : List Path}

theorem standsFor_of_inputs (h : inputs files paths = .ok ps) :
    ps.Pairwise (· < ·) ∧ ∀ q ∈ ps, ∃ p ∈ paths, p.StandsFor files q := by
  rcases forall_or_first (Path.Openable files) paths with hopen | ⟨before, p, after, rfl, hb, hp⟩
  · rw [inputs_of_openable hopen] at h
    cases h
    refine ⟨pairwise_sortPaths _, fun q hq => ?_⟩
    obtain ⟨before, p, after, rfl, hs, _⟩ := mem_sortPaths_found.1 hq
    exact ⟨p, List.mem_append_right _ List.mem_cons_self, hs⟩
  · rw [inputs_of_not_openable hb hp] at h
    cases h

/-- a check counts the files of its inputs, if all of them can be loaded -/
theorem Action.check_counts (env : Environment) (hp : inputs files paths = .ok ps)
    (hl : ∀ p ∈ ps, ∃ s, loadSource files p = .ok s) :
    ∃ (before : String) (ok failed : Nat),
      (Action.check.run env files paths).stdout =
        before ++ summaryLine (ps.filterMap (Path.file? files)).length ok failed ++ "\n" := by
  have hfile : ∀ p ∈ ps, (p.file? files).isSome := by
    intro p hm
    obtain ⟨text, ht⟩ := Path.readable_iff.2 (hl p hm)
    rw [Path.file?_eq_some.2 ⟨rfl, _, ht⟩]
    rfl
  have hcount : (ps.filterMap (Path.file? files)).length = ps.length :=
    List.filterMap_length_eq_length.2 hfile
  obtain ⟨os, ho, hof⟩ := outcomes_of_loaded hp hl
  refine ⟨String.join ((ps.map (checkLine env.colours files) ++ [""]).map (· ++ "\n")),
    ps.countP fun p => !p.fails files, ps.countP (Path.fails files), ?_⟩
  rw [Action.stdout_of_outcomes ho, printAll_check env.colours hof, hcount]
  simp [String.append_assoc]

/-- **Only dots let one file be two inputs.**  Inputs are told apart by their components.  Where two
of them lead to one file below the working directory, one of them has two dots among its components,
or one begins with a dot and the other does not.  So given paths without two dots that all begin with
a dot, or none of them, lead to every file at most once, and a check counts as many units as there
are files. -/
theorem inputs_distinct_files (hrel : ∀ p ∈ paths, p.isAbsolute = false) (hps : inputs files paths = .ok ps) :
    (∀ p ∈ ps, ∀ names, p.file? files = some names →
      ∃ content, (Entry.directory files.root).at? names = some (.file content)) ∧
    (ps.Pairwise fun p q => ∀ names, p.file? files = some names → q.file? files = some names →
      .parent ∈ p.components ∨ .parent ∈ q.components ∨
        ¬ (.current ∈ p.components ↔ .current ∈ q.components)) ∧
    ((∀ p ∈ paths, .parent ∉ p.components) →
      ((∀ p ∈ paths, .current ∈ p.components) ∨ ∀ p ∈ paths, .current ∉ p.components) →
      (ps.filterMap (Path.file? files)).Nodup ∧
      ∀ env, (∀ p ∈ ps, ∃ s, loadSource files p = .ok s) →
        ∃ (before : String) (ok failed : Nat),
          (Action.check.run env files paths).stdout =
            before ++ summaryLine (ps.filterMap (Path.file? files)).length ok failed ++ "\n") := by
  obtain ⟨hsorted, hfrom⟩ := standsFor_of_inputs hps
  have hrel' : ∀ q ∈ ps, q.isAbsolute = false := by
    intro q hq
    obtain ⟨p, hp, hs⟩ := hfrom q hq
    exact hs.dots.1.trans (hrel p hp)
  have hsame : ps.Pairwise fun p q => ∀ names, p.file? files = some names →
      q.file? files = some names → .parent ∈ p.components ∨ .parent ∈ q.components ∨
        ¬ (.current ∈ p.components ↔ .current ∈ q.components) := by
    refine hsorted.imp_of_mem fun {p q} hp hq hlt names hpn hqn => ?_
    by_contra hdots
    rw [not_or, not_or, not_not] at hdots
    obtain ⟨hpp, hqp, hdot⟩ := hdots
    have hlocation : p.location files = q.location files :=
      (Path.file?_eq_some.1 hpn).1.trans (Path.file?_eq_some.1 hqn).1.symm
    have heq := Path.components_eq_of_location (hrel' p hp) (hrel' q hq) hpp hqp hdot hlocation
    exact lt_irrefl _ (heq ▸ Path.lt_iff.1 hlt)
  refine ⟨fun p hp names hn => ?_, hsame, fun hparent hdot => ⟨?_, fun env hl =>
    Action.check_counts env hps hl⟩⟩
  · obtain ⟨rfl, content, hr⟩ := Path.file?_eq_some.1 hn
    exact ⟨content, Path.at?_location hr⟩
  · have hparent' : ∀ q ∈ ps, .parent ∉ q.components := by
      intro q hq
      obtain ⟨p, hp, hs⟩ := hfrom q hq
      exact fun hm => hparent p hp (hs.dots.2.1.1 hm)
    have hdot' : ∀ q ∈ ps, ∀ r ∈ ps, (.current ∈ q.components ↔ .current ∈ r.components) := by
      intro q hq r hr
      obtain ⟨p, hp, hs⟩ := hfrom q hq
      obtain ⟨p', hp', hs'⟩ := hfrom r hr
      rw [hs.dots.2.2, hs'.dots.2.2]
      rcases hdot with h | h
      · exact iff_of_true (h p hp) (h p' hp')
      · exact iff_of_false (h p hp) (h p' hp')
    have hdiffer : ps.Pairwise fun p q => ∀ names, p.file? files = some names →
        q.file? files ≠ some names := by
      refine hsame.imp_of_mem fun {p q} hp hq h names hpn hqn => ?_
      rcases h names hpn hqn with h | h | h
      · exact hparent' p hp h
      · exact hparent' q hq h
      · exact h (hdot' p hp q hq)
    refine hdiffer.filterMap (Path.file? files) fun p q h names hpn names' hqn => ?_
    rintro rfl
    exact h names hpn hqn

end

/-- a directory with a file, beside a file of the same name, in the working directory -/
def twofoldFiles : FileSystem where
  root :=
    [("home", .directory
      [("d", .directory [("a.json", .file (Text.bytes "[\"name\",\"x\"]"))]),
        ("a.json", .file (Text.bytes "[\"name\",\"y\"]"))])]
  working := ["home"]
  isProper := by decide +kernel
  isDirectory := by decide +kernel

/-- a directory, a file in it in two spellings, and the other file -/
def twofoldPaths : List Path := [⟨"d//a.json"⟩, ⟨"d"⟩, ⟨"d/./a.json"⟩, ⟨"a.json"⟩]

def twofoldInputs : List Path := [⟨"a.json"⟩, ⟨"d//a.json"⟩]

/-- given three times, the file in the directory is one input -/
theorem inputs_distinct_files_twofoldFiles :
    inputs twofoldFiles twofoldPaths = .ok twofoldInputs ∧
    twofoldInputs.filterMap (Path.file? twofoldFiles) =
      [["home", "a.json"], ["home", "d", "a.json"]] ∧
    [["home", "a.json"], ["home", "d", "a.json"]].Nodup ∧
    ∃ (before : String) (ok failed : Nat),
      (Action.check.run {} twofoldFiles twofoldPaths).stdout =
        before ++ summaryLine 2 ok failed ++ "\n" := by
  have hps : inputs twofoldFiles twofoldPaths = .ok twofoldInputs := by decide +kernel
  have hfiles : twofoldInputs.filterMap (Path.file? twofoldFiles) =
      [["home", "a.json"], ["home", "d", "a.json"]] := by decide +kernel
  have hreadable : ∀ p ∈ twofoldInputs, p.Readable twofoldFiles := by decide +kernel
  obtain ⟨_, _, once⟩ := inputs_distinct_files (by decide +kernel) hps
  obtain ⟨distinct, counts⟩ := once (by decide +kernel) (.inr (by decide +kernel))
  rw [hfiles] at distinct counts
  exact ⟨hps, hfiles, distinct, counts {} fun p hp => Path.readable_iff.1 (hreadable p hp)⟩

/-- a file beside an empty directory -/
def loneFile : FileSystem where
  root := [("d", .directory []), ("a.json", .file (Text.bytes "[\"name\",\"x\"]"))]
  working := []
  isProper := by decide +kernel
  isDirectory := by decide +kernel

/-- By a leading dot and by two dots one file is three inputs, and a check counts it three times. -/
theorem inputs_loneFile :
    inputs loneFile [⟨"a.json"⟩, ⟨"./a.json"⟩, ⟨"d/../a.json"⟩] =
      .ok [⟨"./a.json"⟩, ⟨"a.json"⟩, ⟨"d/../a.json"⟩] ∧
    (∀ p ∈ ([⟨"a.json"⟩, ⟨"./a.json"⟩, ⟨"d/../a.json"⟩] : List Path),
      p.file? loneFile = some ["a.json"]) ∧
    Text.split '\n'
        (Action.check.run {} loneFile [⟨"a.json"⟩, ⟨"./a.json"⟩, ⟨"d/../a.json"⟩]).stdout =
      ["ok     ./a.json (1 nodes)", "ok     a.json (1 nodes)", "ok     d/../a.json (1 nodes)", "",
        "checked 3 units: 3 ok, 0 failed", ""] := by
  exact ⟨by decide +kernel, by decide +kernel, by decide +kernel⟩

end TagTree
