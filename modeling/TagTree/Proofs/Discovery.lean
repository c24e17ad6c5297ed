import TagTree.Proofs.FileTrees
import TagTree.Proofs.SortedPaths

/-!
# What is found

The inputs of a run are the paths that its paths stand for: the tree files below a directory, or the
path itself.  They increase, no components are listed twice, and of paths with the same components
the spelling is that of the first given path that stands for them.  A search fails only where a
directory below a given one has a path of 4096 bytes or more, which cannot be opened.

* `Path.StandsFor`                 what a path stands for;
* `Path.Openable`                  all directories below a path can be opened;
* `Path.StandsFor.eq`              components tell apart what a path stands for;
* `inputs_of_openable`             a search of directories that can be opened succeeds;
* `inputs_of_not_openable`         the first other path is reported;
* `inputs_exact`                   which paths are found, in which order and spelling.
-/

namespace TagTree

/-! ## running through a list -/

theorem mapM_eq_ok_map {ε α β : Type} {f : α → Except ε β} {g : α → β} {xs : List α}
    (h : ∀ x ∈ xs, f x = .ok (g x)) : xs.mapM f = .ok (xs.map g) := by
  induction xs with
  | nil => rfl
  | cons x xs ih =>
    obtain ⟨hx, hxs⟩ := List.forall_mem_cons.1 h
    rw [List.mapM_cons, hx, ih hxs]
    rfl

theorem mapM_eq_error {ε α β : Type} {f : α → Except ε β} {as bs : List α} {x : α} {e : ε}
    (has : ∀ a ∈ as, ∃ b, f a = .ok b) (hx : f x = .error e) :
    (as ++ x :: bs).mapM f = .error e := by
  induction as with
  | nil =>
    rw [List.nil_append, List.mapM_cons, hx]
    rfl
  | cons a as ih =>
    obtain ⟨⟨b, hb⟩, has⟩ := List.forall_mem_cons.1 has
    rw [List.cons_append, List.mapM_cons, hb, ih has]
    rfl

theorem forall_or_first {α : Type} (P : α → Prop) (xs : List α) :
    (∀ x ∈ xs, P x) ∨ ∃ as x bs, xs = as ++ x :: bs ∧ (∀ a ∈ as, P a) ∧ ¬ P x := by
  induction xs with
  | nil => exact .inl (List.forall_mem_nil _)
  | cons x xs ih =>
    by_cases hx : P x
    · rcases ih with h | ⟨as, y, bs, rfl, has, hy⟩
      · exact .inl (List.forall_mem_cons.2 ⟨hx, h⟩)
      · exact .inr ⟨x :: as, y, bs, rfl, List.forall_mem_cons.2 ⟨hx, has⟩, hy⟩
    · exact .inr ⟨[], x, xs, rfl, List.forall_mem_nil _, hx⟩

/-! ## what a path stands for -/

namespace Path

/-- a path to a directory stands for the files below it whose names are a stem and `.json`, any
other path for itself -/
inductive StandsFor (files : FileSystem) (p : Path) : Path → Prop
  | itself : p.directory? files = none → StandsFor files p p
  | found {d : Directory} {names : List String} {stem : String} {content : List UInt8} :
    p.directory? files = some d →
    (Entry.directory d).at? (names ++ [stem ++ ".json"]) = some (.file content) → stem ≠ "" →
    StandsFor files p (p.below (names ++ [stem ++ ".json"]))

/-- every directory below a path, if the path leads to one, has a path that is not too long -/
def Openable (files : FileSystem) (p : Path) : Prop :=
  ∀ d names es, p.directory? files = some d →
    (Entry.directory d).at? names = some (.directory es) →
    (p.below names).spelling.utf8ByteSize < 4096

def found (files : FileSystem) (p : Path) : List Path :=
  match p.directory? files with
  | none => [p]
  | some d => Directory.treeFiles p d

section
variable {files : FileSystem} {p q r : Path}

theorem mem_found : q ∈ p.found files ↔ p.StandsFor files q := by
  unfold found
  cases hp : p.directory? files with
  | none =>
    show q ∈ [p] ↔ _
    rw [List.mem_singleton]
    constructor
    · rintro rfl
      exact .itself hp
    · intro h
      cases h with
      | itself _ => rfl
      | found hd _ _ =>
        rw [hp] at hd
        cases hd
  | some d =>
    have hd : (Entry.directory d).isProper = true := isProper_of_directory? hp
    -- a directory has no file at the empty path, so its name does not matter
    show q ∈ Directory.entryFiles p "" (.directory d) ↔ _
    rw [Directory.mem_entryFiles hd]
    constructor
    · rintro ⟨names, content, hat, ht, rfl⟩
      obtain ⟨stem, hne, hlast⟩ := isTreeFile_iff.1 ht
      rcases List.eq_nil_or_concat names with rfl | ⟨init, last, rfl⟩
      · cases hat
      · rw [List.concat_eq_append, List.getLastD_concat] at hlast
        rw [List.concat_eq_append, hlast] at hat ⊢
        exact .found hp hat hne
    · intro h
      cases h with
      | itself hn =>
        rw [hp] at hn
        cases hn
      | @found _ names stem content hd' hat hne =>
        rw [hp] at hd'
        cases hd'
        refine ⟨names ++ [stem ++ ".json"], content, hat, ?_, rfl⟩
        rw [List.getLastD_concat]
        exact isTreeFile_iff.2 ⟨stem, hne, rfl⟩

/-- components tell apart what a path stands for -/
theorem StandsFor.eq (hq : p.StandsFor files q)
    (hr : p.StandsFor files r) (h : q.components = r.components) : q = r := by
  cases hq with
  | itself hp =>
    cases hr with
    | itself _ => rfl
    | found hd _ _ =>
      rw [hp] at hd
      cases hd
  | found hd hat _ =>
    cases hr with
    | itself hp =>
      rw [hp] at hd
      cases hd
    | found hd' hat' _ =>
      rw [hd] at hd'
      cases hd'
      have hproper : (Entry.directory _).isProper = true := isProper_of_directory? hd
      obtain ⟨_, hr⟩ := directory?_eq_some.1 hd
      have hne := (follow_of_resolve hr).1
      rw [components_below hne (Entry.isName_of_at? hproper hat),
        components_below hne (Entry.isName_of_at? hproper hat')] at h
      have hnames := List.map_injective_iff.2 (fun _ _ => Component.name.inj)
        (List.append_cancel_left h)
      rw [hnames]

theorem StandsFor.directory?_eq_none (h : p.StandsFor files q) :
    q.directory? files = none := by
  cases h with
  | itself hp => exact hp
  | found hd hat _ => exact directory?_below hd hat

/-! ## searches -/

theorem openable_iff {d : Directory}
    (hp : p.directory? files = some d) : p.Openable files ↔ Directory.searchable p d = true := by
  have hd : (Entry.directory d).isProper = true := isProper_of_directory? hp
  obtain ⟨_, hr⟩ := directory?_eq_some.1 hp
  have hlong : p.isTooLong = false := (follow_of_resolve hr).2.1
  have hsearch : Directory.searchable p d = Directory.entrySearchable p (.directory d) := by
    rw [Directory.entrySearchable, hlong]
    rfl
  rw [hsearch, Directory.entrySearchable_iff hd]
  constructor
  · intro h names es hat
    have := h d names es hp hat
    simpa [isTooLong] using this
  · intro h d' names es hp' hat
    rw [hp] at hp'
    cases hp'
    simpa [isTooLong] using h names es hat

theorem expand_of_openable (h : p.Openable files) :
    p.expand files = .ok (p.found files) := by
  unfold expand found
  cases hp : p.directory? files with
  | none => rfl
  | some d => exact if_pos ((openable_iff hp).1 h)

theorem expand_of_not_openable (h : ¬ p.Openable files) :
    p.expand files = .error (Diagnostic.unreadable "walk" p .tooLong) := by
  unfold expand
  cases hp : p.directory? files with
  | none =>
    refine absurd (fun d names es hd => ?_) h
    rw [hp] at hd
    cases hd
  | some d => exact if_neg (mt (openable_iff hp).2 h)

end
end Path

section
variable {files : FileSystem} {paths : List Path}

theorem inputs_of_openable (h : ∀ p ∈ paths, p.Openable files) :
    inputs files paths = .ok (sortPaths (paths.flatMap (Path.found files))) := by
  have hall : paths.mapM (Path.expand files) = .ok (paths.map (Path.found files)) :=
    mapM_eq_ok_map fun p hp => Path.expand_of_openable (h p hp)
  rw [inputs, hall]
  rfl

theorem inputs_of_not_openable {before after : List Path} {p : Path}
    (hb : ∀ q ∈ before, q.Openable files) (hp : ¬ p.Openable files) :
    inputs files (before ++ p :: after) = .error (Diagnostic.unreadable "walk" p .tooLong) := by
  have hfirst : (before ++ p :: after).mapM (Path.expand files) =
      .error (Diagnostic.unreadable "walk" p .tooLong) :=
    mapM_eq_error (fun q hq => ⟨_, Path.expand_of_openable (hb q hq)⟩)
      (Path.expand_of_not_openable hp)
  rw [inputs, hfirst]
  rfl

/-- what is found is found by the first given path that stands for its components -/
theorem mem_sortPaths_found {q : Path} :
    q ∈ sortPaths (paths.flatMap (Path.found files)) ↔
      ∃ before p after, paths = before ++ p :: after ∧ p.StandsFor files q ∧
        ∀ p' ∈ before, ∀ r, p'.StandsFor files r → r.components ≠ q.components := by
  have distinct (p : Path) : ∀ r ∈ p.found files, ∀ s ∈ p.found files,
      r.components = s.components → r = s := fun r hr s hs =>
    (Path.mem_found.1 hr).eq (Path.mem_found.1 hs)
  have standsFor (p : Path) : Path.first? (p.found files) q.components = some q ↔
      p.StandsFor files q := by
    rw [Path.first?_eq_some_iff (distinct p), Path.mem_found]
    exact and_iff_left rfl
  have other (p : Path) : Path.first? (p.found files) q.components = none ↔
      ∀ r, p.StandsFor files r → r.components ≠ q.components := by
    rw [Path.first?, List.find?_eq_none]
    refine forall_congr' fun r => ?_
    rw [Path.mem_found, decide_eq_true_iff]
  have first : Path.first? (paths.flatMap (Path.found files)) q.components =
      paths.findSome? fun p => Path.first? (p.found files) q.components :=
    List.find?_flatMap
  rw [mem_sortPaths, first, List.findSome?_eq_some_iff]
  simp only [standsFor, other]

theorem mem_map_components_found {key : List Component} :
    key ∈ (sortPaths (paths.flatMap (Path.found files))).map Path.components ↔
      ∃ p ∈ paths, ∃ r, p.StandsFor files r ∧ r.components = key := by
  rw [List.mem_map]
  constructor
  · rintro ⟨q, hq, rfl⟩
    obtain ⟨before, p, after, rfl, hs, _⟩ := mem_sortPaths_found.1 hq
    exact ⟨p, List.mem_append_right _ List.mem_cons_self, q, hs, rfl⟩
  · rintro ⟨p, hp, r, hr, rfl⟩
    -- the first path that stands for these components decides the spelling
    have hr : r ∈ paths.flatMap (Path.found files) :=
      List.mem_flatMap.2 ⟨p, hp, Path.mem_found.2 hr⟩
    obtain ⟨q, hq⟩ : ∃ q, Path.first? (paths.flatMap (Path.found files)) r.components = some q :=
      Option.isSome_iff_exists.1 (List.find?_isSome.2 ⟨r, hr, decide_eq_true rfl⟩)
    have he := Path.components_of_first? hq
    refine ⟨q, mem_sortPaths.2 ?_, he⟩
    rwa [he]

theorem inputs_found :
    inputs files (sortPaths (paths.flatMap (Path.found files))) =
      .ok (sortPaths (paths.flatMap (Path.found files))) := by
  have itself : ∀ q ∈ sortPaths (paths.flatMap (Path.found files)), q.directory? files = none := by
    intro q hq
    obtain ⟨_, p, _, _, hs, _⟩ := mem_sortPaths_found.1 hq
    exact hs.directory?_eq_none
  have openable : ∀ q ∈ sortPaths (paths.flatMap (Path.found files)), q.Openable files := by
    intro q hq d names es hd
    rw [itself q hq] at hd
    cases hd
  have same : (sortPaths (paths.flatMap (Path.found files))).flatMap (Path.found files) =
      sortPaths (paths.flatMap (Path.found files)) := by
    have hfound : ∀ q ∈ sortPaths (paths.flatMap (Path.found files)), q.found files = [q] := by
      intro q hq
      rw [Path.found, itself q hq]
    rw [List.flatMap_congr hfound, List.flatMap_singleton']
  rw [inputs_of_openable openable, same, sortPaths_of_pairwise (pairwise_sortPaths _)]

end

/-- **Discovery finds what the given paths stand for, in order and once.**  It succeeds iff all
directories below the given paths can be opened, and otherwise reports the first given path of which
this is not so.  What it finds increases by components; these are the components of what the given
paths stand for, and the spelling is that of the first given path that stands for them.  So order and
number of the given paths do not matter for the components, and what is found is found again. -/
theorem inputs_exact (files : FileSystem) (paths : List Path) :
    ((∃ ps, inputs files paths = .ok ps) ↔ ∀ p ∈ paths, p.Openable files) ∧
    (∀ d, inputs files paths = .error d →
      ∃ before p after, paths = before ++ p :: after ∧ (∀ q ∈ before, q.Openable files) ∧
        ¬ p.Openable files ∧ d = Diagnostic.unreadable "walk" p .tooLong) ∧
    ∀ ps, inputs files paths = .ok ps →
      (ps.map Path.components).Pairwise (· < ·) ∧
      (∀ q : Path, (∃ r ∈ ps, r.components = q.components) ↔
        ∃ p ∈ paths, ∃ r, p.StandsFor files r ∧ r.components = q.components) ∧
      (∀ q : Path, q ∈ ps ↔
        ∃ before p after, paths = before ++ p :: after ∧ p.StandsFor files q ∧
          ∀ p' ∈ before, ∀ r, p'.StandsFor files r → r.components ≠ q.components) ∧
      (∀ paths', (∀ p, p ∈ paths' ↔ p ∈ paths) →
        ∃ ps', inputs files paths' = .ok ps' ∧ ps'.map Path.components = ps.map Path.components) ∧
      inputs files ps = .ok ps := by
  rcases forall_or_first (Path.Openable files) paths with hopen | ⟨before, p, after, rfl, hb, hp⟩
  · have hok := inputs_of_openable hopen
    refine ⟨⟨fun _ => hopen, fun _ => ⟨_, hok⟩⟩, fun d hd => ?_, fun ps hps => ?_⟩
    · rw [hok] at hd
      cases hd
    · rw [hok] at hps
      cases hps
      have increasing := Path.pairwise_components (pairwise_sortPaths (paths.flatMap (Path.found files)))
      refine ⟨increasing, fun q => ?_, fun q => mem_sortPaths_found, fun paths' hsame => ?_,
        inputs_found⟩
      · rw [← mem_map_components_found, List.mem_map]
      · have hopen' : ∀ p ∈ paths', p.Openable files := fun p hp => hopen p ((hsame p).1 hp)
        refine ⟨_, inputs_of_openable hopen', ?_⟩
        refine (Path.pairwise_components (pairwise_sortPaths _)).eq_of_mem_iff increasing fun key => ?_
        rw [mem_map_components_found, mem_map_components_found]
        exact exists_congr fun p => and_congr_left' (hsame p)
  · have herr : inputs files (before ++ p :: after) =
        .error (Diagnostic.unreadable "walk" p .tooLong) := inputs_of_not_openable hb hp
    refine ⟨⟨?_, fun hopen => ?_⟩, fun d hd => ?_, fun ps hps => ?_⟩
    · rintro ⟨ps, hps⟩
      rw [herr] at hps
      cases hps
    · exact absurd (hopen p (List.mem_append_right _ List.mem_cons_self)) hp
    · rw [herr] at hd
      cases hd
      exact ⟨before, p, after, rfl, hb, hp, rfl⟩
    · rw [herr] at hps
      cases hps

/-- a directory and a file that differ in what follows their common start, and a directory beside the
working directory -/
def alikeFiles : FileSystem where
  root :=
    [("home", .directory
        [("a", .directory [("b.json", .file []), (".json", .file [])]), ("a.json", .file [])]),
      ("srv", .directory [("c.json", .file []), ("c.JSON", .file [])])]
  working := ["home"]
  isProper := by decide +kernel
  isDirectory := by decide +kernel

/-- two paths to one file, one to nothing, and two to the other directory -/
def alikePaths : List Path :=
  [⟨"a.json"⟩, ⟨"a//b.json"⟩, ⟨"a"⟩, ⟨"none"⟩, ⟨"/srv/"⟩, ⟨"../srv"⟩]

def alikeInputs : List Path :=
  [⟨"/srv/c.json"⟩, ⟨"../srv/c.json"⟩, ⟨"a//b.json"⟩, ⟨"a.json"⟩, ⟨"none"⟩]

/-- the first spelling stays, and components are compared, not texts -/
theorem inputs_exact_alikeFiles :
    inputs alikeFiles alikePaths = .ok alikeInputs ∧
    (∀ p ∈ alikePaths, p.Openable alikeFiles) ∧
    (alikeInputs.map Path.components).Pairwise (· < ·) ∧
    inputs alikeFiles alikeInputs = .ok alikeInputs ∧
    ∃ ps, inputs alikeFiles alikePaths.reverse = .ok ps ∧
      ps.map Path.components = alikeInputs.map Path.components := by
  have hp : inputs alikeFiles alikePaths = .ok alikeInputs := by decide +kernel
  obtain ⟨succeeds, _, exact⟩ := inputs_exact alikeFiles alikePaths
  obtain ⟨increasing, _, _, reordered, again⟩ := exact alikeInputs hp
  exact ⟨hp, succeeds.1 ⟨_, hp⟩, increasing, again,
    reordered alikePaths.reverse fun p => List.mem_reverse⟩

/-! ## a path that becomes too long -/

/-- the working directory, said many times -/
def Path.dotted (n : Nat) : Path := ⟨String.ofList (List.replicate n ['.', '/']).flatten⟩

namespace Path

theorem parts_dotted (n : Nat) : (dotted n).parts = List.replicate n "." ++ [""] := by
  rw [parts, Text.split, dotted, String.toList_ofList]
  induction n with
  | zero => rfl
  | succ n ih =>
    rw [List.replicate_succ, List.flatten_cons]
    show (Text.pieces '/' (['.'] ++ '/' :: (List.replicate n ['.', '/']).flatten)).map _ = _
    rw [Text.pieces_append, List.map_append, ih]
    rfl

theorem utf8ByteSize_dotted (n : Nat) : (dotted n).spelling.utf8ByteSize = 2 * n := by
  unfold dotted
  induction n with
  | zero => rfl
  | succ n ih =>
    have hone : (String.ofList ['.', '/']).utf8ByteSize = 2 := by decide
    rw [List.replicate_succ, List.flatten_cons, String.ofList_append, String.utf8ByteSize_append,
      ih, hone]
    omega

theorem follow_dots (here : Directory) (above : List Directory) (n : Nat) :
    (Place.directory here above).follow (List.replicate n "." ++ [""]) =
      .ok (.directory here above) := by
  induction n with
  | zero => rfl
  | succ n ih => exact ih

/-- a dotted path leads to the working directory unless it is too long -/
theorem directory?_dotted (files : FileSystem) {n : Nat} (hpos : 0 < n) (hlong : 2 * n < 4096) :
    (dotted n).directory? files = some files.here := by
  have hchars : (dotted n).spelling.toList = '.' :: '/' :: (dotted (n - 1)).spelling.toList := by
    obtain ⟨m, rfl⟩ : ∃ m, n = m + 1 := ⟨n - 1, by omega⟩
    rw [dotted, dotted, String.toList_ofList, String.toList_ofList, List.replicate_succ,
      List.flatten_cons]
    rfl
  have hzero : (dotted n).spelling.toList.contains '\x00' = false := by
    rw [dotted, String.toList_ofList]
    simp [List.mem_flatten, List.mem_replicate]
  have hempty : (dotted n).spelling ≠ "" := by
    intro he
    rw [he] at hchars
    cases hchars
  have hopen : (dotted n).isTooLong = false := by
    rw [isTooLong, utf8ByteSize_dotted]
    exact decide_eq_false (by omega)
  have hrelative : (dotted n).isAbsolute = false := by
    rw [isAbsolute, hchars]
    rfl
  obtain ⟨q, hworking, hq⟩ := Place.exists_follow_of_at? [] files.isProper files.at?_working
  cases q with
  | file content => cases hq
  | directory here above =>
    cases hq
    refine directory?_eq_some.2 ⟨above, ?_⟩
    rw [resolve, hzero, hopen, if_neg hempty, way, hrelative, parts_dotted]
    show (Place.directory files.root []).follow (files.working ++ _) = _
    rw [Place.follow_append, hworking]
    exact follow_dots files.here above n

theorem utf8ByteSize_join_ge (p : Path) (name : String) :
    p.spelling.utf8ByteSize + name.utf8ByteSize ≤ (p.join name).spelling.utf8ByteSize := by
  unfold join
  split
  · rw [String.utf8ByteSize_append]
  · rw [String.utf8ByteSize_append, String.utf8ByteSize_append]
    omega

end Path

/-- a directory in a directory, all of them readable -/
def nestedFiles : FileSystem where
  root :=
    [("sub", .directory [("d", .directory [("x.json", .file [0x31])]), ("n.json", .file [0x32])]),
      ("top.json", .file [0x33])]
  working := []
  isProper := by decide +kernel
  isDirectory := by decide +kernel

/-- the inner directory cannot be opened by a path that is nearly too long -/
theorem inputs_nestedFiles_of_long {p : Path}
    (hd : p.directory? nestedFiles = some nestedFiles.here)
    (hlong : 4092 ≤ p.spelling.utf8ByteSize) :
    inputs nestedFiles [p] = .error (Diagnostic.unreadable "walk" p .tooLong) := by
  have hclosed : ¬ p.Openable nestedFiles := by
    intro hopen
    have hinner : ((p.join "sub").join "d").spelling.utf8ByteSize < 4096 :=
      hopen nestedFiles.here ["sub", "d"] _ hd rfl
    have hsub : p.spelling.utf8ByteSize + 3 ≤ (p.join "sub").spelling.utf8ByteSize :=
      p.utf8ByteSize_join_ge "sub"
    have hdeep : (p.join "sub").spelling.utf8ByteSize + 1 ≤
        ((p.join "sub").join "d").spelling.utf8ByteSize := (p.join "sub").utf8ByteSize_join_ge "d"
    omega
  exact inputs_of_not_openable (List.forall_mem_nil _) hclosed

/-- Discovery can fail although all directories are readable: they are searched from `.` on, but by
a long path to the same place the inner directory has too long a path to be opened. -/
theorem inputs_dotted_nestedFiles :
    inputs nestedFiles [⟨"."⟩] = .ok [⟨"./sub/d/x.json"⟩, ⟨"./sub/n.json"⟩, ⟨"./top.json"⟩] ∧
    (Path.dotted 2046).directory? nestedFiles = some nestedFiles.here ∧
    inputs nestedFiles [Path.dotted 2046] =
      .error (Diagnostic.unreadable "walk" (Path.dotted 2046) .tooLong) := by
  have hd : (Path.dotted 2046).directory? nestedFiles = some nestedFiles.here :=
    Path.directory?_dotted nestedFiles (by decide) (by decide)
  exact ⟨by decide +kernel, hd, inputs_nestedFiles_of_long hd (Path.utf8ByteSize_dotted 2046).ge⟩

end TagTree
