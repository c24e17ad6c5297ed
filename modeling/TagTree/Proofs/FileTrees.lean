import Mathlib.Data.List.Nodup
import TagTree.Files.Inputs

/-!
# Trees of files

In a proper tree the entries of a directory have distinct names, and names hold no slash and are no
dots.  A path leads to what stands at its location, the names that its components give from the root
or from the working directory on.  It is continued by names: its components are continued by them,
and it leads to what stands at these names below the directory of the path.

* `Path.components_below`    the components of a path continued by names;
* `mem_entryFiles`           a search lists the tree files that stand at some relative path;
* `entrySearchable_iff`      it succeeds iff no directory has too long a path;
* `Place.StandsAt.follow`    a way leads to where its components lead;
* `Path.at?_location`        so a path leads to what stands at its location;
* `Path.directory?_below`    a file below a directory is no directory by its path.
-/

namespace TagTree

/-! ## entries -/

namespace Entry

theorem sizeOf_lt_of_mem_entries {e x : Entry} {name : String} (h : (name, x) ∈ e.entries) :
    sizeOf x < sizeOf e := by
  cases e with
  | file content => cases h
  | directory es =>
    have hs := List.sizeOf_lt_of_mem (show (name, x) ∈ es from h)
    rw [Prod.mk.sizeOf_spec] at hs
    rw [Entry.directory.sizeOf_spec]
    omega

/-- what passes from the entries of a directory to the directory holds of all entries -/
theorem induct {P : Entry → Prop}
    (h : ∀ e, (∀ name x, (name, x) ∈ e.entries → P x) → P e) (e : Entry) : P e :=
  h e fun _ x _ => induct h x
termination_by sizeOf e
decreasing_by exact sizeOf_lt_of_mem_entries ‹_›

end Entry

namespace Directory

theorem isProper_iff {d : Directory} :
    d.isProper = true ↔
      (d.map Prod.fst).Nodup ∧ ∀ name e, (name, e) ∈ d → IsName name ∧ e.isProper = true := by
  induction d with
  | nil => exact ⟨fun _ => ⟨List.nodup_nil, fun _ _ h => absurd h List.not_mem_nil⟩, fun _ => rfl⟩
  | cons x d ih =>
    obtain ⟨n, y⟩ := x
    rw [isProper, Bool.and_eq_true, Bool.and_eq_true, Bool.and_eq_true, ih, decide_eq_true_iff,
      decide_eq_true_iff, List.map_cons, List.nodup_cons]
    constructor
    · rintro ⟨⟨⟨hn, hnew⟩, hy⟩, hd, hall⟩
      refine ⟨⟨hnew, hd⟩, fun name e h => ?_⟩
      rcases List.mem_cons.1 h with h | h
      · cases h
        exact ⟨hn, hy⟩
      · exact hall name e h
    · rintro ⟨⟨hnew, hd⟩, hall⟩
      have hx := hall n y List.mem_cons_self
      exact ⟨⟨⟨hx.1, hnew⟩, hx.2⟩, hd, fun name e h => hall name e (List.mem_cons_of_mem _ h)⟩

theorem find?_eq_some_iff {d : Directory} (h : d.isProper = true) {name : String} {e : Entry} :
    d.find? name = some e ↔ (name, e) ∈ d := by
  have distinct := (isProper_iff.1 h).1
  unfold find?
  clear h
  induction d with
  | nil => simp
  | cons x d ih =>
    obtain ⟨n, y⟩ := x
    rw [List.map_cons, List.nodup_cons] at distinct
    rw [List.lookup_cons, List.mem_cons, Prod.mk.injEq]
    by_cases hn : name = n
    · have hd : (n, e) ∉ d := fun hm => distinct.1 (List.mem_map.2 ⟨_, hm, rfl⟩)
      simp [hn, hd, eq_comm]
    · simp [beq_eq_false_iff_ne.2 hn, hn, ih distinct.2]

end Directory

namespace Entry

theorem at?_file {content : List UInt8} {names : List String} {e : Entry} :
    (Entry.file content).at? names = some e ↔ names = [] ∧ e = .file content := by
  cases names with
  | nil => simp [at?, eq_comm]
  | cons name names => simp [at?, entries, Directory.find?]

theorem isProper_entries {e : Entry} (h : e.isProper = true) : e.entries.isProper = true := by
  cases e with
  | file content => rfl
  | directory es => exact h

theorem at?_cons {e x : Entry} (h : e.isProper = true) {name : String} {names : List String} :
    e.at? (name :: names) = some x ↔ ∃ y, (name, y) ∈ e.entries ∧ y.at? names = some x := by
  rw [at?, Option.bind_eq_some_iff]
  exact exists_congr fun y => and_congr_left' (Directory.find?_eq_some_iff (isProper_entries h))

theorem isProper_of_mem {e x : Entry} (h : e.isProper = true) {name : String}
    (hx : (name, x) ∈ e.entries) : IsName name ∧ x.isProper = true :=
  (Directory.isProper_iff.1 (isProper_entries h)).2 name x hx

theorem at?_append (e : Entry) (as bs : List String) :
    e.at? (as ++ bs) = (e.at? as).bind (·.at? bs) := by
  induction as generalizing e with
  | nil => rfl
  | cons a as ih =>
    rw [List.cons_append, at?, at?, Option.bind_assoc]
    exact congrArg _ (funext ih)

theorem at?_concat {e x : Entry} {d : Directory} {names : List String} {name : String}
    (hd : e.at? names = some (.directory d)) (hx : d.find? name = some x) :
    e.at? (names ++ [name]) = some x := by
  rw [at?_append, hd]
  show (d.find? name).bind (·.at? []) = some x
  rw [hx]
  rfl

theorem isProper_of_at? {e x : Entry} (h : e.isProper = true) {names : List String}
    (hx : e.at? names = some x) : x.isProper = true := by
  induction names generalizing e with
  | nil =>
    cases hx
    exact h
  | cons name names ih =>
    obtain ⟨y, hy, hx⟩ := (at?_cons h).1 hx
    exact ih (isProper_of_mem h hy).2 hx

theorem isName_of_at? {e x : Entry} (h : e.isProper = true) {names : List String}
    (hx : e.at? names = some x) : ∀ name ∈ names, IsName name := by
  induction names generalizing e with
  | nil => exact List.forall_mem_nil _
  | cons name names ih =>
    obtain ⟨y, hy, hx⟩ := (at?_cons h).1 hx
    obtain ⟨hname, hy⟩ := isProper_of_mem h hy
    exact List.forall_mem_cons.2 ⟨hname, ih hy hx⟩

end Entry

/-! ## continued paths -/

namespace Path

/-- a path continued by names -/
def below (p : Path) (names : List String) : Path := names.foldl join p

theorem toList_join (p : Path) (name : String) :
    (p.join name).spelling.toList =
      p.spelling.toList ++ ((if p.endsInSlash then [] else ['/']) ++ name.toList) := by
  unfold join
  cases p.endsInSlash <;> simp

theorem spelling_join_ne {p : Path} (h : p.spelling ≠ "") (name : String) :
    (p.join name).spelling ≠ "" := by
  intro he
  have hl : (p.join name).spelling.toList = [] := by rw [he]; rfl
  rw [toList_join, List.append_eq_nil_iff] at hl
  exact h (String.toList_inj.1 hl.1)

theorem isAbsolute_join {p : Path} (h : p.spelling ≠ "") (name : String) :
    (p.join name).isAbsolute = p.isAbsolute := by
  have hl : p.spelling.toList ≠ [] := fun he => h (String.toList_inj.1 he)
  obtain ⟨c, cs, hc⟩ := List.exists_cons_of_ne_nil hl
  rw [isAbsolute, isAbsolute, toList_join, hc]
  rfl

/-- a name is put behind the parts of a path, in place of an empty last part -/
theorem exists_parts_join (p : Path) {name : String} (h : '/' ∉ name.toList) :
    ∃ init, init ≠ [] ∧ (p.parts = init ∨ p.parts = init ++ [""]) ∧
      (p.join name).parts = init ++ [name] := by
  have parts_cut (s t : List Char) :
      (Text.pieces '/' (s ++ '/' :: t)).map String.ofList =
        (Text.pieces '/' s).map String.ofList ++ (Text.pieces '/' t).map String.ofList := by
    rw [Text.pieces_append, List.map_append]
  have last : (Text.pieces '/' name.toList).map String.ofList = [name] := by
    rw [Text.pieces_eq_singleton h, List.map_singleton, String.ofList_toList]
  have ne (s : List Char) : (Text.pieces '/' s).map String.ofList ≠ [] := by
    rw [ne_eq, List.map_eq_nil_iff]
    exact Text.pieces_ne_nil '/' s
  cases he : p.endsInSlash with
  | false =>
    refine ⟨p.parts, ne _, .inl rfl, ?_⟩
    rw [parts, Text.split, toList_join, he]
    show (Text.pieces '/' (p.spelling.toList ++ '/' :: name.toList)).map String.ofList = _
    rw [parts_cut, last]
    rfl
  | true =>
    obtain ⟨s, hs⟩ : ∃ s, p.spelling.toList = s ++ ['/'] := by
      have hl : p.spelling.toList.getLast? = some '/' := by simpa [endsInSlash] using he
      exact List.getLast?_eq_some_iff.1 hl
    refine ⟨(Text.pieces '/' s).map String.ofList, ne s, .inr ?_, ?_⟩
    · rw [parts, Text.split, hs, parts_cut]
      rfl
    · rw [parts, Text.split, toList_join, he, hs, List.append_assoc]
      show (Text.pieces '/' (s ++ '/' :: name.toList)).map String.ofList = _
      rw [parts_cut, last]

theorem component?_name {name : String} (h : IsName name) : component? name = some (.name name) := by
  rw [component?, if_neg (by simp [h.1, h.2.1]), if_neg h.2.2.1]

theorem components_join {p : Path} (hp : p.spelling ≠ "") {name : String} (hn : IsName name) :
    (p.join name).components = p.components ++ [.name name] := by
  obtain ⟨init, hne, hparts, hjoin⟩ := exists_parts_join p hn.2.2.2
  have hinner : (p.join name).parts.filterMap component? =
      p.parts.filterMap component? ++ [.name name] := by
    have hempty : component? "" = none := by decide
    rcases hparts with h | h <;> simp [h, hjoin, component?_name hn, hempty]
  have hhead : (p.join name).parts.head? = p.parts.head? := by
    obtain ⟨x, xs, rfl⟩ := List.exists_cons_of_ne_nil hne
    rcases hparts with h | h <;> rw [h, hjoin] <;> rfl
  rw [components, components, hinner, hhead, isAbsolute_join hp]
  cases p.isAbsolute with
  | true => rfl
  | false =>
    cases p.parts.head? == some "." <;> rfl

theorem isAbsolute_below {p : Path} (h : p.spelling ≠ "") (names : List String) :
    (p.below names).isAbsolute = p.isAbsolute := by
  induction names generalizing p with
  | nil => rfl
  | cons name names ih => exact (ih (spelling_join_ne h name)).trans (isAbsolute_join h name)

/-- names continue the components of a path -/
theorem components_below {p : Path} (hp : p.spelling ≠ "") {names : List String}
    (hn : ∀ name ∈ names, IsName name) :
    (p.below names).components = p.components ++ names.map .name := by
  induction names generalizing p with
  | nil => exact (List.append_nil _).symm
  | cons name names ih =>
    obtain ⟨hname, hnames⟩ := List.forall_mem_cons.1 hn
    show ((p.join name).below names).components = _
    rw [ih (spelling_join_ne hp name) hnames, components_join hp hname, List.append_assoc]
    rfl

end Path

/-! ## searches -/

theorem isTreeFile_iff {name : String} :
    isTreeFile name = true ↔ ∃ stem, stem ≠ "" ∧ name = stem ++ ".json" := by
  have hjson : (".json" : String).toList.length = 5 := by decide
  rw [isTreeFile, Bool.and_eq_true, List.isSuffixOf_iff_suffix, decide_eq_true_iff]
  constructor
  · rintro ⟨⟨cs, hcs⟩, hlen⟩
    refine ⟨String.ofList cs, ?_, ?_⟩
    · rintro he
      have hnil : cs = [] := by rw [← String.toList_ofList (l := cs), he]; rfl
      rw [← hcs, hnil] at hlen
      exact absurd hlen (by decide)
    · apply String.toList_inj.1
      rw [String.toList_append, String.toList_ofList, hcs]
  · rintro ⟨stem, hne, rfl⟩
    rw [String.toList_append]
    refine ⟨List.suffix_append _ _, ?_⟩
    have hpos : 0 < stem.toList.length :=
      List.length_pos_iff.2 fun he => hne (String.toList_inj.1 he)
    rw [List.length_append, hjson]
    omega

namespace Directory

theorem mem_treeFiles {path q : Path} {d : Directory} :
    q ∈ treeFiles path d ↔ ∃ name e, (name, e) ∈ d ∧ q ∈ entryFiles (path.join name) name e := by
  induction d with
  | nil => simp [treeFiles]
  | cons x d ih =>
    obtain ⟨n, y⟩ := x
    rw [treeFiles, List.mem_append, ih]
    constructor
    · rintro (h | ⟨name, e, he, h⟩)
      · exact ⟨n, y, List.mem_cons_self, h⟩
      · exact ⟨name, e, List.mem_cons_of_mem _ he, h⟩
    · rintro ⟨name, e, he, h⟩
      rcases List.mem_cons.1 he with he | he
      · cases he
        exact .inl h
      · exact .inr ⟨name, e, he, h⟩

/-- a search lists the tree files that stand at some relative path -/
theorem mem_entryFiles {path q : Path} {name : String} {e : Entry} (h : e.isProper = true) :
    q ∈ entryFiles path name e ↔
      ∃ names content, e.at? names = some (.file content) ∧
        isTreeFile (names.getLastD name) = true ∧ q = path.below names := by
  induction e using Entry.induct generalizing path name with
  | h e ih =>
    cases e with
    | file content =>
      rw [entryFiles]
      constructor
      · intro hq
        obtain ⟨ht, hq⟩ := List.mem_ite_nil_right.1 hq
        exact ⟨[], content, rfl, ht, List.mem_singleton.1 hq⟩
      · rintro ⟨names, c, hat, ht, rfl⟩
        obtain ⟨rfl, _⟩ := Entry.at?_file.1 hat
        have ht : isTreeFile name = true := ht
        rw [if_pos ht]
        exact List.mem_singleton_self _
    | directory es =>
      rw [entryFiles, mem_treeFiles]
      constructor
      · rintro ⟨n, x, hx, hq⟩
        have hproper := (Entry.isProper_of_mem h hx).2
        obtain ⟨names, c, hat, ht, rfl⟩ := (ih n x hx hproper).1 hq
        exact ⟨n :: names, c, (Entry.at?_cons h).2 ⟨x, hx, hat⟩, by rwa [List.getLastD_cons], rfl⟩
      · rintro ⟨names, c, hat, ht, rfl⟩
        cases names with
        | nil => cases hat
        | cons n names =>
          obtain ⟨x, hx, hat⟩ := (Entry.at?_cons h).1 hat
          have hproper := (Entry.isProper_of_mem h hx).2
          rw [List.getLastD_cons] at ht
          exact ⟨n, x, hx, (ih n x hx hproper).2 ⟨names, c, hat, ht, rfl⟩⟩

theorem searchable_iff {path : Path} {d : Directory} :
    searchable path d = true ↔
      ∀ name e, (name, e) ∈ d → entrySearchable (path.join name) e = true := by
  induction d with
  | nil => simp [searchable]
  | cons x d ih =>
    obtain ⟨n, y⟩ := x
    rw [searchable, Bool.and_eq_true, ih]
    constructor
    · rintro ⟨hy, hd⟩ name e he
      rcases List.mem_cons.1 he with he | he
      · cases he
        exact hy
      · exact hd name e he
    · intro hall
      exact ⟨hall n y List.mem_cons_self, fun name e he => hall name e (List.mem_cons_of_mem _ he)⟩

theorem entrySearchable_iff {path : Path} {e : Entry} (h : e.isProper = true) :
    entrySearchable path e = true ↔
      ∀ names es, e.at? names = some (.directory es) → (path.below names).isTooLong = false := by
  induction e using Entry.induct generalizing path with
  | h e ih =>
    cases e with
    | file content =>
      refine ⟨fun _ names es hat => ?_, fun _ => rfl⟩
      cases (Entry.at?_file.1 hat).2
    | directory es =>
      rw [entrySearchable, Bool.and_eq_true, searchable_iff, Bool.not_eq_true']
      constructor
      · rintro ⟨hlong, hall⟩ names es' hat
        cases names with
        | nil => exact hlong
        | cons n names =>
          obtain ⟨x, hx, hat⟩ := (Entry.at?_cons h).1 hat
          exact (ih n x hx (Entry.isProper_of_mem h hx).2).1 (hall n x hx) names es' hat
      · intro hall
        refine ⟨hall [] es rfl, fun n x hx => ?_⟩
        refine (ih n x hx (Entry.isProper_of_mem h hx).2).2 fun names es' hat => ?_
        exact hall (n :: names) es' ((Entry.at?_cons h).2 ⟨x, hx, hat⟩)

end Directory

/-! ## places -/

namespace Place

theorem follow_append (q : Place) (as bs : List String) :
    q.follow (as ++ bs) = q.follow as >>= fun r => r.follow bs := by
  induction as generalizing q with
  | nil => rfl
  | cons a as ih =>
    show (q.step a >>= fun r => r.follow (as ++ bs)) = _
    cases hs : q.step a with
    | error e => simp [follow, hs, bind, Except.bind]
    | ok r =>
      show r.follow (as ++ bs) = _
      rw [ih, follow, hs]
      rfl

theorem follow_singleton (q : Place) (part : String) : q.follow [part] = q.step part := by
  cases hs : q.step part with
  | error e => simp [follow, hs, bind, Except.bind]
  | ok r => simp [follow, hs, bind, Except.bind]

def ofEntry (here : Directory) (above : List Directory) : Entry → Place
  | .file content => .file content
  | .directory es => .directory es (here :: above)

theorem step_name {here : Directory} {above : List Directory} {name : String} {x : Entry}
    (hn : IsName name) (hx : here.find? name = some x) :
    (Place.directory here above).step name = .ok (ofEntry here above x) := by
  rw [step, if_neg (by simp [hn.1, hn.2.1]), if_neg hn.2.2.1, hx]
  cases x <;> rfl

/-- the entry that is reached -/
def entry : Place → Entry
  | .file content => .file content
  | .directory here _ => .directory here

/-- a place stands at names below the root: it is reached from the root by these -/
inductive StandsAt (root : Directory) : List String → Place → Prop
  | root : StandsAt root [] (.directory root [])
  | entry {names : List String} {here : Directory} {above : List Directory} {name : String}
    {x : Entry} :
    StandsAt root names (.directory here above) → here.find? name = some x →
    StandsAt root (names ++ [name]) (ofEntry here above x)

namespace StandsAt
variable {root : Directory} {names : List String} {q r : Place}

theorem at? (h : StandsAt root names q) : (Entry.directory root).at? names = some q.entry := by
  induction h with
  | root => rfl
  | @entry names here above name x _ hx ih =>
    rw [Entry.at?_concat ih hx]
    cases x <;> rfl

theorem up {here : Directory} {above : List Directory}
    (h : StandsAt root names (.directory here above)) :
    StandsAt root names.dropLast (Place.up here above) := by
  generalize hq : Place.directory here above = q at h
  cases h with
  | root =>
    cases hq
    exact .root
  | @entry names _ _ name x hd _ =>
    rw [List.dropLast_concat]
    cases x with
    | file content => cases hq
    | directory es =>
      cases hq
      exact hd

/-- a step leads to where its component leads -/
theorem step (h : StandsAt root names q) {part : String} (hr : q.step part = .ok r) :
    StandsAt root ((Path.component? part).elim names (Component.advance names)) r := by
  cases q with
  | file content => cases hr
  | directory here above =>
    rw [Place.step] at hr
    unfold Path.component?
    split at hr
    · next hkeep =>
      cases hr
      rw [if_pos hkeep]
      exact h
    · next hkeep =>
      rw [if_neg hkeep]
      split at hr
      · next hparent =>
        cases hr
        rw [if_pos hparent]
        exact h.up
      · next hparent =>
        rw [if_neg hparent]
        split at hr
        · cases hr
        · next content hx =>
          cases hr
          exact .entry h hx
        · next es hx =>
          cases hr
          exact .entry h hx

/-- a way leads to where its components lead -/
theorem follow (h : StandsAt root names q) {parts : List String} (hr : q.follow parts = .ok r) :
    StandsAt root ((parts.filterMap Path.component?).foldl Component.advance names) r := by
  induction parts generalizing q names with
  | nil =>
    cases hr
    exact h
  | cons part parts ih =>
    rw [Place.follow] at hr
    cases hs : q.step part with
    | error e =>
      rw [hs] at hr
      cases hr
    | ok q' =>
      rw [hs] at hr
      have hnext := ih (h.step hs) hr
      rw [List.filterMap_cons]
      cases hc : Path.component? part with
      | none =>
        rw [hc] at hnext
        exact hnext
      | some c =>
        rw [hc] at hnext
        exact hnext

end StandsAt

theorem exists_follow_of_at? {here : Directory} (above : List Directory) {names : List String}
    (hd : here.isProper = true) {x : Entry} (hat : (Entry.directory here).at? names = some x) :
    ∃ q : Place, (Place.directory here above).follow names = .ok q ∧ q.entry = x := by
  induction names generalizing here above with
  | nil =>
    cases hat
    exact ⟨_, rfl, rfl⟩
  | cons name names ih =>
    have hproper : (Entry.directory here).isProper = true := hd
    have hname : IsName name := Entry.isName_of_at? hproper hat name List.mem_cons_self
    obtain ⟨y, hy, hat⟩ := Option.bind_eq_some_iff.1 hat
    have hy : here.find? name = some y := hy
    rw [follow, step_name hname hy]
    cases y with
    | file content =>
      obtain ⟨rfl, rfl⟩ := Entry.at?_file.1 hat
      exact ⟨_, rfl, rfl⟩
    | directory es =>
      have hmem := (Directory.find?_eq_some_iff hd).1 hy
      exact ih (here :: above) (Entry.isProper_of_mem hproper hmem).2 hat

end Place

namespace FileSystem
variable (files : FileSystem)

theorem at?_working :
    (Entry.directory files.root).at? files.working = some (.directory files.here) := by
  have h := files.isDirectory
  unfold here
  cases hx : (Entry.directory files.root).at? files.working with
  | none =>
    rw [hx] at h
    cases h
  | some x =>
    rw [hx] at h
    cases x with
    | file content => cases h
    | directory es => rfl

theorem isName_working : ∀ name ∈ files.working, IsName name :=
  Entry.isName_of_at? (e := .directory files.root) files.isProper files.at?_working

end FileSystem

namespace Path
variable {files : FileSystem} {p : Path}

/-- the names that lead from the root to the place of a path -/
def location (files : FileSystem) (p : Path) : List String :=
  p.components.foldl Component.advance (if p.isAbsolute then [] else files.working)

/-- a leading dot changes nothing, nor do empty parts and inner dots -/
theorem location_eq (files : FileSystem) (p : Path) :
    p.location files = ((p.way files).filterMap component?).foldl Component.advance [] := by
  have names {names : List String} (h : ∀ name ∈ names, IsName name) (init : List String) :
      (names.filterMap component?).foldl Component.advance init = init ++ names := by
    induction names generalizing init with
    | nil => exact (List.append_nil _).symm
    | cons name names ih =>
      obtain ⟨hname, hnames⟩ := List.forall_mem_cons.1 h
      rw [List.filterMap_cons, component?_name hname]
      show (names.filterMap component?).foldl Component.advance (init ++ [name]) = _
      rw [ih hnames, List.append_assoc, List.singleton_append]
  unfold location components way
  dsimp only
  cases p.isAbsolute with
  | true => rfl
  | false =>
    show _ = ((files.working ++ p.parts).filterMap component?).foldl Component.advance []
    rw [List.filterMap_append, List.foldl_append, names files.isName_working, List.nil_append]
    cases p.parts.head? == some "." <;> rfl

theorem follow_of_resolve {q : Place} (h : p.resolve files = .ok q) :
    p.spelling ≠ "" ∧ p.isTooLong = false ∧
      (Place.directory files.root []).follow (p.way files) = .ok q := by
  unfold resolve at h
  split at h
  · cases h
  · split at h
    · cases h
    · next hne =>
      split at h
      · cases h
      · next hlong => exact ⟨hne, by simpa using hlong, h⟩

/-- a path leads to what stands at its location -/
theorem at?_location {q : Place} (h : p.resolve files = .ok q) :
    (Entry.directory files.root).at? (p.location files) = some q.entry := by
  rw [location_eq]
  exact (Place.StandsAt.root.follow (follow_of_resolve h).2.2).at?

theorem directory?_eq_some {d : Directory} :
    p.directory? files = some d ↔ ∃ above, p.resolve files = .ok (.directory d above) := by
  unfold directory?
  cases p.resolve files with
  | error e => simp
  | ok q => cases q <;> simp

theorem isProper_of_directory? {d : Directory} (h : p.directory? files = some d) :
    d.isProper = true := by
  obtain ⟨above, hr⟩ := directory?_eq_some.1 h
  have hroot : (Entry.directory files.root).isProper = true := files.isProper
  exact Entry.isProper_of_at? (x := .directory d) hroot (at?_location hr)

theorem exists_way_join (files : FileSystem) (hp : p.spelling ≠ "") {name : String}
    (h : '/' ∉ name.toList) :
    ∃ init, (p.way files = init ∨ p.way files = init ++ [""]) ∧
      (p.join name).way files = init ++ [name] := by
  obtain ⟨init, _, hparts, hjoin⟩ := exists_parts_join p h
  unfold way
  rw [isAbsolute_join hp, hjoin]
  cases p.isAbsolute with
  | true => exact ⟨init, hparts, rfl⟩
  | false =>
    refine ⟨files.working ++ init, ?_, (List.append_assoc _ _ _).symm⟩
    rcases hparts with he | he
    · exact .inl (congrArg (files.working ++ ·) he)
    · exact .inr ((congrArg (files.working ++ ·) he).trans (List.append_assoc _ _ _).symm)

theorem follow_join {base : Place} {here : Directory} {above : List Directory} {name : String}
    (hp : p.spelling ≠ "") (h : base.follow (p.way files) = .ok (.directory here above))
    (hn : '/' ∉ name.toList) :
    base.follow ((p.join name).way files) = (Place.directory here above).step name := by
  obtain ⟨init, hway, hjoin⟩ := exists_way_join files hp hn
  have hinit : base.follow init = .ok (.directory here above) := by
    rcases hway with hw | hw
    · rwa [hw] at h
    · rw [hw, Place.follow_append] at h
      cases hi : base.follow init with
      | error e =>
        rw [hi] at h
        cases h
      | ok q =>
        rw [hi] at h
        cases q with
        | file content => cases h
        | directory d ds => exact h
  rw [hjoin, Place.follow_append, hinit]
  exact Place.follow_singleton _ name

/-- a path continued by names leads to what stands there -/
theorem follow_below {base : Place} {here : Directory} {above : List Directory}
    {names : List String} {content : List UInt8} (hp : p.spelling ≠ "")
    (h : base.follow (p.way files) = .ok (.directory here above)) (hd : here.isProper = true)
    (hat : (Entry.directory here).at? names = some (.file content)) :
    base.follow ((p.below names).way files) = .ok (.file content) := by
  induction names generalizing p here above with
  | nil => cases hat
  | cons name names ih =>
    have hproper : (Entry.directory here).isProper = true := hd
    have hname : IsName name := Entry.isName_of_at? hproper hat name List.mem_cons_self
    obtain ⟨x, hx, hat⟩ := Option.bind_eq_some_iff.1 hat
    have hstep : base.follow ((p.join name).way files) = .ok (Place.ofEntry here above x) := by
      rw [follow_join hp h hname.2.2.2]
      exact Place.step_name hname hx
    cases x with
    | file c =>
      obtain ⟨rfl, hc⟩ := Entry.at?_file.1 hat
      cases hc
      exact hstep
    | directory es =>
      have hmem := (Directory.find?_eq_some_iff hd).1 hx
      exact ih (spelling_join_ne hp name) hstep (Entry.isProper_of_mem hproper hmem).2 hat

/-- a file below a directory is no directory by its path -/
theorem directory?_below {d : Directory} (hp : p.directory? files = some d) {names : List String}
    {content : List UInt8} (hat : (Entry.directory d).at? names = some (.file content)) :
    (p.below names).directory? files = none := by
  obtain ⟨above, hr⟩ := directory?_eq_some.1 hp
  obtain ⟨hne, _, hfollow⟩ := follow_of_resolve hr
  have hfile := follow_below hne hfollow (isProper_of_directory? hp) hat
  rw [Option.eq_none_iff_forall_ne_some]
  intro d' hd'
  obtain ⟨above', hr'⟩ := directory?_eq_some.1 hd'
  have hdir := (follow_of_resolve hr').2.2
  rw [hfile] at hdir
  cases hdir

end Path
end TagTree
