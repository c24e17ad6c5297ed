import TagTree.Proofs.Runs
import TagTree.Proofs.SExprText

/-!
# Lines of a printed tree

A node is printed in one line as long as its names are: names, operators, keys, labels and the two
parts of a regular expression are printed as they are, and nothing else can bring a line break into
the form.

* `Construct.bareTexts`            the texts of a construct that are printed as they are;
* `Construct.break_mem_sexpr`      a layer's form breaks where such a text or a child's form does;
* `Node.break_mem_sexpr`           so a node's form breaks where a text somewhere in it does;
* `Outcome.length_split_output`    every line break of the form is a line more of the output;
* `Outcome.print_sexpr_lines`      the two together.
-/

namespace TagTree

/-! ## line breaks in the pieces of a form -/

/-- the characters that end a line -/
def lineBreaks : List Char := ['\n', '\r']

theorem mem_intercalate {α : Type} {x : α} {sep : List α} (h : x ∉ sep) (xss : List (List α)) :
    x ∈ sep.intercalate xss ↔ ∃ xs ∈ xss, x ∈ xs := by
  induction xss with
  | nil => simp
  | cons xs xss ih =>
    cases xss with
    | nil => simp
    | cons ys yss =>
      rw [List.intercalate_cons_cons, List.mem_append, List.mem_append, ih]
      simp [h]

section
variable {b : Char}

theorem break_ne (hb : b ∈ lineBreaks) {c : Char} (hc : 0x20 ≤ c.toNat) : b ≠ c := by
  have hlt : b.toNat < 0x20 := by
    rcases List.mem_pair.1 hb with rfl | rfl <;> decide
  rintro rfl
  omega

theorem break_mem_bracketed (hb : b ∈ lineBreaks) (words : List String) :
    b ∈ ("(" ++ String.intercalate " " words ++ ")").toList ↔ ∃ s ∈ words, b ∈ s.toList := by
  have hblank : b ∉ " ".toList := by simp [break_ne hb]
  have hwords : b ∈ (String.intercalate " " words).toList ↔ ∃ s ∈ words, b ∈ s.toList := by
    rw [String.toList_intercalate, mem_intercalate hblank]
    simp
  rw [String.toList_append, String.toList_append, List.mem_append, List.mem_append, hwords]
  simp [break_ne hb]

theorem break_mem_sexprList (hb : b ∈ lineBreaks) (head : String) (parts : List String) :
    b ∈ (sexprList head parts).toList ↔ b ∈ head.toList ∨ ∃ s ∈ parts, b ∈ s.toList := by
  rw [sexprList, break_mem_bracketed hb]
  simp

theorem break_mem_headed (hb : b ∈ lineBreaks) {head : String}
    (hh : head.toList.all (0x20 ≤ ·.toNat) = true) (parts : List String) :
    b ∈ (sexprList head parts).toList ↔ ∃ s ∈ parts, b ∈ s.toList := by
  rw [break_mem_sexprList hb]
  refine or_iff_right fun hmem => break_ne hb ?_ rfl
  exact of_decide_eq_true (List.all_eq_true.1 hh b hmem)

/-! ### numbers and quoted texts -/

theorem break_notMem_full (hb : b ∈ lineBreaks) (x : Binary64) :
    b ∉ (Decimal.full.text x).toList := by
  have hfinite : b ∉ Decimal.full.finite x.magnitude := by
    intro hmem
    have hnumeral := Decimal.mem_positional hmem
    rcases List.mem_pair.1 hb with rfl | rfl <;> exact absurd hnumeral (by decide)
  unfold Decimal.Layout.text
  split
  · simp [break_ne hb]
  · cases x.negative <;> cases x.isFinite <;> simp [hfinite, break_ne hb]

theorem break_notMem_quoteChar (hb : b ∈ lineBreaks) (c : Char) : b ∉ Text.quoteChar c := by
  unfold Text.quoteChar
  split
  -- what has no letter of its own is written by its code, or is not a line break
  case h_7 hnewline hreturn hquote hbackslash =>
    split
    · have hdigits : b ∉ Nat.toDigits 16 c.toNat := by
        intro hmem
        have := (Text.toDigits_hex c.toNat).2 b hmem
        simp [lineBreaks, this] at hb
      simp [hdigits, break_ne hb]
    · rw [List.mem_singleton]
      rintro rfl
      rcases List.mem_pair.1 hb with h | h
      · exact hnewline h
      · exact hreturn h
  all_goals simp [break_ne hb]

theorem break_notMem_quoted (hb : b ∈ lineBreaks) (s : String) : b ∉ (Text.quoted s).toList := by
  simp [Text.quoted, break_ne hb, break_notMem_quoteChar hb]

/-! ### parts of constructs -/

theorem Literal.break_notMem_sexpr (hb : b ∈ lineBreaks) (value : Literal) :
    b ∉ value.sexpr.toList := by
  cases value with
  | number x => exact break_notMem_full hb x
  | string s => exact break_notMem_quoted hb s

theorem Binding.break_mem_sexpr (hb : b ∈ lineBreaks) (x : Binding String) :
    b ∈ x.sexpr.toList ↔ b ∈ x.name.toList ∨ ∃ s ∈ x.init, b ∈ s.toList := by
  rw [Binding.sexpr, break_mem_sexprList hb]
  simp

theorem Property.break_mem_sexpr (hb : b ∈ lineBreaks) (p : Property String) :
    b ∈ p.sexpr.toList ↔ b ∈ p.key.toList ∨ b ∈ p.value.toList := by
  obtain ⟨key, value, accessor⟩ := p
  cases accessor with
  | none => simp [Property.sexpr, break_mem_sexprList hb]
  | some a => cases a <;> simp [Property.sexpr, break_mem_sexprList hb, Accessor.name, break_ne hb]

theorem Case.break_mem_sexpr (hb : b ∈ lineBreaks) (c : Case String) :
    b ∈ c.sexpr.toList ↔ ∃ s, (c.test = some s ∨ s ∈ c.body) ∧ b ∈ s.toList := by
  obtain ⟨test, body⟩ := c
  cases test with
  | none => simp [Case.sexpr, break_mem_sexprList hb, break_ne hb]
  | some x => simp [Case.sexpr, break_mem_sexprList hb, break_ne hb]

theorem Handler.break_mem_sexpr (hb : b ∈ lineBreaks) (h : Handler String) :
    b ∈ h.sexpr.toList ↔ b ∈ h.param.toList ∨ ∃ s ∈ h.body, b ∈ s.toList := by
  simp [Handler.sexpr, break_mem_sexprList hb, break_ne hb]

theorem break_mem_getD (hb : b ∈ lineBreaks) (x : Option String) :
    b ∈ (x.getD "_").toList ↔ ∃ s, x = some s ∧ b ∈ s.toList := by
  cases x <;> simp [break_ne hb]

end

/-! ## texts that are printed as they are -/

/-- the texts of a construct that are printed as they are -/
def Construct.bareTexts {α : Type} : Construct α → List String
  | .function _ name params _ => name.toList ++ params
  | .vars bindings => bindings.map (·.name)
  | .identifier name => [name]
  | .binary op _ _ | .assignment op _ _ | .unaryPrefix op _ | .unaryPostfix op _ => [op]
  | .regex pattern flags => [pattern, flags]
  | .object properties => properties.map (·.key)
  | .member _ name => [name]
  | .tryCatch _ h _ => h.toList.map (·.param)
  | .breaks label | .continues label => label.toList
  | .labeled label _ => [label]
  | _ => []

/-- a layer's form breaks where such a text or a child's form does -/
theorem Construct.break_mem_sexpr {b : Char} (hb : b ∈ lineBreaks) (c : Construct String) :
    b ∈ c.sexpr.toList ↔ ∃ s ∈ c.bareTexts ++ c.children, b ∈ s.toList := by
  have list := break_mem_sexprList hb
  have headed {head : String} := @break_mem_headed b hb head
  cases c with
  | function form name params body =>
    rw [sexpr, headed rfl]
    simp only [bareTexts, children, List.mem_cons, or_and_right, exists_or, exists_eq_left,
      break_mem_getD hb, break_mem_bracketed hb, List.mem_append, Option.mem_toList, or_assoc]
  | vars bindings =>
    rw [sexpr, headed rfl]
    simp only [bareTexts, children, List.mem_map, exists_exists_and_eq_and,
      Binding.break_mem_sexpr hb, List.mem_append, List.mem_flatMap, Option.mem_toList,
      Option.mem_def]
    grind
  | literal value => simp [sexpr, bareTexts, children, Literal.break_notMem_sexpr hb]
  | object properties =>
    rw [sexpr, headed rfl]
    simp only [bareTexts, children, List.mem_map, exists_exists_and_eq_and,
      Property.break_mem_sexpr hb, List.mem_append]
    grind
  | member o name => simp [sexpr, bareTexts, children, list, break_ne hb, or_comm]
  | tryCatch body h fin =>
    have hbody : b ∈ (sexprList "block" body).toList ↔ ∃ s ∈ body, b ∈ s.toList := headed rfl body
    have hfin (l : List String) : b ∈ (sexprList "finally" l).toList ↔ ∃ s ∈ l, b ∈ s.toList :=
      headed rfl l
    rw [sexpr, headed rfl]
    cases h with
    | none => cases fin <;> simp [bareTexts, children, hbody, hfin, or_and_right, exists_or]
    | some h =>
      cases fin <;>
        simp [bareTexts, children, hbody, hfin, Handler.break_mem_sexpr hb, or_and_right, exists_or,
          or_left_comm, or_assoc]
  | switch d cases =>
    rw [sexpr, headed rfl]
    simp only [bareTexts, children, List.mem_cons, List.mem_map, exists_eq_or_imp,
      exists_exists_and_eq_and, Case.break_mem_sexpr hb, List.nil_append, List.mem_flatMap,
      List.mem_append, Option.mem_toList]
    grind
  | forLoop i c u b =>
    rw [sexpr, headed rfl]
    simp only [bareTexts, children, List.mem_cons, exists_eq_or_imp, break_mem_getD hb,
      List.nil_append, List.mem_append, Option.mem_toList]
    grind
  | _ => simp [sexpr, bareTexts, children, list, break_ne hb]

/-- a text somewhere in the node that is printed as it is -/
def Node.Bare (n : Node) (s : String) : Prop :=
  ∃ c, .node (.mk c) ∈ (Item.node n).preorder ∧ s ∈ c.bareTexts

theorem Node.bare_mk (c : Construct Node) (s : String) :
    (Node.mk c).Bare s ↔ s ∈ c.bareTexts ∨ ∃ m ∈ c.children, m.Bare s := by
  simp only [Node.Bare, Item.node_mem_preorder_mk]
  constructor
  · rintro ⟨d, hd | ⟨m, hm, hd⟩, hs⟩
    · cases hd
      exact .inl hs
    · exact .inr ⟨m, hm, d, hd, hs⟩
  · rintro (hs | ⟨m, hm, d, hd, hs⟩)
    · exact ⟨c, .inl rfl, hs⟩
    · exact ⟨d, .inr ⟨m, hm, hd⟩, hs⟩

theorem Construct.bareTexts_map {α β : Type} (f : α → β) (c : Construct α) :
    (c.map f).bareTexts = c.bareTexts := by
  cases c with
  | vars bindings => exact List.map_map
  | object properties => exact List.map_map
  | tryCatch body h fin => cases h <;> rfl
  | _ => rfl

theorem Node.break_mem_sexpr {b : Char} (hb : b ∈ lineBreaks) (n : Node) :
    b ∈ n.sexpr.toList ↔ ∃ s, n.Bare s ∧ b ∈ s.toList := by
  induction n using induct with
  | h c ih =>
    rw [Node.sexpr_mk, Construct.break_mem_sexpr hb, Construct.bareTexts_map, Construct.children_map]
    simp only [Node.bare_mk, List.mem_append, or_and_right, exists_or]
    refine or_congr_right ?_
    constructor
    · rintro ⟨s, hs, hmem⟩
      obtain ⟨m, hm, rfl⟩ := List.mem_map.1 hs
      obtain ⟨t, ht, hbt⟩ := (ih m hm).1 hmem
      exact ⟨t, ⟨m, hm, ht⟩, hbt⟩
    · rintro ⟨t, ⟨m, hm, ht⟩, hbt⟩
      exact ⟨m.sexpr, List.mem_map.2 ⟨m, hm, rfl⟩, (ih m hm).2 ⟨t, ht, hbt⟩⟩

/-! ## lines of the output -/

theorem Text.length_split (sep : Char) (s : String) :
    (Text.split sep s).length = s.toList.count sep + 1 := by
  rw [Text.split, List.length_map]
  generalize s.toList = cs
  induction cs with
  | nil => rfl
  | cons c cs ih =>
    rw [Text.pieces, List.count_cons]
    by_cases hc : c = sep
    · simp [hc, ih]
    · cases hp : Text.pieces sep cs with
      | nil => exact absurd hp (Text.pieces_ne_nil sep cs)
      | cons p ps =>
        rw [hp] at ih
        simpa [hc] using ih

theorem count_header (colours : Bool) (name : String) :
    (header colours name).toList.count '\n' = name.toList.count '\n' + 1 := by
  cases colours <;> simp [header, paint, Colour.code]

theorem Outcome.output_sexpr (colours : Bool) {o : Outcome} {n : Node} (h : o.result = .ok n) :
    (astLoop colours .sexpr true {} [o]).2.output = header colours o.name ++ (n.sexpr ++ "\n") := by
  rw [astLoop_eq, foldl_tell, List.map_singleton, Outcome.print, h]
  simp [Format.text]

/-- every line break of the form is a line more of the output -/
theorem Outcome.length_split_output (colours : Bool) {o : Outcome} {n : Node}
    (h : o.result = .ok n) :
    (Text.split '\n' (astLoop colours .sexpr true {} [o]).2.output).length =
      o.name.toList.count '\n' + n.sexpr.toList.count '\n' + 3 := by
  rw [Text.length_split, output_sexpr colours h, String.toList_append, String.toList_append,
    List.count_append, List.count_append, count_header]
  have hend : "\n".toList.count '\n' = 1 := rfl
  omega

/-- **A printed tree has the line breaks of its bare texts, and no others.**  The form of a node holds
a line feed or a carriage return iff a name, an operator, a key, a label or a part of a regular
expression in it does.  So an outcome whose name is one line is printed in two lines, the header and
the form, iff no such text in the tree holds a line feed. -/
theorem Outcome.print_sexpr_lines {o : Outcome} {n : Node} (h : o.result = .ok n)
    (hname : '\n' ∉ o.name.toList) :
    (∀ b ∈ lineBreaks, b ∈ n.sexpr.toList ↔ ∃ s, n.Bare s ∧ b ∈ s.toList) ∧
    (∀ colours, (Text.split '\n' (astLoop colours .sexpr true {} [o]).2.output).length = 3 ↔
      ∀ s, n.Bare s → '\n' ∉ s.toList) ∧
    ((∀ s, n.Bare s → '\n' ∉ s.toList) →
      Text.split '\n' (astLoop false .sexpr true {} [o]).2.output =
        ["== " ++ o.name ++ " ==", n.sexpr, ""]) := by
  have hbare : '\n' ∉ n.sexpr.toList ↔ ∀ s, n.Bare s → '\n' ∉ s.toList := by
    rw [n.break_mem_sexpr (by decide)]
    simp
  refine ⟨fun b hb => n.break_mem_sexpr hb, fun colours => ?_, fun hs => ?_⟩
  · rw [Outcome.length_split_output colours h, List.count_eq_zero.2 hname, ← hbare,
      ← List.count_eq_zero]
    omega
  · have houtput : (astLoop false .sexpr true {} [o]).2.output =
        String.join (["== " ++ o.name ++ " ==", n.sexpr].map (· ++ "\n")) := by
      rw [output_sexpr false h]
      simp [header, paint, String.join, String.append_assoc]
    rw [houtput]
    exact Text.split_join_lines (by simpa using ⟨hname, hbare.2 hs⟩)

def keyed (key : String) : Node := .mk (.object [⟨key, .mk (.identifier "z"), none⟩])

theorem bare_keyed (key s : String) : (keyed key).Bare s ↔ s = key ∨ s = "z" := by
  simp [keyed, Node.bare_mk, Construct.bareTexts, Construct.children]

/-- a key with a blank is printed in one line -/
theorem Outcome.print_sexpr_lines_keyed :
    Text.split '\n' (astLoop false .sexpr true {} [⟨"a.json", [], .ok (keyed "x y")⟩]).2.output =
      ["== a.json ==", "(object (x y z))", ""] := by
  refine (Outcome.print_sexpr_lines (o := ⟨"a.json", [], .ok (keyed "x y")⟩) rfl
    (by decide)).2.2 fun s hs => ?_
  rcases (bare_keyed "x y" s).1 hs with rfl | rfl
  · decide
  · decide

/-- an object whose key holds a header between two line breaks -/
def headedFiles : FileSystem where
  root :=
    [("a.json", .file (Text.bytes "[\"object\",[[\"x\\n== b.json ==\\ny\",[\"name\",\"z\"]]]]"))]
  working := []
  isProper := by decide +kernel
  isDirectory := by decide +kernel

/-- a tree that decodes is printed in three lines, and one of them is the header of an input that
does not exist -/
theorem Outcome.print_sexpr_headed :
    (Node.decode (.array [.string "object", .array [.array [.string "x\n== b.json ==\ny",
      .array [.string "name", .string "z"]]]])).result = .ok (keyed "x\n== b.json ==\ny") ∧
    '\n' ∈ (keyed "x\n== b.json ==\ny").sexpr.toList ∧
    Text.split '\n' ((Action.ast .sexpr).run {} headedFiles [⟨"a.json"⟩]).stdout =
      ["== a.json ==", "(object (x", "== b.json ==", "y z))", ""] := by
  exact ⟨rfl, by decide +kernel, by decide +kernel⟩

end TagTree
