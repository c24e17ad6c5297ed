import TagTree.Proofs.Handlers
import TagTree.Proofs.Numerals

/-!
# Without its blanks an indented text is compact

Blanks are deleted by a scan that knows one thing: whether it stands in a string literal.  The text
of a token is left as it is, and the scan is outside of string literals again behind it; the blanks
between tokens vanish.  So what is left of a layout is its tokens.

* `Zone`, `Zone.next`     where a character stands;
* `withoutBlanks`         the text without the blanks that stand outside of string literals;
* `Leaves p s t q`        from zone `p` on, `t` is left of `s`, and the scan ends in zone `q`;
* `leaves_quote`          a string literal is left as it is, whatever it holds;
* `leaves_token`          so is every token;
* `leaves_pieces`         of the pieces of a layout the tokens are left;
* `Node.indented_eq_compact`   the two written forms of a node are the same but for blanks.
-/

namespace TagTree
namespace Json

/-! ## deleting blanks -/

/-- where a character stands -/
inductive Zone where
  | outside
  /-- in a string literal -/
  | literal
  /-- in a string literal, right behind a backslash that starts an escape -/
  | escape
deriving DecidableEq

def Zone.next : Zone → Char → Zone
  | .outside, c => if c = '"' then .literal else .outside
  | .literal, c => if c = '"' then .outside else if c = '\\' then .escape else .literal
  | .escape, _ => .literal

def leftFrom : Zone → List Char → List Char
  | _, [] => []
  | p, c :: cs =>
    if p = .outside ∧ Text.isBlank c = true then leftFrom (p.next c) cs
    else c :: leftFrom (p.next c) cs

/-- the text without the blanks outside of string literals -/
def withoutBlanks (text : String) : String := String.ofList (leftFrom .outside text.toList)

example : withoutBlanks "\x7b \"a \\\" b\":\n\t[ 1, \" \" ]\x7d" = "\x7b\"a \\\" b\":[1,\" \"]\x7d" := by
  decide +kernel

/-! ## scans -/

/-- a scan of `s` that starts in zone `p` leaves `t` and ends in zone `q` -/
def Leaves (p : Zone) (s t : List Char) (q : Zone) : Prop :=
  leftFrom p s = t ∧ s.foldl Zone.next p = q

theorem leftFrom_append (p : Zone) (s t : List Char) :
    leftFrom p (s ++ t) = leftFrom p s ++ leftFrom (s.foldl Zone.next p) t := by
  induction s generalizing p with
  | nil => rfl
  | cons c s ih =>
    rw [List.cons_append, leftFrom, leftFrom, ih, List.foldl_cons]
    by_cases h : p = .outside ∧ Text.isBlank c = true
    · rw [if_pos h, if_pos h]
    · rw [if_neg h, if_neg h, List.cons_append]

theorem Leaves.nil (p : Zone) : Leaves p [] [] p := ⟨rfl, rfl⟩

theorem Leaves.append {p q r : Zone} {s s' t t' : List Char} (h : Leaves p s t q)
    (h' : Leaves q s' t' r) : Leaves p (s ++ s') (t ++ t') r := by
  obtain ⟨hs, hq⟩ := h
  obtain ⟨hs', hr⟩ := h'
  constructor
  · rw [leftFrom_append, hs, hq, hs']
  · rw [List.foldl_append, hq, hr]

/-- characters that a scan leaves one by one without leaving its zone -/
theorem leaves_same {p : Zone} {s : List Char}
    (h : ∀ c ∈ s, ¬ (p = .outside ∧ Text.isBlank c = true) ∧ p.next c = p) : Leaves p s s p := by
  induction s with
  | nil => exact Leaves.nil p
  | cons c s ih =>
    obtain ⟨hc, hs⟩ := List.forall_mem_cons.1 h
    have hone : Leaves p [c] [c] p := by
      constructor
      · rw [leftFrom, if_neg hc.1, leftFrom]
      · exact hc.2
    exact hone.append (ih hs)

/-! ### string literals -/

theorem digitChar_plain {n : Nat} (h : n < 16) : Nat.digitChar n ≠ '"' ∧ Nat.digitChar n ≠ '\\' := by
  have hall : ∀ n < 16, Nat.digitChar n ≠ '"' ∧ Nat.digitChar n ≠ '\\' := by decide
  exact hall n h

theorem leaves_plain {s : List Char} (h : ∀ c ∈ s, c ≠ '"' ∧ c ≠ '\\') :
    Leaves .literal s s .literal := by
  apply leaves_same
  intro c hc
  obtain ⟨hquote, hbackslash⟩ := h c hc
  refine ⟨fun ho => Zone.noConfusion ho.1, ?_⟩
  rw [Zone.next, if_neg hquote, if_neg hbackslash]

/-- a character of a string, escaped or not, does not end the literal -/
theorem leaves_escapeChar (c : Char) : Leaves .literal (escapeChar c) (escapeChar c) .literal := by
  unfold escapeChar
  split
  case h_8 hquote hbackslash _ _ _ _ _ =>
    split
    · -- the backslash and the `u` go into an escape and out of it; digits follow
      have hescape : Leaves .literal ['\\', 'u'] ['\\', 'u'] .literal := ⟨rfl, rfl⟩
      apply hescape.append
      apply leaves_plain
      intro d hd
      simp only [hexPair, List.mem_cons, List.not_mem_nil, or_false] at hd
      rcases hd with rfl | rfl | rfl | rfl
      · decide
      · decide
      · exact digitChar_plain (Nat.mod_lt _ (by decide))
      · exact digitChar_plain (Nat.mod_lt _ (by decide))
    · apply leaves_plain
      intro d hd
      rw [List.mem_singleton.1 hd]
      exact ⟨hquote, hbackslash⟩
  all_goals exact ⟨rfl, rfl⟩

theorem leaves_flatMap (cs : List Char) :
    Leaves .literal (cs.flatMap escapeChar) (cs.flatMap escapeChar) .literal := by
  induction cs with
  | nil => exact Leaves.nil .literal
  | cons c cs ih => exact (leaves_escapeChar c).append ih

theorem leaves_quote (s : String) : Leaves .outside (quote s).toList (quote s).toList .outside := by
  have hopen : Leaves .outside ['"'] ['"'] .literal := ⟨rfl, rfl⟩
  have hclose : Leaves .literal ['"'] ['"'] .outside := ⟨rfl, rfl⟩
  rw [quote, String.toList_ofList]
  exact hopen.append ((leaves_flatMap s.toList).append hclose)

/-! ### tokens -/

/-- outside of string literals a character changes nothing unless it is blank or a quote -/
theorem leaves_marks {s : List Char} (h : ∀ c ∈ s, Text.isBlank c = false ∧ c ≠ '"') :
    Leaves .outside s s .outside := by
  apply leaves_same
  intro c hc
  obtain ⟨hblank, hquote⟩ := h c hc
  refine ⟨fun ho => ?_, if_neg hquote⟩
  rw [hblank] at ho
  exact Bool.noConfusion ho.2

def IsNumeric (c : Char) : Prop := c.isDigit = true ∨ c ∈ ['.', 'e', '+', '-']

instance (c : Char) : Decidable (IsNumeric c) := inferInstanceAs (Decidable (_ ∨ _))

theorem isNumeric_of_mem_finite {l : Decimal.Layout} {magnitude : Nat} {c : Char}
    (h : c ∈ l.finite magnitude) : IsNumeric c := by
  unfold Decimal.Layout.finite at h
  dsimp only at h
  split at h
  · exact (Decimal.mem_positional h).imp_right fun hc => by simp [hc]
  · exact Decimal.mem_scientific h

theorem isNumeric_of_mem_text {n : Number} {c : Char} (h : c ∈ n.text.toList) : IsNumeric c := by
  have hdigits {m : Nat} (hm : c ∈ Nat.toDigits 10 m) : IsNumeric c :=
    .inl (Decimal.isDigit_of_mem_digits hm)
  have hminus : IsNumeric '-' := by decide
  cases n with
  | natural n lt =>
    rw [Number.text, String.toList_ofList] at h
    exact hdigits h
  | negative n pos le =>
    rw [Number.text, String.toList_ofList] at h
    rcases List.mem_cons.1 h with rfl | h
    · exact hminus
    · exact hdigits h
  | double x finite =>
    rw [Number.text, Decimal.Layout.toList_text _ finite] at h
    rcases List.mem_append.1 h with h | h
    · split at h
      · rw [List.mem_singleton.1 h]
        exact hminus
      · cases h
    · exact isNumeric_of_mem_finite h

theorem mark_of_isNumeric {c : Char} (h : IsNumeric c) : Text.isBlank c = false ∧ c ≠ '"' := by
  have hlt : c.toNat < 0x80 := by
    rcases h with h | h
    · exact Reader.digitClass.char c h
    · simp only [List.mem_cons, List.not_mem_nil, or_false] at h
      rcases h with rfl | rfl | rfl | rfl <;> decide
  exact Text.of_forall_lt (P := fun c => IsNumeric c → Text.isBlank c = false ∧ c ≠ '"')
    (by decide) hlt h

theorem leaves_token (t : Token) : Leaves .outside t.text.toList t.text.toList .outside := by
  cases t with
  | number n => exact leaves_marks fun c hc => mark_of_isNumeric (isNumeric_of_mem_text hc)
  | string s => exact leaves_quote s
  | bool b => cases b <;> exact ⟨rfl, rfl⟩
  | _ => exact ⟨rfl, rfl⟩

/-! ### layouts -/

theorem leaves_blanks {s : List Char} (h : ∀ c ∈ s, Text.isBlank c = true) :
    Leaves .outside s [] .outside := by
  induction s with
  | nil => exact Leaves.nil .outside
  | cons c s ih =>
    obtain ⟨hc, hs⟩ := List.forall_mem_cons.1 h
    have hquote : c ≠ '"' := by
      rintro rfl
      cases hc
    have hone : Leaves .outside [c] [] .outside := by
      constructor
      · rw [leftFrom, if_pos ⟨rfl, hc⟩, leftFrom]
      · exact if_neg hquote
    exact hone.append (ih hs)

theorem leaves_piece (x : Piece) :
    Leaves .outside x.text.toList (x.token?.toList.flatMap fun t => t.text.toList) .outside := by
  cases x with
  | token t =>
    show Leaves .outside t.text.toList (t.text.toList ++ []) .outside
    rw [List.append_nil]
    exact leaves_token t
  | line level =>
    apply leaves_blanks
    intro c hc
    rw [Piece.text, String.toList_ofList] at hc
    rcases List.mem_cons.1 hc with rfl | hc
    · decide
    · rw [List.eq_of_mem_replicate hc]
      decide
  | blank => exact ⟨rfl, rfl⟩

/-- of the pieces of a layout the tokens are left -/
theorem leaves_pieces (xs : List Piece) :
    Leaves .outside (xs.flatMap fun x => x.text.toList)
      ((xs.filterMap Piece.token?).flatMap fun t => t.text.toList) .outside := by
  induction xs with
  | nil => exact Leaves.nil .outside
  | cons x xs ih =>
    have hcons : (x :: xs).filterMap Piece.token? =
        x.token?.toList ++ xs.filterMap Piece.token? := by
      cases x <;> rfl
    rw [List.flatMap_cons, hcons, List.flatMap_append]
    exact (leaves_piece x).append ih

theorem withoutBlanks_indented (j : Json) : withoutBlanks j.indented = j.compact := by
  have hleft := (leaves_pieces j.layout).1
  rw [tokens_layout] at hleft
  have hindented : j.indented.toList = j.layout.flatMap fun x => x.text.toList := by
    rw [indented, String.toList_join, List.flatMap_map]
  have hcompact : j.compact.toList = j.tokens.flatMap fun t => t.text.toList := by
    rw [compact, String.toList_join, List.flatMap_map]
  rw [withoutBlanks, hindented, hleft, ← hcompact, String.ofList_toList]

end Json

/-- **The two written forms of a node are the same document.**  What is printed of a node in several
lines is the compact text of its document once the blanks outside of string literals are deleted; it
stands between the header of its source and the end of the line. -/
theorem Node.indented_eq_compact (n : Node) :
    Json.withoutBlanks n.document.indented = n.document.compact ∧
    ∀ (colours : Bool) (name : String) (log : List LogEntry),
      (Action.ast .json).handle colours (.ok [⟨name, log, .ok n⟩]) =
        .ok (true, ⟨header colours name ++ (n.document.indented ++ "\n"), []⟩) := by
  refine ⟨Json.withoutBlanks_indented n.document, fun colours name log => ?_⟩
  simp only [Action.handle_single, Action.closing, String.append_empty]
  rfl

end TagTree
