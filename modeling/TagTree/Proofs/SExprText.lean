import Mathlib.Data.Nat.Init
import TagTree.Node.SExpr

/-!
# S-expressions as trees

An s-expression is a word, a quoted text, or s-expressions in brackets with blanks between them.
Where words hold no blank, bracket or quote, it is known by its text, whatever stands behind it.

* `unquoteChar?_quoteChar`   a quoted character is read back;
* `quoted_cancel`            a quoted text ends at its own closing quote;
* `SExpr.text_list`          a list is printed by `sexprList`;
* `SExpr.Clear`              every word of an s-expression is one;
* `SExpr.Clear.cancel`       two s-expressions are the same if they start the same text;
* `SExpr.Clear.eq_of_text`   an s-expression is known by its text;
* `Node.toSExpr`             the tree that a node is printed as;
* `Node.text_toSExpr`        its text is the printed node.
-/

namespace TagTree

/-! ## quoted text -/

namespace Text

def hexDigit (c : Char) : Nat :=
  if c.toNat < 0x3A then c.toNat - 0x30 else c.toNat - 0x61 + 10

def hexNumber (cs : List Char) : Nat := cs.foldl (fun n c => n * 16 + hexDigit c) 0

theorem digitChar_hex {n : Nat} (h : n < 16) :
    hexDigit (Nat.digitChar n) = n ∧ Nat.digitChar n ≠ '\x7d' ∧ Nat.digitChar n ≠ '\n' ∧
      Nat.digitChar n ≠ '\r' := by
  have hall : ∀ n < 16, hexDigit (Nat.digitChar n) = n ∧ Nat.digitChar n ≠ '\x7d' ∧
      Nat.digitChar n ≠ '\n' ∧ Nat.digitChar n ≠ '\r' := by decide
  exact hall n h

theorem toDigits_hex (n : Nat) :
    hexNumber (Nat.toDigits 16 n) = n ∧
      ∀ c ∈ Nat.toDigits 16 n, c ≠ '\x7d' ∧ c ≠ '\n' ∧ c ≠ '\r' := by
  induction n using Nat.strong_induction_on with
  | _ n ih =>
    by_cases hn : n < 16
    · obtain ⟨hvalue, hother⟩ := digitChar_hex hn
      rw [Nat.toDigits_of_lt_base hn]
      refine ⟨?_, List.forall_mem_singleton.2 hother⟩
      show 0 * 16 + hexDigit (Nat.digitChar n) = n
      rw [hvalue]
      omega
    · obtain ⟨hvalue, hother⟩ := digitChar_hex (Nat.mod_lt n (by decide : 16 > 0))
      obtain ⟨ihvalue, ihother⟩ := ih (n / 16) (by omega)
      rw [Nat.toDigits_of_base_le (by decide) (Nat.not_lt.1 hn)]
      constructor
      · rw [hexNumber, List.foldl_append]
        show hexNumber (Nat.toDigits 16 (n / 16)) * 16 + hexDigit (Nat.digitChar (n % 16)) = n
        rw [ihvalue, hvalue]
        omega
      · exact List.forall_mem_append.2 ⟨ihother, List.forall_mem_singleton.2 hother⟩

/-- the character that a letter behind a backslash names -/
def unquoteLetter? (c : Char) : Option Char :=
  match c with
  | '0' => some '\x00'
  | 't' => some '\t'
  | 'n' => some '\n'
  | 'r' => some '\r'
  | '"' => some '"'
  | '\\' => some '\\'
  | _ => none

/-- the first character of a quoted text and what follows it; a quote ends the text -/
def unquoteChar? : List Char → Option (Char × List Char)
  | [] => none
  | '"' :: _ => none
  | '\\' :: 'u' :: cs =>
    let digits := (cs.drop 1).takeWhile (· ≠ '\x7d')
    some (Char.ofNat (hexNumber digits), cs.drop (digits.length + 2))
  | '\\' :: cs => cs.head?.bind fun c => (unquoteLetter? c).map (·, cs.tail)
  | c :: cs => some (c, cs)

theorem unquoteChar?_code (c : Char) (r : List Char) :
    unquoteChar? ('\\' :: 'u' :: '\x7b' :: (Nat.toDigits 16 c.toNat ++ ['\x7d']) ++ r) =
      some (c, r) := by
  obtain ⟨hvalue, hother⟩ := toDigits_hex c.toNat
  have hdigits : (Nat.toDigits 16 c.toNat ++ '\x7d' :: r).takeWhile (· ≠ '\x7d') =
      Nat.toDigits 16 c.toNat := by
    rw [List.takeWhile_append_of_pos (fun d hd => decide_eq_true (hother d hd).1)]
    simp
  have happend : '\\' :: 'u' :: '\x7b' :: (Nat.toDigits 16 c.toNat ++ ['\x7d']) ++ r =
      '\\' :: 'u' :: '\x7b' :: (Nat.toDigits 16 c.toNat ++ '\x7d' :: r) := by simp
  rw [happend]
  show some (Char.ofNat (hexNumber ((Nat.toDigits 16 c.toNat ++ '\x7d' :: r).takeWhile
    (· ≠ '\x7d'))), ('\x7b' :: (Nat.toDigits 16 c.toNat ++ '\x7d' :: r)).drop
      (((Nat.toDigits 16 c.toNat ++ '\x7d' :: r).takeWhile (· ≠ '\x7d')).length + 2)) = _
  rw [hdigits, hvalue, Char.ofNat_toNat, List.drop_succ_cons, List.drop_append]
  simp

theorem unquoteChar?_quoteChar (c : Char) (r : List Char) :
    unquoteChar? (quoteChar c ++ r) = some (c, r) := by
  unfold quoteChar
  split
  · rfl
  · rfl
  · rfl
  · rfl
  · rfl
  · rfl
  · rename_i hquote hbackslash
    split
    · exact unquoteChar?_code c r
    · rw [List.singleton_append, unquoteChar?]
      · exact hquote
      · exact fun cs hc => absurd hc hbackslash
      · exact hbackslash

theorem quoted_cancel {s t r u : List Char}
    (h : s.flatMap quoteChar ++ '"' :: r = t.flatMap quoteChar ++ '"' :: u) : s = t ∧ r = u := by
  have open? (c : Char) (cs k : List Char) :
      unquoteChar? ((c :: cs).flatMap quoteChar ++ k) = some (c, cs.flatMap quoteChar ++ k) := by
    rw [List.flatMap_cons, List.append_assoc, unquoteChar?_quoteChar]
  induction s generalizing t with
  | nil =>
    cases t with
    | nil => exact ⟨rfl, List.tail_eq_of_cons_eq h⟩
    | cons d t =>
      have hread := congrArg unquoteChar? h
      rw [open?] at hread
      cases hread
  | cons c s ih =>
    have hread := congrArg unquoteChar? h
    rw [open?] at hread
    cases t with
    | nil => cases hread
    | cons d t =>
      rw [open?] at hread
      obtain ⟨rfl, hrest⟩ := Prod.mk.inj (Option.some.inj hread)
      obtain ⟨rfl, hr⟩ := ih hrest
      exact ⟨rfl, hr⟩

end Text

/-! ## trees -/

/-- a word, a quoted text, or s-expressions in brackets -/
inductive SExpr where
  | word (s : String)
  | quoted (s : String)
  | list (items : List SExpr)

namespace SExpr

mutual

def text : SExpr → String
  | .word s => s
  | .quoted s => Text.quoted s
  | .list xs => "(" ++ String.intercalate " " (texts xs) ++ ")"

def texts : List SExpr → List String
  | [] => []
  | x :: xs => x.text :: texts xs

end

theorem texts_eq (xs : List SExpr) : texts xs = xs.map text := by
  induction xs with
  | nil => rfl
  | cons x xs ih => rw [texts, ih, List.map_cons]

theorem text_list (head : String) (xs : List SExpr) :
    (list (.word head :: xs)).text = sexprList head (xs.map text) := by
  rw [text, texts, texts_eq]
  rfl

theorem text_words (xs : List String) :
    (list (xs.map .word)).text = "(" ++ String.intercalate " " xs ++ ")" := by
  have hwords : (xs.map word).map text = xs := by
    rw [List.map_map]
    exact List.map_id xs
  rw [text, texts_eq, hwords]

/-! ## characters -/

/-- the items of a list with a blank before each, and the bracket that closes them -/
def tail : List SExpr → List Char
  | [] => [')']
  | x :: xs => ' ' :: (x.text.toList ++ tail xs)

theorem toList_text_nil : (list []).text.toList = '(' :: tail [] := rfl

theorem toList_text_cons (x : SExpr) (xs : List SExpr) :
    (list (x :: xs)).text.toList = '(' :: (x.text.toList ++ tail xs) := by
  have htail : ∀ (y : SExpr) (ys : List SExpr),
      List.intercalate [' '] ((y :: ys).map fun z => z.text.toList) ++ [')'] =
        y.text.toList ++ tail ys := by
    intro y ys
    induction ys generalizing y with
    | nil => simp [tail]
    | cons z zs ih =>
      have ih := ih z
      rw [List.map_cons] at ih
      rw [List.map_cons, List.map_cons, List.intercalate_cons_cons, List.append_assoc,
        List.append_assoc, ih]
      rfl
  rw [text, texts_eq, String.toList_append, String.toList_append, String.toList_intercalate,
    List.map_map, List.append_assoc]
  exact congrArg ('(' :: ·) (htail x xs)

/-! ## reading -/

/-- a word is not empty and holds no blank, bracket or quote -/
def IsWord (s : String) : Prop := s ≠ "" ∧ ∀ c ∈ s.toList, c ∉ [' ', '(', ')', '"']

-- the characters of the text are looked through, not all characters that there are
instance (s : String) : Decidable (IsWord s) :=
  @instDecidableAnd _ _ inferInstance (List.decidableBAll _ _)

/-- every word of an s-expression is one -/
inductive Clear : SExpr → Prop
  | word {s : String} : IsWord s → Clear (.word s)
  | quoted {s : String} : Clear (.quoted s)
  | list {xs : List SExpr} : (∀ x ∈ xs, Clear x) → Clear (.list xs)

/-- nothing follows, or a blank or a closing bracket -/
def Stops (r : List Char) : Prop := ∀ c ∈ r.head?, c = ' ' ∨ c = ')'

theorem stops_tail (xs : List SExpr) (r : List Char) : Stops (tail xs ++ r) := by
  cases xs with
  | nil =>
    rintro c ⟨⟩
    exact .inr rfl
  | cons x xs =>
    rintro c ⟨⟩
    exact .inl rfl

theorem IsWord.exists_cons {s : String} (h : IsWord s) :
    ∃ c cs, s.toList = c :: cs ∧ c ∉ [' ', '(', ')', '"'] := by
  have hne : s.toList ≠ [] := fun he => h.1 (String.toList_inj.1 he)
  obtain ⟨c, cs, hc⟩ := List.exists_cons_of_ne_nil hne
  exact ⟨c, cs, hc, h.2 c (hc ▸ List.mem_cons_self)⟩

theorem word_cancel {v w r s : List Char} (hv : ∀ c ∈ v, c ∉ [' ', '(', ')', '"'])
    (hw : ∀ c ∈ w, c ∉ [' ', '(', ')', '"']) (hr : Stops r) (hs : Stops s)
    (h : v ++ r = w ++ s) : v = w ∧ r = s := by
  -- a character of one word cannot stand where the other word stops
  have stop {c : Char} {w r : List Char} (hc : c ∉ [' ', '(', ')', '"']) (hr : Stops r) :
      r ≠ c :: w := by
    rintro rfl
    rcases hr c rfl with rfl | rfl <;> exact hc (by decide)
  induction v generalizing w with
  | nil =>
    cases w with
    | nil => exact ⟨rfl, h⟩
    | cons d w => exact absurd h (stop (hw d List.mem_cons_self) hr)
  | cons c v ih =>
    cases w with
    | nil => exact absurd h.symm (stop (hv c List.mem_cons_self) hs)
    | cons d w =>
      rw [List.cons_append, List.cons_append, List.cons.injEq] at h
      obtain ⟨rfl, h⟩ := h
      obtain ⟨rfl, hrs⟩ := ih (fun x hx => hv x (List.mem_cons_of_mem _ hx))
        (fun x hx => hw x (List.mem_cons_of_mem _ hx)) h
      exact ⟨rfl, hrs⟩

theorem toList_quoted (s : String) (r : List Char) :
    (quoted s).text.toList ++ r = '"' :: (s.toList.flatMap Text.quoteChar ++ '"' :: r) := by
  rw [text, Text.quoted, String.toList_ofList]
  simp

/-- the first character tells what an s-expression is -/
theorem Clear.exists_cons {t : SExpr} (h : t.Clear) :
    ∃ c cs, t.text.toList = c :: cs ∧ c ≠ ')' ∧ c ≠ ' ' ∧
      (c = '(' ↔ ∃ xs, t = .list xs) ∧ (c = '"' ↔ ∃ s, t = .quoted s) := by
  cases h with
  | @word s hs =>
    obtain ⟨c, cs, hc, hother⟩ := hs.exists_cons
    simp only [List.mem_cons, List.not_mem_nil, or_false, not_or] at hother
    exact ⟨c, cs, hc, hother.2.2.1, hother.1, by simp [hother], by simp [hother]⟩
  | @quoted s =>
    refine ⟨'"', _, String.toList_ofList .., by decide, by decide, by simp, by simp⟩
  | @list xs _ =>
    cases xs with
    | nil => exact ⟨'(', _, toList_text_nil, by decide, by decide, by simp, by simp⟩
    | cons x xs => exact ⟨'(', _, toList_text_cons x xs, by decide, by decide, by simp, by simp⟩

/-- it can be told from all others, whatever follows -/
def Cancels (t : SExpr) : Prop :=
  ∀ {u : SExpr} {r s : List Char}, u.Clear → Stops r → Stops s →
    t.text.toList ++ r = u.text.toList ++ s → t = u ∧ r = s

theorem tail_cancel {xs ys : List SExpr} {r s : List Char} (hxs : ∀ x ∈ xs, Cancels x)
    (hys : ∀ y ∈ ys, Clear y) (h : tail xs ++ r = tail ys ++ s) : xs = ys ∧ r = s := by
  induction xs generalizing ys with
  | nil =>
    cases ys with
    | nil => exact ⟨rfl, List.tail_eq_of_cons_eq h⟩
    | cons y ys => cases h
  | cons x xs ih =>
    cases ys with
    | nil => cases h
    | cons y ys =>
      obtain ⟨hx, hxs⟩ := List.forall_mem_cons.1 hxs
      obtain ⟨hy, hys⟩ := List.forall_mem_cons.1 hys
      have h : x.text.toList ++ tail xs ++ r = y.text.toList ++ tail ys ++ s :=
        List.tail_eq_of_cons_eq h
      rw [List.append_assoc, List.append_assoc] at h
      obtain ⟨hxy, htail⟩ := hx hy (stops_tail xs r) (stops_tail ys s) h
      obtain ⟨hlists, hrs⟩ := ih hxs hys htail
      exact ⟨by rw [hxy, hlists], hrs⟩

theorem list_cancel {xs ys : List SExpr} {r s : List Char} (hxs : ∀ x ∈ xs, Cancels x)
    (hxs' : ∀ x ∈ xs, Clear x) (hys : ∀ y ∈ ys, Clear y)
    (h : (list xs).text.toList ++ r = (list ys).text.toList ++ s) : xs = ys ∧ r = s := by
  -- an empty list closes where another has the first character of an item
  have first {z : SExpr} (hz : z.Clear) (k l : List Char) : ')' :: k ≠ z.text.toList ++ l := by
    obtain ⟨c, cs, hc, hne, -⟩ := hz.exists_cons
    rw [hc]
    intro he
    exact hne (List.head_eq_of_cons_eq he).symm
  cases xs with
  | nil =>
    cases ys with
    | nil =>
      rw [toList_text_nil] at h
      exact ⟨rfl, List.append_cancel_left h⟩
    | cons y ys =>
      rw [toList_text_nil, toList_text_cons, List.cons_append, List.cons_append] at h
      have h : ')' :: r = y.text.toList ++ tail ys ++ s := List.tail_eq_of_cons_eq h
      rw [List.append_assoc] at h
      exact absurd h (first (hys y List.mem_cons_self) _ _)
  | cons x xs =>
    cases ys with
    | nil =>
      rw [toList_text_nil, toList_text_cons, List.cons_append, List.cons_append] at h
      have h : x.text.toList ++ tail xs ++ r = ')' :: s := List.tail_eq_of_cons_eq h
      rw [List.append_assoc] at h
      exact absurd h.symm (first (hxs' x List.mem_cons_self) _ _)
    | cons y ys =>
      rw [toList_text_cons, toList_text_cons, List.cons_append, List.cons_append] at h
      exact tail_cancel hxs hys (congrArg (' ' :: ·) (List.tail_eq_of_cons_eq h))

/-- two s-expressions are the same if they start the same text -/
theorem Clear.cancel {t : SExpr} (ht : t.Clear) : Cancels t := by
  induction ht with
  | @word v hv =>
    intro u r s hu hr hs h
    obtain ⟨c, cs, hc, -, -, hlist, hquoted⟩ := (Clear.word hv).exists_cons
    obtain ⟨d, ds, hd, -, -, hlist', hquoted'⟩ := hu.exists_cons
    have hcd : c = d := by
      rw [hc, hd] at h
      exact List.head_eq_of_cons_eq h
    subst hcd
    cases hu with
    | word hw =>
      obtain ⟨he, hrs⟩ := word_cancel hv.2 hw.2 hr hs h
      exact ⟨congrArg SExpr.word (String.toList_inj.1 he), hrs⟩
    | quoted =>
      obtain ⟨s, hs⟩ := hquoted.1 (hquoted'.2 ⟨_, rfl⟩)
      cases hs
    | list _ =>
      obtain ⟨s, hs⟩ := hlist.1 (hlist'.2 ⟨_, rfl⟩)
      cases hs
  | @quoted v =>
    intro u r s hu _ _ h
    obtain ⟨d, ds, hd, -, -, -, hquoted⟩ := hu.exists_cons
    have hquote : d = '"' := by
      rw [toList_quoted, hd] at h
      exact (List.head_eq_of_cons_eq h).symm
    obtain ⟨w, rfl⟩ := hquoted.1 hquote
    rw [toList_quoted, toList_quoted] at h
    obtain ⟨he, hrs⟩ := Text.quoted_cancel (List.tail_eq_of_cons_eq h)
    exact ⟨congrArg SExpr.quoted (String.toList_inj.1 he), hrs⟩
  | @list xs hxs ih =>
    intro u r s hu _ _ h
    obtain ⟨c, cs, hc, -, -, hlist, -⟩ := (Clear.list hxs).exists_cons
    obtain ⟨d, ds, hd, -, -, hlist', -⟩ := hu.exists_cons
    have hcd : c = d := by
      rw [hc, hd] at h
      exact List.head_eq_of_cons_eq h
    obtain ⟨ys, rfl⟩ := hlist'.1 (hcd ▸ hlist.2 ⟨xs, rfl⟩)
    cases hu with
    | list hys =>
      obtain ⟨rfl, hrs⟩ := list_cancel ih hxs hys h
      exact ⟨rfl, hrs⟩

/-- **An s-expression is known by its text.** -/
theorem Clear.eq_of_text {t u : SExpr} (ht : t.Clear) (hu : u.Clear) (h : t.text = u.text) :
    t = u := by
  have hnil : Stops [] := fun c hc => nomatch hc
  exact (ht.cancel hu hnil hnil (by rw [h])).1

end SExpr

/-! ## nodes -/

def Binding.toSExpr (b : Binding SExpr) : SExpr := .list (.word b.name :: b.init.toList)

def Property.toSExpr (p : Property SExpr) : SExpr :=
  match p.accessor with
  | some a => .list [.word a.name, .word p.key, p.value]
  | none => .list [.word p.key, p.value]

def Case.toSExpr (c : Case SExpr) : SExpr :=
  match c.test with
  | some test => .list (.word "case" :: test :: c.body)
  | none => .list (.word "default" :: c.body)

def Handler.toSExpr (h : Handler SExpr) : SExpr := .list (.word "catch" :: .word h.param :: h.body)

def SExpr.absent : SExpr := .word "_"

def Construct.toSExpr : Construct SExpr → SExpr
  | .program body => .list (.word "program" :: body)
  | .function _ name params body =>
    .list (.word "function" :: .word (name.getD "_") :: .list (params.map .word) :: body)
  | .returns value => .list (.word "return" :: value.toList)
  | .vars bindings => .list (.word "var" :: bindings.map Binding.toSExpr)
  | .statement e => .list [.word "stat", e]
  | .literal (.number x) => .word (Decimal.full.text x)
  | .literal (.string s) => .quoted s
  | .identifier name => .word name
  | .binary op l r => .list [.word op, l, r]
  | .array elements => .list (.word "array" :: elements)
  | .call callee args => .list (.word "call" :: callee :: args)
  | .regex pattern flags => .word ("/" ++ pattern ++ "/" ++ flags)
  | .object properties => .list (.word "object" :: properties.map Property.toSExpr)
  | .block body => .list (.word "block" :: body)
  | .ifElse c t e => .list (.word "if" :: c :: t :: e.toList)
  | .assignment op t v => .list [.word op, t, v]
  | .unaryPrefix op x => .list [.word "prefix", .word op, x]
  | .unaryPostfix op x => .list [.word "postfix", .word op, x]
  | .new c args => .list (.word "new" :: c :: args)
  | .member o name => .list [.word ".", o, .word name]
  | .index o i => .list [.word "[]", o, i]
  | .tryCatch body h fin =>
    .list (.word "try" :: .list (.word "block" :: body) ::
      (h.toList.map Handler.toSExpr ++ fin.toList.map fun body => .list (.word "finally" :: body)))
  | .throws v => .list [.word "throw", v]
  | .whileLoop c b => .list [.word "while", c, b]
  | .doWhile c b => .list [.word "do-while", c, b]
  | .switch d cases => .list (.word "switch" :: d :: cases.map Case.toSExpr)
  | .forLoop i c u b =>
    .list [.word "for", i.getD .absent, c.getD .absent, u.getD .absent, b]
  | .forIn i l o b => .list [.word "for-in", i, l, o, b]
  | .sequence es => .list (.word "seq" :: es)
  | .ternary c t e => .list [.word "?:", c, t, e]
  | .breaks label => .list (.word "break" :: label.toList.map .word)
  | .continues label => .list (.word "continue" :: label.toList.map .word)
  | .labeled label b => .list [.word "label", .word label, b]

def Node.toSExpr : Node → SExpr := Node.fold Construct.toSExpr

theorem Node.toSExpr_mk (c : Construct Node) : (Node.mk c).toSExpr = (c.map Node.toSExpr).toSExpr :=
  Node.fold_mk _ c

/-! ### their texts -/

section
open SExpr

theorem Binding.text_toSExpr (b : Binding SExpr) : b.toSExpr.text = (b.map text).sexpr := by
  rw [Binding.toSExpr, text_list, Binding.sexpr, Binding.map]
  cases b.init <;> rfl

theorem Property.text_toSExpr (p : Property SExpr) : p.toSExpr.text = (p.map text).sexpr := by
  obtain ⟨key, value, accessor⟩ := p
  cases accessor <;> exact text_list _ _

theorem Case.text_toSExpr (c : Case SExpr) : c.toSExpr.text = (c.map text).sexpr := by
  obtain ⟨test, body⟩ := c
  cases test <;> exact text_list _ _

theorem Handler.text_toSExpr (h : Handler SExpr) : h.toSExpr.text = (h.map text).sexpr := text_list _ _

theorem Construct.text_toSExpr (c : Construct SExpr) : c.toSExpr.text = (c.map text).sexpr := by
  have words (xs : List String) : (xs.map word).map text = xs := by
    rw [List.map_map]
    exact List.map_id xs
  have option (x : Option SExpr) : x.toList.map text = (x.map text).toList := by cases x <;> rfl
  have getD (x : Option SExpr) : (x.getD .absent).text = (x.map text).getD "_" := by cases x <;> rfl
  cases c with
  | function form name params body =>
    rw [Construct.toSExpr, text_list, List.map_cons, List.map_cons, text_words]
    rfl
  | returns value =>
    rw [Construct.toSExpr, text_list, option]
    rfl
  | vars bindings =>
    rw [Construct.toSExpr, text_list, List.map_map, map, Construct.sexpr, List.map_map]
    exact congrArg _ (List.map_congr_left fun b _ => b.text_toSExpr)
  | literal value => cases value <;> rfl
  | object properties =>
    rw [Construct.toSExpr, text_list, List.map_map, map, Construct.sexpr, List.map_map]
    exact congrArg _ (List.map_congr_left fun p _ => p.text_toSExpr)
  | ifElse c t e =>
    rw [Construct.toSExpr, text_list, List.map_cons, List.map_cons, option]
    rfl
  | tryCatch body h fin =>
    rw [Construct.toSExpr, text_list, List.map_cons, text_list, List.map_append, map, Construct.sexpr]
    cases h <;> cases fin <;> simp [Handler.text_toSExpr, text_list]
  | switch d cases =>
    rw [Construct.toSExpr, text_list, List.map_cons, List.map_map, map, Construct.sexpr, List.map_map]
    exact congrArg _ (congrArg _ (List.map_congr_left fun c _ => c.text_toSExpr))
  | forLoop i c u b =>
    rw [Construct.toSExpr, text_list, List.map_cons, List.map_cons, List.map_cons, getD, getD, getD]
    rfl
  | breaks label =>
    rw [Construct.toSExpr, text_list, words]
    rfl
  | continues label =>
    rw [Construct.toSExpr, text_list, words]
    rfl
  | identifier name => rfl
  | regex pattern flags => rfl
  | _ => exact text_list _ _

end

theorem Node.text_toSExpr (n : Node) : n.toSExpr.text = n.sexpr := by
  induction n using induct with
  | h c ih =>
    rw [toSExpr_mk, Construct.text_toSExpr, sexpr_mk, Construct.map_map]
    exact congrArg _ (Construct.map_congr ih)

end TagTree
