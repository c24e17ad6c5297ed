import Mathlib.Computability.Language

/-!
# The grammar of Json texts

The rules of the standard, each as a language over characters: a product is a sequence, a sum a
choice, a star a repetition.  There is no bound on nesting.  One rule is narrower: an escaped code
in the range of surrogates must be the first of a pair, and the second follows at once.

* `IsValue`         the texts of values;
* `jsonText`        a value and blanks around it;
* `mem_star_one`    the words of a repeated character class;
* `mem_separated`   a list of words with separators, from the first on.
-/

namespace TagTree.Json.Grammar
open scoped Computability

/-! ## rules -/

/-- one character of a class -/
def one (p : Char → Bool) : Language Char := {w | ∃ c, p c = true ∧ w = [c]}

def char (c : Char) : Language Char := {[c]}

def optional (l : Language Char) : Language Char := 1 + l

/-- space, tab, line feed and carriage return -/
def isBlank (c : Char) : Bool := c == ' ' || c == '\t' || c == '\n' || c == '\r'

def ws : Language Char := (one isBlank)∗

/-- a structural character with blanks around it -/
def mark (c : Char) : Language Char := ws * char c * ws

/-! ### numbers -/

def digit : Language Char := one Char.isDigit

def digits : Language Char := digit * digit∗

def int : Language Char := char '0' + one (fun c => 0x31 ≤ c.toNat && c.toNat ≤ 0x39) * digit∗

def frac : Language Char := char '.' * digits

def exp : Language Char := (char 'e' + char 'E') * (optional (char '-' + char '+') * digits)

def number : Language Char := optional (char '-') * (int * (optional frac * optional exp))

/-! ### strings -/

/-- the value of a hexadecimal digit, in either case -/
def hexDigit? (c : Char) : Option Nat :=
  if 0x30 ≤ c.toNat ∧ c.toNat ≤ 0x39 then some (c.toNat - 0x30)
  else if 0x41 ≤ c.toNat ∧ c.toNat ≤ 0x46 then some (c.toNat - 0x41 + 10)
  else if 0x61 ≤ c.toNat ∧ c.toNat ≤ 0x66 then some (c.toNat - 0x61 + 10)
  else none

/-- four hexadecimal digits that give this code -/
inductive IsCode : List Char → Nat → Prop
  | digits {a b c d : Char} {w x y z : Nat} :
    hexDigit? a = some w → hexDigit? b = some x → hexDigit? c = some y → hexDigit? d = some z →
    IsCode [a, b, c, d] (w * 4096 + x * 256 + y * 16 + z)

def hexFour (p : Nat → Prop) : Language Char := {w | ∃ n, IsCode w n ∧ p n}

/-- an escaped code of a class -/
def code (p : Nat → Prop) : Language Char := char '\\' * (char 'u' * hexFour p)

def isHigh (n : Nat) : Prop := 0xD800 ≤ n ∧ n ≤ 0xDBFF
def isLow (n : Nat) : Prop := 0xDC00 ≤ n ∧ n ≤ 0xDFFF

def unescaped : Language Char :=
  one fun c => (0x20 ≤ c.toNat && c.toNat ≤ 0x21) || (0x23 ≤ c.toNat && c.toNat ≤ 0x5B) ||
    (0x5D ≤ c.toNat && c.toNat ≤ 0x10FFFF)

/-- a backslash and a letter or sign that names a character -/
def letter : Language Char := char '\\' * one fun c => c ∈ ['"', '\\', '/', 'b', 'f', 'n', 'r', 't']

/-- surrogates come in pairs -/
def character : Language Char :=
  unescaped + letter + code (fun n => ¬ isHigh n ∧ ¬ isLow n) + code isHigh * code isLow

def string : Language Char := char '"' * (character∗ * char '"')

/-! ### values -/

/-- words of the given languages, in order, with commas between them -/
def separated : List (Language Char) → Language Char
  | [] => 1
  | [l] => l
  | l :: m :: ls => l * (mark ',' * separated (m :: ls))

def member (key value : List Char) : Language Char := {key} * (mark ':' * {value})

/-- the texts of values; an array or object of any number of them is built from their texts -/
inductive IsValue : List Char → Prop
  | word {w : List Char} : w ∈ ["null".toList, "true".toList, "false".toList] → IsValue w
  | number {w : List Char} : w ∈ number → IsValue w
  | string {w : List Char} : w ∈ string → IsValue w
  | array {vs : List (List Char)} {w : List Char} : (∀ v ∈ vs, IsValue v) →
    w ∈ mark '[' * (separated (vs.map ({·})) * mark ']') → IsValue w
  | object {ms : List (List Char × List Char)} {w : List Char} : (∀ m ∈ ms, m.1 ∈ Grammar.string) →
    (∀ m ∈ ms, IsValue m.2) →
    w ∈ mark '\x7b' * (separated (ms.map fun m => member m.1 m.2) * mark '\x7d') → IsValue w

def value : Language Char := {w | IsValue w}

/-- a value and blanks around it -/
def jsonText : Language Char := ws * (value * ws)

/-! ## words -/

theorem mem_star_one {p : Char → Bool} {w : List Char} : w ∈ (one p)∗ ↔ ∀ c ∈ w, p c = true := by
  rw [Language.mem_kstar]
  constructor
  · rintro ⟨L, rfl, hL⟩ c hc
    obtain ⟨y, hy, hc⟩ := List.mem_flatten.1 hc
    obtain ⟨d, hd, rfl⟩ := hL y hy
    rw [List.mem_singleton.1 hc]
    exact hd
  · intro h
    refine ⟨w.map ([·]), ?_, ?_⟩
    · induction w with
      | nil => rfl
      | cons c w ih =>
        rw [List.map_cons, List.flatten_cons, ← ih fun d hd => h d (List.mem_cons_of_mem _ hd)]
        rfl
    · intro y hy
      obtain ⟨c, hc, rfl⟩ := List.mem_map.1 hy
      exact ⟨c, h c hc, rfl⟩

theorem append_mem_star {l : Language Char} {v w : List Char} (hv : v ∈ l) (hw : w ∈ l∗) :
    v ++ w ∈ l∗ := by
  rw [← Language.one_add_self_mul_kstar_eq_kstar]
  exact .inr ⟨v, hv, w, hw, rfl⟩

theorem mem_ws {w : List Char} : w ∈ ws ↔ ∀ c ∈ w, isBlank c = true := mem_star_one

theorem nil_mem_ws : [] ∈ ws := Language.nil_mem_kstar _

theorem append_mem_ws {v w : List Char} (hv : v ∈ ws) (hw : w ∈ ws) : v ++ w ∈ ws := by
  rw [mem_ws] at *
  intro c hc
  exact (List.mem_append.1 hc).elim (hv c) (hw c)

theorem mem_mark {c : Char} {w : List Char} :
    w ∈ mark c ↔ ∃ a ∈ ws, ∃ b ∈ ws, w = a ++ c :: b := by
  constructor
  · rintro ⟨_, ⟨a, ha, _, rfl, rfl⟩, b, hb, rfl⟩
    exact ⟨a, ha, b, hb, by simp⟩
  · rintro ⟨a, ha, b, hb, rfl⟩
    exact ⟨a ++ [c], ⟨a, ha, [c], rfl, rfl⟩, b, hb, by simp⟩

theorem mem_digits {w : List Char} : w ∈ digits ↔ w ≠ [] ∧ ∀ c ∈ w, c.isDigit = true := by
  constructor
  · rintro ⟨_, ⟨c, hc, rfl⟩, ds, hd, rfl⟩
    refine ⟨List.cons_ne_nil _ _, fun d hmem => ?_⟩
    rcases List.mem_cons.1 hmem with rfl | hmem
    · exact hc
    · exact mem_star_one.1 hd d hmem
  · rintro ⟨hne, h⟩
    cases w with
    | nil => exact absurd rfl hne
    | cons c ds =>
      exact ⟨[c], ⟨c, h c List.mem_cons_self, rfl⟩, ds,
        mem_star_one.2 fun d hd => h d (List.mem_cons_of_mem _ hd), rfl⟩

theorem mem_separated {l : Language Char} {ls : List (Language Char)} {w : List Char} :
    w ∈ separated (l :: ls) ↔ (ls = [] ∧ w ∈ l) ∨
      (ls ≠ [] ∧ ∃ v ∈ l, ∃ c ∈ mark ',', ∃ m ∈ separated ls, w = v ++ (c ++ m)) := by
  cases ls with
  | nil =>
    refine ⟨fun h => .inl ⟨rfl, h⟩, ?_⟩
    rintro (⟨-, h⟩ | ⟨h, -⟩)
    · exact h
    · exact absurd rfl h
  | cons l' ls =>
    constructor
    · rintro ⟨v, hv, _, ⟨c, hc, m, hm, rfl⟩, rfl⟩
      exact .inr ⟨List.cons_ne_nil _ _, v, hv, c, hc, m, hm, rfl⟩
    · rintro (⟨h, -⟩ | ⟨-, v, hv, c, hc, m, hm, rfl⟩)
      · cases h
      · exact ⟨v, hv, _, ⟨c, hc, m, hm, rfl⟩, rfl⟩

/-! ## elements and members -/

def elements : Language Char :=
  {w | ∃ vs ≠ [], (∀ v ∈ vs, IsValue v) ∧ w ∈ separated (vs.map ({·}))}

def members : Language Char :=
  {w | ∃ ms : List (List Char × List Char), ms ≠ [] ∧ (∀ m ∈ ms, m.1 ∈ Grammar.string) ∧
    (∀ m ∈ ms, IsValue m.2) ∧ w ∈ separated (ms.map fun m => member m.1 m.2)}

theorem mem_elements {v : List Char} (hv : IsValue v) : v ∈ elements :=
  ⟨[v], List.cons_ne_nil _ _, List.forall_mem_singleton.2 hv, rfl⟩

theorem append_mem_elements {v c m : List Char} (hv : IsValue v) (hc : c ∈ mark ',')
    (hm : m ∈ elements) : v ++ (c ++ m) ∈ elements := by
  obtain ⟨vs, hne, hvs, hm⟩ := hm
  have hmap : vs.map ({·} : List Char → Language Char) ≠ [] := by simpa using hne
  refine ⟨v :: vs, List.cons_ne_nil _ _, List.forall_mem_cons.2 ⟨hv, hvs⟩, ?_⟩
  exact mem_separated.2 (.inr ⟨hmap, v, rfl, c, hc, m, hm, rfl⟩)

theorem mem_members {k v w : List Char} (hk : k ∈ Grammar.string) (hv : IsValue v)
    (hw : w ∈ member k v) : w ∈ members :=
  ⟨[(k, v)], List.cons_ne_nil _ _, List.forall_mem_singleton.2 hk,
    List.forall_mem_singleton.2 hv, hw⟩

theorem append_mem_members {k v w c m : List Char} (hk : k ∈ Grammar.string) (hv : IsValue v)
    (hw : w ∈ member k v) (hc : c ∈ mark ',') (hm : m ∈ members) : w ++ (c ++ m) ∈ members := by
  obtain ⟨ms, hne, hks, hvs, hm⟩ := hm
  have hmap : ms.map (fun m => member m.1 m.2) ≠ [] := by simpa using hne
  refine ⟨(k, v) :: ms, List.cons_ne_nil _ _, List.forall_mem_cons.2 ⟨hk, hks⟩,
    List.forall_mem_cons.2 ⟨hv, hvs⟩, ?_⟩
  exact mem_separated.2 (.inr ⟨hmap, w, hw, c, hc, m, hm, rfl⟩)

theorem isValue_array {a m b : List Char} (ha : a ∈ ws) (hm : m ∈ optional elements) (hb : b ∈ ws) :
    IsValue ('[' :: (a ++ (m ++ (b ++ [']'])))) := by
  have hopen : '[' :: a ∈ mark '[' := mem_mark.2 ⟨[], nil_mem_ws, a, ha, rfl⟩
  have hclose : b ++ [']'] ∈ mark ']' := mem_mark.2 ⟨b, hb, [], nil_mem_ws, rfl⟩
  rcases hm with rfl | ⟨vs, -, hvs, hm⟩
  · exact .array (List.forall_mem_nil _) ⟨_, hopen, _, ⟨[], rfl, _, hclose, rfl⟩, rfl⟩
  · exact .array hvs ⟨_, hopen, _, ⟨m, hm, _, hclose, rfl⟩, rfl⟩

theorem isValue_object {a m b : List Char} (ha : a ∈ ws) (hm : m ∈ optional members) (hb : b ∈ ws) :
    IsValue ('\x7b' :: (a ++ (m ++ (b ++ ['\x7d'])))) := by
  have hopen : '\x7b' :: a ∈ mark '\x7b' := mem_mark.2 ⟨[], nil_mem_ws, a, ha, rfl⟩
  have hclose : b ++ ['\x7d'] ∈ mark '\x7d' := mem_mark.2 ⟨b, hb, [], nil_mem_ws, rfl⟩
  rcases hm with rfl | ⟨ms, -, hks, hvs, hm⟩
  · have hempty : ∀ m ∈ ([] : List (List Char × List Char)), IsValue m.2 := List.forall_mem_nil _
    exact .object (List.forall_mem_nil _) hempty ⟨_, hopen, _, ⟨[], rfl, _, hclose, rfl⟩, rfl⟩
  · exact .object hks hvs ⟨_, hopen, _, ⟨m, hm, _, hclose, rfl⟩, rfl⟩

end TagTree.Json.Grammar
