import TagTree.Diagnostic
import TagTree.Proofs.Values

/-!
# Accepted texts

The reader accepts the texts of the grammar and no others, except that it refuses a number that no
double holds.

* `sound`              what is read is in the grammar, by induction on the fuel;
* `Readable w`         the reader passes the word `w`, whatever may follow a value behind it;
* `readable`           every value of the grammar is readable, by induction on the value;
* `readTree_grammar`   texts are accepted and refused by the grammar.
-/

namespace TagTree
namespace Json.Reader
open Text Grammar
open scoped Computability

/-! ## what is read is in the grammar -/

theorem exists_of_number {cs : List Char} {negative : Bool} {n : Number} {r : Bytes}
    (h : number negative (encode cs) = .ok (n, r)) :
    ∃ u k, cs = u ++ k ∧ r = encode k ∧ u ∈ int * (optional frac * optional Grammar.exp) := by
  obtain ⟨x, hx, -⟩ := number_eq_ok h
  exact exists_of_numeral hx

theorem exists_of_scalar {cs : List Char} {b : UInt8} {t r : Bytes} {v : Json}
    (hs : encode cs = b :: t) (h : scalar b t = .ok (v, r)) :
    ∃ w k, cs = w ++ k ∧ r = encode k ∧ IsValue w := by
  rcases scalar_eq_ok h with ⟨rfl, s, -, hstring⟩ | ⟨rfl, n, -, hn⟩ | ⟨-, n, -, hn⟩ | ⟨w, hword, hw⟩
  · obtain ⟨l, rfl, rfl⟩ := exists_of_encode hs (by decide)
    obtain ⟨u, k, rfl, rfl, hu⟩ := exists_of_string hstring
    exact ⟨'"' :: u, k, rfl, rfl, .string hu⟩
  · obtain ⟨l, rfl, rfl⟩ := exists_of_encode hs (by decide)
    obtain ⟨u, k, rfl, rfl, hu⟩ := exists_of_number hn
    exact ⟨'-' :: u, k, rfl, rfl, .number ⟨['-'], .inr rfl, u, hu, rfl⟩⟩
  · rw [← hs] at hn
    obtain ⟨u, k, rfl, rfl, hu⟩ := exists_of_number hn
    exact ⟨u, k, rfl, rfl, .number ⟨[], .inl rfl, u, hu, rfl⟩⟩
  · have hascii : ∀ w ∈ ["null", "true", "false"], (∀ b ∈ bytes w, b < 0x80) ∧
        (bytes w).map (fun b => Char.ofNat b.toNat) ∈
          ["null".toList, "true".toList, "false".toList] := by
      decide +kernel
    have hmem : w ∈ ["null", "true", "false"] := by
      rcases hw with ⟨rfl, -⟩ | ⟨rfl, -⟩ | ⟨rfl, -⟩ <;> decide
    obtain ⟨hlt, hmem⟩ := hascii w hmem
    obtain ⟨k, rfl, rfl⟩ := exists_of_encode_append (hs.trans hword) hlt
    exact ⟨_, k, rfl, rfl, .word hmem⟩

/-- a value that is read is one of the grammar, behind blanks -/
def ValueSound (fuel : Nat) : Prop :=
  ∀ {cs : List Char} {v : Json} {r : Bytes}, value fuel (encode cs) = .ok (v, r) →
    ∃ a ∈ ws, ∃ w k, cs = a ++ (w ++ k) ∧ r = encode k ∧ IsValue w

def ItemsSound (fuel : Nat) : Prop :=
  ∀ {cs : List Char} {read : List Json} {v : Json} {r : Bytes},
    items fuel read (encode cs) = .ok (v, r) →
    ∃ a ∈ ws, ∃ m ∈ elements, ∃ b ∈ ws, ∃ k, cs = a ++ (m ++ (b ++ ']' :: k)) ∧ r = encode k

def FieldsSound (fuel : Nat) : Prop :=
  ∀ {cs : List Char} {read : List (String × Json)} {atEnd : Problem} {v : Json} {r : Bytes},
    fields fuel read atEnd (encode cs) = .ok (v, r) →
    ∃ m ∈ members, ∃ b ∈ ws, ∃ k, cs = m ++ (b ++ '\x7d' :: k) ∧ r = encode k

/-- blanks and a character behind them -/
theorem exists_of_skip {c : Char} (hc : c.toNat < 0x80) {cs : List Char} {s : Bytes}
    (h : skip (encode cs) = UInt8.ofNat c.toNat :: s) :
    ∃ a ∈ ws, ∃ k, cs = a ++ c :: k ∧ s = encode k := by
  obtain ⟨a, ha, l, rfl, hl⟩ := exists_ws_of_skip cs
  obtain ⟨k, rfl, rfl⟩ := exists_of_char hc (hl.symm.trans h)
  exact ⟨a, ha, k, rfl, rfl⟩

theorem ItemsSound.step {fuel : Nat} (hv : ValueSound fuel) (hi : ItemsSound fuel) :
    ItemsSound (fuel + 1) := by
  intro cs read v r h
  obtain ⟨x, t, hx, ht⟩ := items_eq_ok h
  obtain ⟨a, ha, w, l, rfl, rfl, hw⟩ := hv hx
  refine ⟨a, ha, ?_⟩
  rcases ht with ⟨hclose, -⟩ | ⟨u, hcomma, hrest⟩
  · obtain ⟨b, hb, k, rfl, rfl⟩ := exists_of_skip (c := ']') (by decide) hclose
    exact ⟨w, mem_elements hw, b, hb, k, rfl, rfl⟩
  · obtain ⟨b, hb, l, rfl, rfl⟩ := exists_of_skip (c := ',') (by decide) hcomma
    obtain ⟨c, hc, l, rfl, hl⟩ := exists_ws_of_skip l
    rw [hl] at hrest
    obtain ⟨d, hd, m, hm, e, he, k, rfl, rfl⟩ := hi hrest
    have hmark : b ++ ',' :: (c ++ d) ∈ mark ',' :=
      mem_mark.2 ⟨b, hb, c ++ d, append_mem_ws hc hd, rfl⟩
    exact ⟨_, append_mem_elements hw hmark hm, e, he, k, by simp, rfl⟩

theorem FieldsSound.step {fuel : Nat} (hv : ValueSound fuel) (hf : FieldsSound fuel) :
    FieldsSound (fuel + 1) := by
  intro cs read atEnd v r h
  obtain ⟨key, x, t, u, hkey, hx, hu⟩ := fields_eq_ok h
  obtain ⟨s, t', hs, hstring, hcolon⟩ := key_eq_ok hkey
  obtain ⟨l, rfl, rfl⟩ := exists_of_char (c := '"') (by decide) hs
  obtain ⟨q, l, rfl, rfl, hq⟩ := exists_of_string hstring
  obtain ⟨b, hb, l, rfl, rfl⟩ := exists_of_skip (c := ':') (by decide) hcolon
  obtain ⟨c, hc, w, l, rfl, rfl, hw⟩ := hv hx
  have hmember : '"' :: q ++ (b ++ ':' :: c ++ w) ∈ member ('"' :: q) w :=
    ⟨_, rfl, _, ⟨_, mem_mark.2 ⟨b, hb, c, hc, rfl⟩, w, rfl, rfl⟩, rfl⟩
  rcases hu with ⟨hclose, -⟩ | ⟨y, hcomma, hrest⟩
  · obtain ⟨d, hd, k, rfl, rfl⟩ := exists_of_skip (c := '\x7d') (by decide) hclose
    exact ⟨_, mem_members hq hw hmember, d, hd, k, by simp, rfl⟩
  · obtain ⟨d, hd, l, rfl, rfl⟩ := exists_of_skip (c := ',') (by decide) hcomma
    obtain ⟨e, he, l, rfl, hl⟩ := exists_ws_of_skip l
    rw [hl] at hrest
    obtain ⟨m, hm, f, hf, k, rfl, rfl⟩ := hf hrest
    have hmark : d ++ ',' :: e ∈ mark ',' := mem_mark.2 ⟨d, hd, e, he, rfl⟩
    exact ⟨_, append_mem_members hq hw hmember hmark hm, f, hf, k, by simp, rfl⟩

theorem ValueSound.step {fuel : Nat} (hi : ItemsSound fuel) (hf : FieldsSound fuel) :
    ValueSound (fuel + 1) := by
  intro cs v r h
  obtain ⟨a, ha, l, rfl, hl⟩ := exists_ws_of_skip cs
  obtain ⟨b, t, hs, hread⟩ := value_eq_ok h
  refine ⟨a, ha, ?_⟩
  rw [hl] at hs
  rcases hread with ⟨rfl, hread⟩ | ⟨rfl, hread⟩ | hread
  · obtain ⟨l, rfl, rfl⟩ := exists_of_char (c := '[') (by decide) hs
    rcases hread with ⟨hclose, -⟩ | hitems
    · obtain ⟨c, hc, k, rfl, rfl⟩ := exists_of_skip (c := ']') (by decide) hclose
      exact ⟨_, k, by simp, rfl, isValue_array hc (.inl rfl) nil_mem_ws⟩
    · obtain ⟨c, hc, l, rfl, hl⟩ := exists_ws_of_skip l
      rw [hl] at hitems
      obtain ⟨d, hd, m, hm, e, he, k, rfl, rfl⟩ := hi hitems
      exact ⟨_, k, by simp, rfl, isValue_array (append_mem_ws hc hd) (.inr hm) he⟩
  · obtain ⟨l, rfl, rfl⟩ := exists_of_char (c := '\x7b') (by decide) hs
    rcases hread with ⟨hclose, -⟩ | hfields
    · obtain ⟨c, hc, k, rfl, rfl⟩ := exists_of_skip (c := '\x7d') (by decide) hclose
      exact ⟨_, k, by simp, rfl, isValue_object hc (.inl rfl) nil_mem_ws⟩
    · obtain ⟨c, hc, l, rfl, hl⟩ := exists_ws_of_skip l
      rw [hl] at hfields
      obtain ⟨m, hm, e, he, k, rfl, rfl⟩ := hf hfields
      exact ⟨_, k, by simp, rfl, isValue_object hc (.inr hm) he⟩
  · obtain ⟨w, k, rfl, rfl, hw⟩ := exists_of_scalar hs hread
    exact ⟨w, k, rfl, rfl, hw⟩

theorem sound (fuel : Nat) : ValueSound fuel ∧ ItemsSound fuel ∧ FieldsSound fuel := by
  induction fuel with
  | zero =>
    refine ⟨?_, ?_, ?_⟩
    · intro cs v r h
      cases h
    · intro cs read v r h
      cases h
    · intro cs read atEnd v r h
      cases h
  | succ fuel ih =>
    obtain ⟨hv, hi, hf⟩ := ih
    exact ⟨ValueSound.step hi hf, ItemsSound.step hv hi, FieldsSound.step hv hf⟩

/-! ## what is in the grammar is read -/

/-- the reader stands behind a value, up to blanks, or has met a number out of range -/
def Passes (x : Except Fault (Json × Bytes)) (k : List Char) : Prop :=
  (∃ v r, x = .ok (v, r) ∧ skip r = skip (encode k)) ∨ ∃ left, x = .error ⟨.numberOutOfRange, left⟩

theorem Passes.of_ws {x : Except Fault (Json × Bytes)} {b k : List Char} (h : Passes x (b ++ k))
    (hb : b ∈ ws) : Passes x k := by
  rcases h with ⟨v, r, hx, hr⟩ | h
  · exact .inl ⟨v, r, hx, hr.trans (skip_ws hb k)⟩
  · exact .inr h

/-- whatever follows a value, the reader passes it, given fuel for the whole text -/
def Readable (w : List Char) : Prop :=
  ∀ (fuel : Nat) (k : List Char), Ends k → 2 * (encode (w ++ k)).length ≤ fuel →
    Passes (value fuel (encode (w ++ k))) k

/-! ### scalars -/

theorem readable_of_scalar {c : Char} {u : List Char} (hlt : c.toNat < 0x80)
    (hc : Grammar.isBlank c = false ∧ c ≠ '[' ∧ c ≠ '\x7b')
    (h : ∀ {k}, Ends k → Passes (scalar (UInt8.ofNat c.toNat) (encode (u ++ k))) k) :
    Readable (c :: u) := by
  intro fuel k hk hfuel
  have hlen := length_encode_lt [] c (u ++ k)
  rw [List.nil_append, ← List.cons_append] at hlen
  obtain ⟨fuel, rfl⟩ := Nat.exists_eq_add_of_le' (by omega : 1 ≤ fuel)
  rw [List.cons_append, value_of_scalar hlt hc]
  exact h hk

theorem readable_word {w : List Char} (h : w ∈ ["null".toList, "true".toList, "false".toList]) :
    Readable w := by
  simp only [List.mem_cons, List.not_mem_nil, or_false] at h
  rcases h with rfl | rfl | rfl
  · exact readable_of_scalar (c := 'n') (by decide) (by decide) fun _ =>
      .inl ⟨.null, _, rfl, rfl⟩
  · exact readable_of_scalar (c := 't') (by decide) (by decide) fun _ =>
      .inl ⟨.bool true, _, rfl, rfl⟩
  · exact readable_of_scalar (c := 'f') (by decide) (by decide) fun _ =>
      .inl ⟨.bool false, _, rfl, rfl⟩

theorem readable_string {w : List Char} (h : w ∈ Grammar.string) : Readable w := by
  obtain ⟨u, t, rfl, hstring⟩ := exists_string h
  refine readable_of_scalar (by decide) (by decide) fun {k} _ => .inl ⟨.string t, encode k, ?_, rfl⟩
  show scalar Ascii.quote (encode (u ++ k)) = _
  rw [scalar_quote, hstring]
  rfl

/-- a numeral is a number, or out of range -/
theorem passes_number {negative : Bool} {s : Bytes} {x : Numeral} {k : List Char}
    (h : numeral negative s = .ok (x, encode k)) :
    Passes ((number negative s).map fun x => (.number x.1, x.2)) k := by
  rw [number, h]
  cases hx : x.value with
  | ok n => exact .inl ⟨.number n, encode k, by simp [bind, Except.bind, hx, Except.map], rfl⟩
  | error unread =>
    exact .inr ⟨(encode k).length + unread, by simp [bind, Except.bind, hx, Except.map]⟩

theorem readable_number {w : List Char} (h : w ∈ Grammar.number) : Readable w := by
  obtain ⟨_, rfl | rfl, u, hu, rfl⟩ := h
  · have hparts := hu
    obtain ⟨i, hi, v, -, rfl⟩ := hparts
    obtain ⟨c, j, rfl, hc⟩ := exists_digit_of_int hi
    show Readable (c :: (j ++ v))
    refine readable_of_scalar (digitClass.char c hc) (start_of_digit hc) fun {k} hk => ?_
    obtain ⟨x, hx⟩ := exists_numeral hu hk false
    rw [scalar_of_digit hc]
    exact passes_number hx
  · refine readable_of_scalar (c := '-') (by decide) (by decide) fun {k} hk => ?_
    obtain ⟨x, hx⟩ := exists_numeral hu hk true
    show Passes (scalar Ascii.minus (encode (u ++ k))) k
    rw [scalar_minus]
    exact passes_number hx

/-! ### arrays and objects -/

theorem Passes.exists_head {fuel : Nat} {s : Bytes} {k : List Char}
    (h : Passes (value (fuel + 1) s) k) : ∃ c r, skip s = c :: r ∧ c ≠ Ascii.closeBracket := by
  rcases head_or_error fuel s with hhead | ⟨p, t, hp, hvalue⟩
  · exact hhead
  · rw [hvalue] at h
    obtain ⟨_, _, hok, -⟩ | ⟨_, herror⟩ := h
    · cases hok
    · rcases hp with rfl | rfl <;> cases herror

theorem Readable.exists_head {w : List Char} (h : Readable w) {k : List Char} (hk : Ends k) :
    ∃ c r, skip (encode (w ++ k)) = c :: r ∧ c ≠ Ascii.closeBracket :=
  Passes.exists_head (h _ k hk (Nat.le_succ _))

/-- a list of words starts with the first, and no number goes on behind it -/
theorem exists_of_separated {v m k : List Char} {ls : List (Language Char)}
    (h : m ∈ separated ({v} :: ls)) (hk : Ends k) : ∃ l, m ++ k = v ++ l ∧ Ends l := by
  rcases mem_separated.1 h with ⟨-, rfl⟩ | ⟨-, _, rfl, c, hc, n, -, rfl⟩
  · exact ⟨k, rfl, hk⟩
  · obtain ⟨a, ha, b, -, rfl⟩ := mem_mark.1 hc
    exact ⟨a ++ ',' :: (b ++ (n ++ k)), by simp, ends_ws ha (ends_cons (by decide) _)⟩

theorem passes_items_last {v b : List Char} (hv : Readable v) (hb : b ∈ ws) (k : List Char)
    {fuel : Nat} (hfuel : 2 * (encode (v ++ (b ++ ']' :: k))).length < fuel) (read : List Json) :
    Passes (items fuel read (skip (encode (v ++ (b ++ ']' :: k))))) k := by
  have hends : Ends (b ++ ']' :: k) := ends_ws hb (ends_cons (by decide) k)
  have hlen := length_encode_lt (v ++ b) ']' k
  rw [List.append_assoc] at hlen
  obtain ⟨fuel, rfl⟩ := Nat.exists_eq_add_of_le' (by omega : 2 ≤ fuel)
  rcases hv (fuel + 1) _ hends (by omega) with ⟨x, r, hx, hr⟩ | ⟨left, he⟩
  · refine .inl ⟨_, _, items_last ((value_skip fuel _).trans hx) ?_, rfl⟩
    rw [hr]
    exact skip_mark hb (by decide) k
  · exact .inr ⟨left, items_error ((value_skip fuel _).trans he)⟩

theorem passes_items_next {v a b t : List Char} (hv : Readable v) (ha : a ∈ ws) (hb : b ∈ ws)
    (hhead : ∃ c r, skip (encode t) = c :: r ∧ c ≠ Ascii.closeBracket) {k : List Char}
    (ht : ∀ {fuel : Nat} (read : List Json), 2 * (encode t).length < fuel →
      Passes (items fuel read (skip (encode t))) k) {fuel : Nat}
    (hfuel : 2 * (encode (v ++ (a ++ ',' :: (b ++ t)))).length < fuel) (read : List Json) :
    Passes (items fuel read (skip (encode (v ++ (a ++ ',' :: (b ++ t)))))) k := by
  have hends : Ends (a ++ ',' :: (b ++ t)) := ends_ws ha (ends_cons (by decide) _)
  have hlen := length_encode_lt (v ++ a) ',' (b ++ t)
  have hle := length_encode_append b t
  rw [List.append_assoc] at hlen
  obtain ⟨fuel, rfl⟩ := Nat.exists_eq_add_of_le' (by omega : 2 ≤ fuel)
  rcases hv (fuel + 1) _ hends (by omega) with ⟨x, r, hx, hr⟩ | ⟨left, he⟩
  · obtain ⟨c, s, hs, hc⟩ := hhead
    have hcomma : skip r = Ascii.comma :: encode (b ++ t) := by
      rw [hr]
      exact skip_mark ha (by decide) _
    rw [← skip_ws hb] at hs
    rw [items_next ((value_skip fuel _).trans hx) hcomma hs hc, skip_ws hb]
    exact ht _ (by omega)
  · exact .inr ⟨left, items_error ((value_skip fuel _).trans he)⟩

theorem passes_items {vs : List (List Char)} (hne : vs ≠ []) (hvs : ∀ v ∈ vs, Readable v)
    {m b : List Char} (hm : m ∈ separated (vs.map ({·}))) (hb : b ∈ ws) (k : List Char) {fuel : Nat}
    (hfuel : 2 * (encode (m ++ (b ++ ']' :: k))).length < fuel) (read : List Json) :
    Passes (items fuel read (skip (encode (m ++ (b ++ ']' :: k))))) k := by
  induction vs generalizing m fuel read with
  | nil => exact absurd rfl hne
  | cons v vs ih =>
    obtain ⟨hv, htail⟩ := List.forall_mem_cons.1 hvs
    rcases mem_separated.1 hm with ⟨-, rfl⟩ | ⟨hmap, v, rfl, _, hc, n, hn, rfl⟩
    · exact passes_items_last hv hb k hfuel read
    · obtain ⟨a, ha, a', ha', rfl⟩ := mem_mark.1 hc
      have happend : v ++ (a ++ ',' :: a' ++ n) ++ (b ++ ']' :: k) =
          v ++ (a ++ ',' :: (a' ++ (n ++ (b ++ ']' :: k)))) := by simp
      rw [happend] at hfuel ⊢
      -- the reader looks for a bracket behind the comma; the next element does not start with one
      cases vs with
      | nil => exact absurd rfl hmap
      | cons u vs =>
        have hclose : Ends (b ++ ']' :: k) := ends_ws hb (ends_cons (by decide) k)
        obtain ⟨l, hl, hends⟩ := exists_of_separated hn hclose
        have hhead := (htail u List.mem_cons_self).exists_head hends
        rw [← hl] at hhead
        exact passes_items_next hv ha ha' hhead
          (fun read hfuel => ih (List.cons_ne_nil _ _) htail hn hfuel read) hfuel read

theorem readable_array {vs : List (List Char)} (hvs : ∀ v ∈ vs, Readable v) {w : List Char}
    (hw : w ∈ mark '[' * (separated (vs.map ({·})) * mark ']')) : Readable w := by
  obtain ⟨_, hopen, _, ⟨m, hm, _, hclose, rfl⟩, rfl⟩ := hw
  obtain ⟨a, ha, a', ha', rfl⟩ := mem_mark.1 hopen
  obtain ⟨b, hb, b', hb', rfl⟩ := mem_mark.1 hclose
  intro fuel k _ hfuel
  have happend : a ++ '[' :: a' ++ (m ++ (b ++ ']' :: b')) ++ k =
      a ++ '[' :: (a' ++ (m ++ (b ++ ']' :: (b' ++ k)))) := by simp
  have hlen := length_encode_lt a '[' (a' ++ (m ++ (b ++ ']' :: (b' ++ k))))
  have hle := length_encode_append a' (m ++ (b ++ ']' :: (b' ++ k)))
  beta_reduce at hfuel ⊢
  rw [happend] at hfuel ⊢
  obtain ⟨fuel, rfl⟩ := Nat.exists_eq_add_of_le' (by omega : 1 ≤ fuel)
  have hskip : skip (encode (a ++ '[' :: (a' ++ (m ++ (b ++ ']' :: (b' ++ k)))))) =
      Ascii.openBracket :: encode (a' ++ (m ++ (b ++ ']' :: (b' ++ k)))) :=
    skip_mark ha (by decide) _
  cases vs with
  | nil =>
    cases hm
    refine .inl ⟨_, _, value_emptyArray hskip ?_, skip_ws hb' k⟩
    rw [skip_ws ha']
    exact skip_mark hb (by decide) _
  | cons v vs =>
    have hends : Ends (b ++ ']' :: (b' ++ k)) := ends_ws hb (ends_cons (by decide) _)
    obtain ⟨l, hl, hl'⟩ := exists_of_separated hm hends
    obtain ⟨c, r, hc, hne⟩ := (hvs v List.mem_cons_self).exists_head hl'
    rw [← hl, ← skip_ws ha'] at hc
    rw [value_array hskip hc hne, skip_ws ha']
    have hlt : 2 * (encode (m ++ (b ++ ']' :: (b' ++ k)))).length < fuel := by omega
    exact (passes_items (List.cons_ne_nil v vs) hvs hm hb (b' ++ k) hlt []).of_ws hb'

theorem exists_key {q v w : List Char} (hq : q ∈ Grammar.string) (hw : w ∈ member q v) :
    ∃ u a t, w = '"' :: u ∧ a ∈ ws ∧ (∀ l, (encode (v ++ l)).length < (encode (w ++ l)).length) ∧
      ∀ atEnd l, key atEnd (skip (encode (w ++ l))) = .ok (t, encode (a ++ (v ++ l))) := by
  obtain ⟨q, rfl, _, ⟨_, hcolon, v, rfl, rfl⟩, rfl⟩ := hw
  obtain ⟨a, ha, b, hb, rfl⟩ := mem_mark.1 hcolon
  obtain ⟨u, t, rfl, hstring⟩ := exists_string hq
  have happend : ∀ l, '"' :: u ++ (a ++ ':' :: b ++ v) ++ l =
      '"' :: (u ++ (a ++ ':' :: (b ++ (v ++ l)))) := by simp
  refine ⟨u ++ (a ++ ':' :: b ++ v), b, t, rfl, hb, ?_, ?_⟩
  · intro l
    have hlt := length_encode_lt ('"' :: (u ++ a)) ':' (b ++ (v ++ l))
    have hle := length_encode_append b (v ++ l)
    rw [show '"' :: (u ++ a) ++ ':' :: (b ++ (v ++ l)) =
      '"' :: (u ++ (a ++ ':' :: (b ++ (v ++ l)))) by simp, ← happend] at hlt
    exact Nat.lt_of_le_of_lt hle hlt
  · intro atEnd l
    beta_reduce
    rw [happend, skip_cons (by decide)]
    exact key_colon (hstring _) (skip_mark ha (by decide) _)

theorem passes_fields_last {q v w b : List Char} (hq : q ∈ Grammar.string) (hv : Readable v)
    (hw : w ∈ member q v) (hb : b ∈ ws) (k : List Char) {fuel : Nat}
    (hfuel : 2 * (encode (w ++ (b ++ '\x7d' :: k))).length < fuel) (read : List (String × Json))
    (atEnd : Problem) :
    Passes (fields fuel read atEnd (skip (encode (w ++ (b ++ '\x7d' :: k))))) k := by
  obtain ⟨u, a, t, -, ha, hlen, hkey⟩ := exists_key hq hw
  have hends : Ends (b ++ '\x7d' :: k) := ends_ws hb (ends_cons (by decide) k)
  have hlt := hlen (b ++ '\x7d' :: k)
  obtain ⟨fuel, rfl⟩ := Nat.exists_eq_add_of_le' (by omega : 2 ≤ fuel)
  rcases hv (fuel + 1) _ hends (by omega) with ⟨x, r, hx, hr⟩ | ⟨left, he⟩
  · refine .inl ⟨_, _, fields_last (hkey atEnd _) ((value_ws ha fuel _).trans hx) ?_, rfl⟩
    rw [hr]
    exact skip_mark hb (by decide) k
  · exact .inr ⟨left, fields_error (hkey atEnd _) ((value_ws ha fuel _).trans he)⟩

theorem passes_fields_next {q v w a b t : List Char} (hq : q ∈ Grammar.string) (hv : Readable v)
    (hw : w ∈ member q v) (ha : a ∈ ws) (hb : b ∈ ws) {k : List Char}
    (hhead : ∃ c r, skip (encode t) = c :: r ∧ c ≠ Ascii.closeBrace)
    (ht : ∀ {fuel : Nat} (read : List (String × Json)) (atEnd : Problem),
      2 * (encode t).length < fuel → Passes (fields fuel read atEnd (skip (encode t))) k)
    {fuel : Nat} (hfuel : 2 * (encode (w ++ (a ++ ',' :: (b ++ t)))).length < fuel)
    (read : List (String × Json)) (atEnd : Problem) :
    Passes (fields fuel read atEnd (skip (encode (w ++ (a ++ ',' :: (b ++ t)))))) k := by
  obtain ⟨u, a', text, -, ha', hlen, hkey⟩ := exists_key hq hw
  have hends : Ends (a ++ ',' :: (b ++ t)) := ends_ws ha (ends_cons (by decide) _)
  have hlt := hlen (a ++ ',' :: (b ++ t))
  have hlt' := length_encode_lt (v ++ a) ',' (b ++ t)
  have hle := length_encode_append b t
  rw [List.append_assoc] at hlt'
  obtain ⟨fuel, rfl⟩ := Nat.exists_eq_add_of_le' (by omega : 2 ≤ fuel)
  rcases hv (fuel + 1) _ hends (by omega) with ⟨x, r, hx, hr⟩ | ⟨left, he⟩
  · obtain ⟨c, s, hs, hc⟩ := hhead
    have hcomma : skip r = Ascii.comma :: encode (b ++ t) := by
      rw [hr]
      exact skip_mark ha (by decide) _
    rw [← skip_ws hb] at hs
    rw [fields_next (hkey atEnd _) ((value_ws ha' fuel _).trans hx) hcomma hs hc, skip_ws hb]
    exact ht _ _ (by omega)
  · exact .inr ⟨left, fields_error (hkey atEnd _) ((value_ws ha' fuel _).trans he)⟩

theorem exists_quote {q v : List Char} (hq : q ∈ Grammar.string) {ls : List (Language Char)}
    {m : List Char} (hm : m ∈ separated (member q v :: ls)) (k : List Char) :
    ∃ c r, skip (encode (m ++ k)) = c :: r ∧ c ≠ Ascii.closeBrace := by
  have hstart : ∃ u, m = '"' :: u := by
    rcases mem_separated.1 hm with ⟨-, hw⟩ | ⟨-, _, hw, c, -, n, -, rfl⟩
    · obtain ⟨u, a, t, rfl, -⟩ := exists_key hq hw
      exact ⟨u, rfl⟩
    · obtain ⟨u, a, t, rfl, -⟩ := exists_key hq hw
      exact ⟨u ++ (c ++ n), rfl⟩
  obtain ⟨u, rfl⟩ := hstart
  exact ⟨Ascii.quote, encode (u ++ k), skip_cons (by decide) _, by decide⟩

theorem passes_fields {ms : List (List Char × List Char)} (hne : ms ≠ [])
    (hqs : ∀ m ∈ ms, m.1 ∈ Grammar.string) (hvs : ∀ m ∈ ms, Readable m.2) {m b : List Char}
    (hm : m ∈ separated (ms.map fun m => member m.1 m.2)) (hb : b ∈ ws) (k : List Char) {fuel : Nat}
    (hfuel : 2 * (encode (m ++ (b ++ '\x7d' :: k))).length < fuel) (read : List (String × Json))
    (atEnd : Problem) :
    Passes (fields fuel read atEnd (skip (encode (m ++ (b ++ '\x7d' :: k))))) k := by
  induction ms generalizing m fuel read atEnd with
  | nil => exact absurd rfl hne
  | cons x ms ih =>
    obtain ⟨hq, hqtail⟩ := List.forall_mem_cons.1 hqs
    obtain ⟨hv, hvtail⟩ := List.forall_mem_cons.1 hvs
    rcases mem_separated.1 hm with ⟨-, hw⟩ | ⟨hmap, w, hw, _, hc, n, hn, rfl⟩
    · exact passes_fields_last hq hv hw hb k hfuel read atEnd
    · obtain ⟨a, ha, a', ha', rfl⟩ := mem_mark.1 hc
      have happend : w ++ (a ++ ',' :: a' ++ n) ++ (b ++ '\x7d' :: k) =
          w ++ (a ++ ',' :: (a' ++ (n ++ (b ++ '\x7d' :: k)))) := by simp
      rw [happend] at hfuel ⊢
      cases ms with
      | nil => exact absurd rfl hmap
      | cons y ms =>
        have hhead := exists_quote (hqtail y List.mem_cons_self) hn (b ++ '\x7d' :: k)
        exact passes_fields_next hq hv hw ha ha' hhead
          (fun read atEnd hfuel => ih (List.cons_ne_nil _ _) hqtail hvtail hn hfuel read atEnd)
          hfuel read atEnd

theorem readable_object {ms : List (List Char × List Char)} (hqs : ∀ m ∈ ms, m.1 ∈ Grammar.string)
    (hvs : ∀ m ∈ ms, Readable m.2) {w : List Char}
    (hw : w ∈ mark '\x7b' * (separated (ms.map fun m => member m.1 m.2) * mark '\x7d')) :
    Readable w := by
  obtain ⟨_, hopen, _, ⟨m, hm, _, hclose, rfl⟩, rfl⟩ := hw
  obtain ⟨a, ha, a', ha', rfl⟩ := mem_mark.1 hopen
  obtain ⟨b, hb, b', hb', rfl⟩ := mem_mark.1 hclose
  intro fuel k _ hfuel
  have happend : a ++ '\x7b' :: a' ++ (m ++ (b ++ '\x7d' :: b')) ++ k =
      a ++ '\x7b' :: (a' ++ (m ++ (b ++ '\x7d' :: (b' ++ k)))) := by simp
  have hlen := length_encode_lt a '\x7b' (a' ++ (m ++ (b ++ '\x7d' :: (b' ++ k))))
  have hle := length_encode_append a' (m ++ (b ++ '\x7d' :: (b' ++ k)))
  beta_reduce at hfuel ⊢
  rw [happend] at hfuel ⊢
  obtain ⟨fuel, rfl⟩ := Nat.exists_eq_add_of_le' (by omega : 1 ≤ fuel)
  have hskip : skip (encode (a ++ '\x7b' :: (a' ++ (m ++ (b ++ '\x7d' :: (b' ++ k)))))) =
      Ascii.openBrace :: encode (a' ++ (m ++ (b ++ '\x7d' :: (b' ++ k)))) :=
    skip_mark ha (by decide) _
  cases ms with
  | nil =>
    cases hm
    refine .inl ⟨_, _, value_emptyObject hskip ?_, skip_ws hb' k⟩
    rw [skip_ws ha']
    exact skip_mark hb (by decide) _
  | cons x ms =>
    obtain ⟨c, r, hc, hne⟩ := exists_quote (hqs x List.mem_cons_self) hm (b ++ '\x7d' :: (b' ++ k))
    rw [← skip_ws ha'] at hc
    rw [value_object hskip hc hne, skip_ws ha']
    have hlt : 2 * (encode (m ++ (b ++ '\x7d' :: (b' ++ k)))).length < fuel := by omega
    have hne := List.cons_ne_nil x ms
    exact (passes_fields hne hqs hvs hm hb (b' ++ k) hlt [] .endInObject).of_ws hb'

/-- every value of the grammar is passed -/
theorem readable {w : List Char} (h : IsValue w) : Readable w := by
  -- arrays and objects hold lists of values, so each value of the list has its own hypothesis
  induction h with
  | word h => exact readable_word h
  | number h => exact readable_number h
  | string h => exact readable_string h
  | array _ hw ih => exact readable_array ih hw
  | object hqs _ hw ih => exact readable_object hqs ih hw

/-! ## whole texts -/

/-- an accepted text is in the grammar -/
theorem mem_jsonText {cs : List Char} {v : Json} (h : document (encode cs) = .ok v) :
    cs ∈ jsonText := by
  obtain ⟨r, hv, hr⟩ := document_eq_ok h
  obtain ⟨a, ha, w, k, rfl, rfl, hw⟩ := (sound _).1 hv
  obtain ⟨b, hb, l, rfl, hl⟩ := exists_ws_of_skip k
  have hnil : l = [] := by
    cases l with
    | nil => rfl
    | cons c l =>
      have hlen := length_encode_lt [] c l
      rw [List.nil_append, ← hl, hr] at hlen
      exact absurd hlen (Nat.not_lt_zero _)
  subst hnil
  exact ⟨a, ha, _, ⟨w, hw, b, hb, by simp⟩, rfl⟩

/-- a text of the grammar is accepted, or holds a number out of range -/
theorem document_of_mem_jsonText {cs : List Char} (h : cs ∈ jsonText) :
    (∃ v, document (encode cs) = .ok v) ∨
      ∃ left, document (encode cs) = .error ⟨.numberOutOfRange, left⟩ := by
  obtain ⟨a, ha, _, ⟨w, hw, b, hb, rfl⟩, rfl⟩ := h
  have hends : Ends b := by
    have hnil : Ends [] := fun c hc => nomatch hc
    rw [← List.append_nil b]
    exact ends_ws hb hnil
  have hle := length_encode_append a (w ++ b)
  have hvalue := value_ws ha (2 * (encode (a ++ (w ++ b))).length + 1) (w ++ b)
  beta_reduce
  rcases readable hw (2 * (encode (a ++ (w ++ b))).length + 1 + 1) b hends (by omega) with
    ⟨v, r, hx, hr⟩ | ⟨left, he⟩
  · refine .inl ⟨v, document_of_value (hvalue.trans hx) ?_⟩
    rw [hr, ← List.append_nil b, skip_ws hb]
    rfl
  · refine .inr ⟨left, ?_⟩
    simp only [document, hvalue.trans he, bind, Except.bind]

end Json.Reader

open Json

theorem message_numberOutOfRange {e : ReadError} (h : e.problem = .numberOutOfRange) :
    e.message = s!"number out of range at line {e.position.line} column {e.position.column}" := by
  have hlit : "number out of range" ++ " at line " = "number out of range at line " := by decide
  simp only [ReadError.message, h, Problem.message, toString, ← hlit]

/-- a text that is accepted is in the grammar; a text of the grammar is accepted, unless a number is
out of range; and every refusal names the fault below it and a place inside the text -/
theorem readTree_grammar (text : String) :
    (∀ t, readTree text = .ok t → text.toList ∈ Grammar.jsonText) ∧
    (text.toList ∈ Grammar.jsonText → (∃ t, readTree text = .ok t) ∨
      ∃ (d : Diagnostic) (line column : Nat), readTree text = .error d ∧
        d.cause = .parse
          ("invalid tagged tree: " ++ s!"number out of range at line {line} column {column}")
          (some s!"number out of range at line {line} column {column}")) ∧
    (∀ d, readTree text = .error d → ∃ e, Json.read text = .error e ∧
      d.cause = .parse ("invalid tagged tree: " ++ e.message) (some e.message) ∧
      d.context.span = some ⟨e.offset, e.offset⟩ ∧ e.offset ≤ (Text.bytes text).length) := by
  rw [readTree, Reader.read_eq]
  refine ⟨?_, ?_, ?_⟩
  · intro t ht
    cases hd : Reader.document (Text.encode text.toList) with
    | ok v => exact Reader.mem_jsonText hd
    | error f =>
      rw [hd] at ht
      cases ht
  · intro hmem
    rcases Reader.document_of_mem_jsonText hmem with ⟨v, hv⟩ | ⟨left, he⟩
    · rw [hv]
      exact .inl ⟨v, rfl⟩
    · rw [he]
      let e := Fault.locate (Text.encode text.toList) ⟨.numberOutOfRange, left⟩
      have hmessage : e.message = _ := message_numberOutOfRange rfl
      refine .inr ⟨.ofReadError e, e.position.line, e.position.column, rfl, ?_⟩
      rw [← hmessage]
      rfl
  · intro d hd
    cases hdoc : Reader.document (Text.encode text.toList) with
    | ok v =>
      rw [hdoc] at hd
      cases hd
    | error f =>
      rw [hdoc] at hd
      cases hd
      refine ⟨f.locate (Text.encode text.toList), rfl, rfl, rfl, ?_⟩
      rw [Text.bytes_eq_encode]
      exact Text.offset_le _ _ _

end TagTree
