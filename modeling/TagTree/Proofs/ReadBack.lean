import TagTree.Proofs.Blame
import TagTree.Proofs.SortedKeys

/-!
# Written trees are read back

Writing a tree gives tokens; a text of these tokens with blanks anywhere around them is read as the
tree.  Numbers must be integers: a double may be read as one of its neighbours.

* `Spaced ts s`         the text `s` consists of the tokens `ts` and blanks;
* `spells_escapeChar`   a character is read as it was, escaped or not;
* `number_toDigits`     so is an integer of 64 bits;
* `ReadsBack v`         the value is read from every spacing of its tokens;
* `readTree_compact`    reading the compact text of a tree changes nothing;
* `readTree_spaced`     a tree is read from all spacings, and its part at fault from a refusal.
-/

namespace TagTree
namespace Json
open Text Grammar
open scoped Computability
namespace Reader

/-! ## strings -/

theorem isCode_hexPair {n : Nat} (h : n < 0x20) : IsCode ('0' :: '0' :: hexPair n) n := by
  have hall : ∀ n < 0x20, hexDigit? (Nat.digitChar (n / 16 % 16)) = some (n / 16) ∧
      hexDigit? (Nat.digitChar (n % 16)) = some (n % 16) := by decide
  obtain ⟨hhigh, hlow⟩ := hall n h
  have hzero : hexDigit? '0' = some 0 := by decide
  have hcode := IsCode.digits hzero hzero hhigh hlow
  have hn : 0 * 4096 + 0 * 256 + n / 16 * 16 + n % 16 = n := by omega
  rw [hn] at hcode
  exact hcode

theorem spells_escapeChar (c : Char) : Spells (escapeChar c) (charBytes c) := by
  unfold escapeChar
  split
  · exact Spells.escape fun s => rfl
  · exact Spells.escape fun s => rfl
  · exact Spells.escape fun s => rfl
  · exact Spells.escape fun s => rfl
  · exact Spells.escape fun s => rfl
  · exact Spells.escape fun s => rfl
  · exact Spells.escape fun s => rfl
  · rename_i hq hb _ _ _ _ _
    split
    · rename_i hc
      have hhigh : isHighSurrogate c.toNat = false := by
        simp only [isHighSurrogate, Bool.and_eq_false_iff, decide_eq_false_iff_not]
        omega
      have hlow : isLowSurrogate c.toNat = false := by
        simp only [isLowSurrogate, Bool.and_eq_false_iff, decide_eq_false_iff_not]
        omega
      have hescape := escape_code (isCode_hexPair hc) hhigh hlow
      rw [Char.ofNat_toNat] at hescape
      exact Spells.escape hescape
    · rename_i hc
      exact Spells.plain ⟨Nat.not_lt.1 hc, hq, hb⟩

theorem spells_flatMap (cs : List Char) : Spells (cs.flatMap escapeChar) (encode cs) := by
  induction cs with
  | nil => exact Spells.nil
  | cons c cs ih => exact (spells_escapeChar c).append ih

theorem string_quote (s : String) (k : List Char) :
    string (encode (s.toList.flatMap escapeChar ++ '"' :: k)) = .ok (s, encode k) := by
  rw [string_encode (spells_flatMap s.toList), ← bytes_eq_encode, ofBytes?_bytes]
  rfl

/-! ## numbers -/

theorem le_foldl_digits (n : Nat) (ds : List Nat) : n ≤ ds.foldl (fun n d => n * 10 + d) n := by
  induction ds generalizing n with
  | nil => exact Nat.le_refl n
  | cons d ds ih =>
    have hle := ih (n * 10 + d)
    rw [List.foldl_cons]
    omega

/-- digits that stay below the limit are all gathered -/
theorem gather_eq {limit : Nat} (n : Nat) (ds : List Nat)
    (h : ds.foldl (fun n d => n * 10 + d) n ≤ limit) :
    gather limit n ds = (ds.foldl (fun n d => n * 10 + d) n, 0) := by
  induction ds generalizing n with
  | nil => rfl
  | cons d ds ih =>
    have hle := le_foldl_digits (n * 10 + d) ds
    rw [List.foldl_cons] at h
    rw [gather, if_neg (by omega), ih _ h, List.foldl_cons]

theorem exists_nonzero_toDigits {n : Nat} (h : 0 < n) :
    ∃ c ds, Nat.toDigits 10 n = c :: ds ∧ (0x31 ≤ c.toNat && c.toNat ≤ 0x39) = true := by
  induction n using Nat.strong_induction_on with
  | _ n ih =>
    by_cases hn : n < 10
    · have hall : ∀ n < 10, 0 < n →
          (0x31 ≤ (Nat.digitChar n).toNat && (Nat.digitChar n).toNat ≤ 0x39) = true := by decide
      exact ⟨_, [], Nat.toDigits_of_lt_base hn, hall n hn h⟩
    · obtain ⟨c, ds, hds, hc⟩ := ih (n / 10) (by omega) (by omega)
      refine ⟨c, ds ++ [Nat.digitChar (n % 10)], ?_, hc⟩
      rw [Nat.toDigits_of_base_le (by decide) (Nat.not_lt.1 hn), hds, List.cons_append]

theorem mem_int_toDigits (n : Nat) : Nat.toDigits 10 n ∈ int := by
  rcases Nat.eq_zero_or_pos n with rfl | hn
  · exact .inl rfl
  · obtain ⟨c, ds, hds, hc⟩ := exists_nonzero_toDigits hn
    rw [hds]
    refine .inr ⟨[c], ⟨c, hc, rfl⟩, ds, mem_star_one.2 fun d hd => ?_, rfl⟩
    refine Nat.isDigit_of_mem_toDigits (b := 10) (n := n) (by decide) (by decide) ?_
    rw [hds]
    exact List.mem_cons_of_mem _ hd

theorem digitOf_eq {c : Char} (hc : c.isDigit = true) : digitOf c = c.toNat - '0'.toNat :=
  of_forall_lt (P := fun c => digitOf c = c.toNat - '0'.toNat) (by decide) (digitClass.char c hc)

theorem foldl_toDigits (n : Nat) :
    ((Nat.toDigits 10 n).map digitOf).foldl (fun n d => n * 10 + d) 0 = n := by
  have hdigit : ∀ c ∈ Nat.toDigits 10 n, c.isDigit = true := fun c hc =>
    Nat.isDigit_of_mem_toDigits (by decide) (by decide) hc
  calc ((Nat.toDigits 10 n).map digitOf).foldl (fun n d => n * 10 + d) 0
      = (Nat.toDigits 10 n).foldl (fun n c => 10 * n + (c.toNat - '0'.toNat)) 0 := by
        rw [List.foldl_map]
        refine List.foldl_ext _ _ _ fun m c hc => ?_
        rw [digitOf_eq (hdigit c hc), Nat.mul_comm]
    _ = Nat.ofDigitChars 10 (Nat.toDigits 10 n) 0 := Nat.ofDigitChars_eq_foldl.symm
    _ = n := Nat.ofDigitChars_ten_toDigits

theorem value_toDigits (negative : Bool) {n : Nat} (h : n < 0x10000000000000000) :
    Numeral.value ⟨negative, (Nat.toDigits 10 n).map digitOf, [], none⟩ = integer negative n := by
  have hfold := foldl_toDigits n
  have hle :
      ((Nat.toDigits 10 n).map digitOf).foldl (fun n d => n * 10 + d) 0 ≤ maxSignificand := by
    rw [hfold, maxSignificand]
    omega
  have hgather := gather_eq 0 _ hle
  rw [hfold] at hgather
  simp only [Numeral.value, hgather, List.isEmpty_nil, and_self, if_true]

theorem number_toDigits {negative : Bool} {n : Nat} {x : Number} (h : n < 0x10000000000000000)
    (hx : integer negative n = .ok x) {k : List Char} (hk : Ends k) :
    number negative (encode (Nat.toDigits 10 n ++ k)) = .ok (x, encode k) := by
  rw [number, numeral_int (mem_int_toDigits n) hk]
  simp only [bind, Except.bind, value_toDigits negative h, hx]

end Reader

open Reader

/-! ## spaced tokens -/

/-- a text of these tokens, with any blanks before, between and after them -/
inductive Spaced : List Token → List Char → Prop
  | nil {b : List Char} : b ∈ ws → Spaced [] b
  | cons {t : Token} {ts : List Token} {b s : List Char} :
    b ∈ ws → Spaced ts s → Spaced (t :: ts) (b ++ (t.text.toList ++ s))

theorem Spaced.exists_ws {t : Token} {ts : List Token} {s : List Char} (h : Spaced (t :: ts) s) :
    ∃ b ∈ ws, ∃ s', s = b ++ (t.text.toList ++ s') ∧ Spaced ts s' := by
  cases h with
  | cons hb hs => exact ⟨_, hb, _, rfl, hs⟩

theorem Spaced.exists_mark {t : Token} {c : Char} (ht : t.text.toList = [c]) {ts : List Token}
    {s : List Char} (h : Spaced (t :: ts) s) : ∃ b ∈ ws, ∃ s', s = b ++ c :: s' ∧ Spaced ts s' := by
  obtain ⟨b, hb, s', rfl, hs'⟩ := h.exists_ws
  exact ⟨b, hb, s', by rw [ht, List.singleton_append], hs'⟩

/-- tokens with the same blanks at every place -/
def spread (b : List Char) (ts : List Token) : List Char :=
  ts.foldr (fun t s => b ++ (t.text.toList ++ s)) b

theorem spaced_spread {b : List Char} (hb : b ∈ ws) (ts : List Token) :
    Spaced ts (spread b ts) := by
  induction ts with
  | nil => exact .nil hb
  | cons t ts ih => exact .cons hb ih

theorem spaced_compact (v : Json) : Spaced v.tokens v.compact.toList := by
  have hspread : ∀ ts : List Token, (String.join (ts.map Token.text)).toList = spread [] ts := by
    intro ts
    induction ts with
    | nil => rfl
    | cons t ts ih =>
      rw [List.map_cons, String.join_cons, String.toList_append, ih]
      rfl
  rw [compact, hspread]
  exact spaced_spread nil_mem_ws v.tokens

def Follows (k : List Token) : Prop :=
  ∀ t ∈ k.head?, t = .comma ∨ t = .closeArray ∨ t = .closeObject

theorem Spaced.ends {k : List Token} {s : List Char} (h : Spaced k s) (hk : Follows k) :
    Ends s := by
  cases h with
  | nil hb =>
    rw [← List.append_nil s]
    exact ends_ws hb fun c hc => nomatch hc
  | @cons t ts b s hb hs =>
    refine ends_ws hb ?_
    rcases hk t rfl with rfl | rfl | rfl
    · exact ends_cons (by decide) s
    · exact ends_cons (by decide) s
    · exact ends_cons (by decide) s

/-- the value is read from every spacing of its tokens, whatever follows, given fuel for the text -/
def ReadsBack (v : Json) : Prop :=
  ∀ (fuel : Nat) (k : List Token) (s : List Char), Spaced (v.onto k) s → Follows k →
    2 * (encode s).length ≤ fuel →
    ∃ u s', s = u ++ s' ∧ Spaced k s' ∧ value fuel (encode s) = .ok (v, encode s')

/-! ## scalars -/

theorem readsBack_of_scalar {v : Json} {t : Token} (hv : ∀ k, v.onto k = t :: k) {c : Char}
    {u : List Char} (ht : t.text.toList = c :: u) (hlt : c.toNat < 0x80)
    (hc : Grammar.isBlank c = false ∧ c ≠ '[' ∧ c ≠ '\x7b')
    (h : ∀ s, Ends s → scalar (UInt8.ofNat c.toNat) (encode (u ++ s)) = .ok (v, encode s)) :
    ReadsBack v := by
  intro fuel k s hs hk hfuel
  rw [hv] at hs
  obtain ⟨b, hb, s', rfl, hs'⟩ := hs.exists_ws
  rw [ht] at hfuel ⊢
  have hlen := length_encode_lt b c (u ++ s')
  rw [List.cons_append] at hfuel ⊢
  obtain ⟨fuel, rfl⟩ := Nat.exists_eq_add_of_le' (by omega : 1 ≤ fuel)
  refine ⟨b ++ c :: u, s', by simp, hs', ?_⟩
  rw [value_ws hb, value_of_scalar hlt hc, h s' (hs'.ends hk)]

theorem readsBack_string (x : String) : ReadsBack (.string x) := by
  refine readsBack_of_scalar (fun _ => rfl) (String.toList_ofList ..) (by decide) (by decide) ?_
  intro s _
  show scalar Ascii.quote _ = _
  rw [scalar_quote, List.append_assoc, List.singleton_append, string_quote]
  rfl

theorem readsBack_natural (n : Nat) (lt : n < 0x10000000000000000) :
    ReadsBack (.number (.natural n lt)) := by
  obtain ⟨c, u, hu, hc⟩ := exists_digit_of_int (mem_int_toDigits n)
  have htext : (Token.number (.natural n lt)).text.toList = c :: u := by
    rw [← hu]
    exact String.toList_ofList ..
  refine readsBack_of_scalar (fun _ => rfl) htext (digitClass.char c hc) (start_of_digit hc) ?_
  intro s hs
  have hx : integer false n = .ok (.natural n lt) := by
    rw [integer, if_neg (by decide), dif_pos lt]
  rw [scalar_of_digit hc, ← List.cons_append, ← hu, number_toDigits lt hx hs]
  rfl

theorem readsBack_negative (n : Nat) (pos : 0 < n) (le : n ≤ 0x8000000000000000) :
    ReadsBack (.number (.negative n pos le)) := by
  refine readsBack_of_scalar (fun _ => rfl) (String.toList_ofList ..) (by decide) (by decide) ?_
  intro s hs
  have hx : integer true n = .ok (.negative n pos le) := by
    rw [integer, if_pos rfl, dif_pos ⟨pos, le⟩]
  show scalar Ascii.minus _ = _
  rw [scalar_minus, number_toDigits (by omega) hx hs]
  rfl

/-! ## arrays -/

theorem exists_head_of_value {fuel : Nat} {s r : Bytes} {v : Json}
    (h : value (fuel + 1) s = .ok (v, r)) : ∃ c t, skip s = c :: t ∧ c ≠ Ascii.closeBracket := by
  rcases head_or_error fuel s with hhead | ⟨p, t, -, hvalue⟩
  · exact hhead
  · rw [hvalue] at h
    cases h

theorem ReadsBack.exists_head {v : Json} (h : ReadsBack v) {k : List Token} {s : List Char}
    (hs : Spaced (v.onto k) s) (hk : Follows k) :
    ∃ c t, skip (encode s) = c :: t ∧ c ≠ Ascii.closeBracket := by
  obtain ⟨_, _, _, _, hvalue⟩ := h (2 * (encode s).length + 1) k s hs hk (Nat.le_succ _)
  exact exists_head_of_value hvalue

theorem follows_itemsOnto (xs : List Json) (k : List Token) :
    Follows (itemsOnto xs (.closeArray :: k)) := by
  cases xs with
  | nil =>
    rintro t ⟨⟩
    exact .inr (.inl rfl)
  | cons x xs =>
    rintro t ⟨⟩
    exact .inl rfl

theorem items_spaced {xs : List Json} (hxs : ∀ x ∈ xs, ReadsBack x) {x : Json} (hx : ReadsBack x)
    {k : List Token} {s : List Char} (hs : Spaced (x.onto (itemsOnto xs (.closeArray :: k))) s)
    {fuel : Nat} (hfuel : 2 * (encode s).length < fuel) (read : List Json) :
    ∃ u s', s = u ++ s' ∧ Spaced k s' ∧
      items fuel read (skip (encode s)) = .ok (.array (read.reverse ++ x :: xs), encode s') := by
  -- an element costs one unit of fuel; the comma or bracket behind it pays for two
  induction xs generalizing x s fuel read with
  | nil =>
    obtain ⟨fuel, rfl⟩ := Nat.exists_eq_add_of_le' (by omega : 1 ≤ fuel)
    obtain ⟨u, _, rfl, hs₁, hvalue⟩ := hx fuel _ s hs (follows_itemsOnto [] k) (by omega)
    obtain ⟨b, hb, s', rfl, hs'⟩ := hs₁.exists_mark (c := ']') rfl
    have hlen := length_encode_lt (u ++ b) ']' s'
    rw [List.append_assoc] at hlen
    obtain ⟨fuel, rfl⟩ := Nat.exists_eq_add_of_le' (by omega : 1 ≤ fuel)
    refine ⟨u ++ (b ++ [']']), s', by simp, hs', ?_⟩
    have hclose : skip (encode (b ++ ']' :: s')) = Ascii.closeBracket :: encode s' :=
      skip_mark hb (by decide) s'
    rw [← value_skip] at hvalue
    rw [items_last hvalue hclose, List.reverse_cons]
  | cons y ys ih =>
    obtain ⟨hy, hys⟩ := List.forall_mem_cons.1 hxs
    obtain ⟨fuel, rfl⟩ := Nat.exists_eq_add_of_le' (by omega : 1 ≤ fuel)
    obtain ⟨u, _, rfl, hs₁, hvalue⟩ := hx fuel _ s hs (follows_itemsOnto (y :: ys) k) (by omega)
    obtain ⟨b, hb, s₂, rfl, hs₂⟩ := hs₁.exists_mark (c := ',') rfl
    have hlen := length_encode_lt (u ++ b) ',' s₂
    rw [List.append_assoc] at hlen
    obtain ⟨fuel, rfl⟩ := Nat.exists_eq_add_of_le' (by omega : 1 ≤ fuel)
    obtain ⟨c, t, hc, hne⟩ := hy.exists_head hs₂ (follows_itemsOnto ys k)
    have hlt : 2 * (encode s₂).length < fuel + 1 := by omega
    obtain ⟨v, s', rfl, hs', hitems⟩ := ih hys hy hs₂ hlt (x :: read)
    refine ⟨u ++ (b ++ ',' :: v), s', by simp, hs', ?_⟩
    rw [← value_skip] at hvalue
    rw [items_next hvalue (skip_mark hb (by decide) _) hc hne]
    refine hitems.trans ?_
    rw [List.reverse_cons, List.append_assoc, List.singleton_append]

theorem readsBack_array {items : List Json} (h : ∀ x ∈ items, ReadsBack x) :
    ReadsBack (.array items) := by
  intro fuel k s hs hk hfuel
  cases items with
  | nil =>
    obtain ⟨b, hb, s₁, rfl, hs₁⟩ := hs.exists_mark (c := '[') rfl
    obtain ⟨b', hb', s', rfl, hs'⟩ := hs₁.exists_mark (c := ']') rfl
    have hlen := length_encode_lt b '[' (b' ++ ']' :: s')
    obtain ⟨fuel, rfl⟩ := Nat.exists_eq_add_of_le' (by omega : 1 ≤ fuel)
    refine ⟨b ++ '[' :: (b' ++ [']']), s', by simp, hs', ?_⟩
    exact value_emptyArray (skip_mark hb (by decide) _) (skip_mark hb' (by decide) s')
  | cons x xs =>
    obtain ⟨hx, hxs⟩ := List.forall_mem_cons.1 h
    obtain ⟨b, hb, s₁, rfl, hs₁⟩ := hs.exists_mark (c := '[') rfl
    have hlen := length_encode_lt b '[' s₁
    obtain ⟨fuel, rfl⟩ := Nat.exists_eq_add_of_le' (by omega : 1 ≤ fuel)
    obtain ⟨c, t, hc, hne⟩ := hx.exists_head hs₁ (follows_itemsOnto xs k)
    have hlt : 2 * (encode s₁).length < fuel := by omega
    obtain ⟨u, s', rfl, hs', hitems⟩ := items_spaced hxs hx hs₁ hlt []
    refine ⟨b ++ '[' :: u, s', by simp, hs', ?_⟩
    exact (value_array (skip_mark hb (by decide) _) hc hne).trans hitems

/-! ## objects -/

theorem follows_fieldsOnto (xs : List (String × Json)) (k : List Token) :
    Follows (fieldsOnto xs (.closeObject :: k)) := by
  cases xs with
  | nil =>
    rintro t ⟨⟩
    exact .inr (.inr rfl)
  | cons x xs =>
    rintro t ⟨⟩
    exact .inl rfl

theorem key_spaced {name : String} {k : List Token} {s : List Char}
    (hs : Spaced (.string name :: .colon :: k) s) :
    ∃ u s', s = u ++ s' ∧ Spaced k s' ∧ (encode s').length < (encode s).length ∧
      ∃ t, skip (encode s) = Ascii.quote :: t ∧
        ∀ atEnd, key atEnd (Ascii.quote :: t) = .ok (name, encode s') := by
  obtain ⟨b, hb, _, rfl, hs₁⟩ := hs.exists_ws
  obtain ⟨b', hb', s', rfl, hs'⟩ := hs₁.exists_mark (c := ':') rfl
  let body := name.toList.flatMap escapeChar
  have htext : (Token.string name).text.toList = '"' :: (body ++ ['"']) := String.toList_ofList ..
  have happend : b ++ ('"' :: (body ++ ['"']) ++ (b' ++ ':' :: s')) =
      b ++ '"' :: (body ++ '"' :: (b' ++ ':' :: s')) := by simp
  have hlen := length_encode_lt (b ++ '"' :: (body ++ '"' :: b')) ':' s'
  rw [show b ++ '"' :: (body ++ '"' :: b') ++ ':' :: s' =
    b ++ '"' :: (body ++ '"' :: (b' ++ ':' :: s')) by simp] at hlen
  rw [htext, happend]
  refine ⟨b ++ '"' :: (body ++ '"' :: (b' ++ [':'])), s', by simp, hs', hlen, _,
    skip_mark hb (by decide) _, fun atEnd => ?_⟩
  exact key_colon (string_quote name _) (skip_mark hb' (by decide) s')

theorem insertField_eq {name : String} {x : Json} {read xs : List (String × Json)}
    (h : ((read ++ (name, x) :: xs).map Prod.fst).Pairwise (· < ·)) :
    insertField name x read = read ++ [(name, x)] := by
  refine insertField_of_lt x fun f hf => ?_
  rw [List.map_append, List.pairwise_append] at h
  exact h.2.2 f.1 (List.mem_map_of_mem hf) name List.mem_cons_self

theorem fields_spaced {xs : List (String × Json)} (hxs : ∀ f ∈ xs, ReadsBack f.2) {name : String}
    {x : Json} (hx : ReadsBack x) {read : List (String × Json)}
    (hsorted : ((read ++ (name, x) :: xs).map Prod.fst).Pairwise (· < ·)) {k : List Token}
    {s : List Char}
    (hs : Spaced (.string name :: .colon :: x.onto (fieldsOnto xs (.closeObject :: k))) s)
    {fuel : Nat} (hfuel : 2 * (encode s).length < fuel) (atEnd : Problem) :
    ∃ u s', s = u ++ s' ∧ Spaced k s' ∧
      fields fuel read atEnd (skip (encode s)) =
        .ok (.object (read ++ (name, x) :: xs), encode s') := by
  -- fields that are read go to the end, since all keys before are smaller
  induction xs generalizing name x read s fuel atEnd with
  | nil =>
    obtain ⟨fuel, rfl⟩ := Nat.exists_eq_add_of_le' (by omega : 1 ≤ fuel)
    obtain ⟨u, s₁, rfl, hs₁, hlen, t, hskip, hkey⟩ := key_spaced hs
    obtain ⟨v, _, rfl, hs₂, hvalue⟩ := hx fuel _ s₁ hs₁ (follows_fieldsOnto [] k) (by omega)
    obtain ⟨b, hb, s', rfl, hs'⟩ := hs₂.exists_mark (c := '\x7d') rfl
    have hclose : skip (encode (b ++ '\x7d' :: s')) = Ascii.closeBrace :: encode s' :=
      skip_mark hb (by decide) s'
    refine ⟨u ++ (v ++ (b ++ ['\x7d'])), s', by simp, hs', ?_⟩
    rw [hskip, fields_last (hkey atEnd) hvalue hclose, insertField_eq hsorted]
  | cons y ys ih =>
    obtain ⟨hy, hys⟩ := List.forall_mem_cons.1 hxs
    obtain ⟨fuel, rfl⟩ := Nat.exists_eq_add_of_le' (by omega : 1 ≤ fuel)
    obtain ⟨u, s₁, rfl, hs₁, hlen, t, hskip, hkey⟩ := key_spaced hs
    obtain ⟨v, _, rfl, hs₂, hvalue⟩ := hx fuel _ s₁ hs₁ (follows_fieldsOnto (y :: ys) k) (by omega)
    obtain ⟨b, hb, s₃, rfl, hs₃⟩ := hs₂.exists_mark (c := ',') rfl
    have hlen' := length_encode_lt (v ++ b) ',' s₃
    rw [List.append_assoc] at hlen'
    have hcomma : skip (encode (b ++ ',' :: s₃)) = Ascii.comma :: encode s₃ :=
      skip_mark hb (by decide) s₃
    have hsorted' : ((insertField name x read ++ y :: ys).map Prod.fst).Pairwise (· < ·) := by
      rw [insertField_eq hsorted, List.append_assoc, List.singleton_append]
      exact hsorted
    obtain ⟨_, _, _, _, -, t', hquote, -⟩ := key_spaced hs₃
    have hlt : 2 * (encode s₃).length < fuel := by omega
    obtain ⟨w, s', rfl, hs', hfields⟩ := ih hys hy hsorted' hs₃ hlt .endInValue
    refine ⟨u ++ (v ++ (b ++ ',' :: w)), s', by simp, hs', ?_⟩
    rw [hskip, fields_next (hkey atEnd) hvalue hcomma hquote (by decide), hfields,
      insertField_eq hsorted, List.append_assoc, List.singleton_append]

theorem readsBack_object {fields : List (String × Json)} (h : ∀ f ∈ fields, ReadsBack f.2)
    (hsorted : (fields.map Prod.fst).Pairwise (· < ·)) : ReadsBack (.object fields) := by
  intro fuel k s hs hk hfuel
  cases fields with
  | nil =>
    obtain ⟨b, hb, s₁, rfl, hs₁⟩ := hs.exists_mark (c := '\x7b') rfl
    obtain ⟨b', hb', s', rfl, hs'⟩ := hs₁.exists_mark (c := '\x7d') rfl
    have hlen := length_encode_lt b '\x7b' (b' ++ '\x7d' :: s')
    obtain ⟨fuel, rfl⟩ := Nat.exists_eq_add_of_le' (by omega : 1 ≤ fuel)
    refine ⟨b ++ '\x7b' :: (b' ++ ['\x7d']), s', by simp, hs', ?_⟩
    exact value_emptyObject (skip_mark hb (by decide) _) (skip_mark hb' (by decide) s')
  | cons f fields =>
    obtain ⟨hf, hfields⟩ := List.forall_mem_cons.1 h
    obtain ⟨b, hb, s₁, rfl, hs₁⟩ := hs.exists_mark (c := '\x7b') rfl
    have hlen := length_encode_lt b '\x7b' s₁
    obtain ⟨fuel, rfl⟩ := Nat.exists_eq_add_of_le' (by omega : 1 ≤ fuel)
    obtain ⟨_, _, _, _, -, t, hquote, -⟩ := key_spaced hs₁
    have hlt : 2 * (encode s₁).length < fuel := by omega
    have hsorted : (([] ++ (f.1, f.2) :: fields).map Prod.fst).Pairwise (· < ·) := hsorted
    obtain ⟨u, s', rfl, hs', hread⟩ := fields_spaced hfields hf hsorted hs₁ hlt .endInObject
    refine ⟨b ++ '\x7b' :: u, s', by simp, hs', ?_⟩
    exact (value_object (skip_mark hb (by decide) _) hquote (by decide)).trans hread

/-! ## values -/

/-- no number is a double -/
def isIntegral : Json → Bool := all fun
  | .number (.double _ _) => false
  | _ => true

theorem readsBack {v : Json} (hsorted : v.isSorted = true) (hint : v.isIntegral = true) :
    ReadsBack v := by
  induction v using induct with
  | h v ih =>
    obtain ⟨hkeys, hsorted⟩ := all_iff.1 hsorted
    obtain ⟨hnumber, hint⟩ := all_iff.1 hint
    have hparts : ∀ x ∈ v.parts, ReadsBack x := fun x hx => ih x hx (hsorted x hx) (hint x hx)
    cases v with
    | null =>
      exact readsBack_of_scalar (fun _ => rfl) (c := 'n') rfl (by decide) (by decide) fun _ _ => rfl
    | bool b =>
      cases b with
      | true =>
        exact readsBack_of_scalar (fun _ => rfl) (c := 't') rfl (by decide) (by decide)
          fun _ _ => rfl
      | false =>
        exact readsBack_of_scalar (fun _ => rfl) (c := 'f') rfl (by decide) (by decide)
          fun _ _ => rfl
    | number n =>
      cases n with
      | natural n lt => exact readsBack_natural n lt
      | negative n pos le => exact readsBack_negative n pos le
      | double x finite => cases hnumber
    | string s => exact readsBack_string s
    | array items => exact readsBack_array hparts
    | object fields =>
      have hfields : ∀ f ∈ fields, ReadsBack f.2 := fun f hf => hparts f.2 (List.mem_map_of_mem hf)
      exact readsBack_object hfields (of_decide_eq_true hkeys)

theorem document_spaced {v : Json} (hsorted : v.isSorted = true) (hint : v.isIntegral = true)
    {s : List Char} (hs : Spaced v.tokens s) : document (encode s) = .ok v := by
  obtain ⟨_, s', _, hs', hvalue⟩ :=
    readsBack hsorted hint (2 * (encode s).length + 2) [] s hs (fun t ht => nomatch ht) (by omega)
  refine document_of_value hvalue ?_
  cases hs' with
  | nil hb =>
    rw [← List.append_nil s', skip_ws hb]
    rfl

end Json

open Json

theorem readTree_of_spaced {v : Json} (hsorted : v.isSorted = true) (hint : v.isIntegral = true)
    {text : String} (hs : Spaced v.tokens text.toList) : readTree text = .ok v := by
  rw [readTree, Reader.read_eq, document_spaced hsorted hint hs]
  rfl

/-- what was read is read again from its compact text -/
theorem readTree_compact {text : String} {v : Json} (h : readTree text = .ok v)
    (hint : v.isIntegral = true) : readTree v.compact = .ok v :=
  readTree_of_spaced (isSorted_of_readTree h) hint (spaced_compact v)

/-- **A written tree is read back in any layout.**  A text of its tokens, with any blanks before,
between and after them, is read as the tree; and where the tree is refused, the text that the
refusal quotes is read as the part at fault. -/
theorem readTree_spaced {v : Json} (hsorted : v.isSorted = true) (hint : v.isIntegral = true) :
    (∀ text : String, Spaced v.tokens text.toList → readTree text = .ok v) ∧
    Spaced v.tokens v.compact.toList ∧
    ∀ d, (Node.decode v).diagnosed = .error d →
      ∃ (l : List Nat) (s : Json) (f : ItemForm), v.at? l = some s ∧
        (Role.one .node).follow v l = .one f ∧ (f.decode s).diagnosed = .error d ∧
        d.cause.raw? = some s.compact ∧ readTree s.compact = .ok s := by
  refine ⟨fun text hs => readTree_of_spaced hsorted hint hs, spaced_compact v, fun d hd => ?_⟩
  obtain ⟨r, hr, rfl⟩ := Traced.diagnosed_eq_error.1 hd
  have hrefusal : (Role.one .node).refusal? v = some r := hr
  obtain ⟨l, hl⟩ := exists_blamed hrefusal
  obtain ⟨s, f, hat, hf, hb⟩ := hl.exists_at?
  have hsame : (f.decode s).diagnosed = .error (Diagnostic.ofRefusal r) :=
    Traced.diagnosed_eq_error.2 ⟨r, hb.refusal?, rfl⟩
  exact ⟨l, s, f, hat, hf, hsame, (Cause.names_of_blamed hb).raw?,
    readTree_of_spaced (all_at? hsorted hat) (all_at? hint hat) (spaced_compact s)⟩

/-- an unknown construct inside a known one, with integers at both ends of their ranges and a text
that needs escapes -/
def unknownInside : Json :=
  .array [.string "stat", .array [.string "with",
    .object [("a", .number (.natural 0xFFFFFFFFFFFFFFFF (by decide))),
      ("b", .number (.negative 0x8000000000000000 Binary64.signBit_pos (by decide)))],
    .string "\"\\\n\x01é"]]

/-- its tokens with a blank between any two -/
def unknownInsideText : String :=
  " [ \"stat\" , [ \"with\" , \x7b \"a\" : 18446744073709551615 , " ++
    "\"b\" : -9223372036854775808 \x7d , \"\\\"\\\\\\n\\u0001é\" ] ] "

theorem readTree_spaced_unknownInside :
    unknownInside.isSorted = true ∧ unknownInside.isIntegral = true ∧
    readTree unknownInsideText = .ok unknownInside ∧
    ∃ d, (Node.decode unknownInside).diagnosed = .error d ∧ ∃ l s, unknownInside.at? l = some s ∧
      d.cause.raw? = some s.compact ∧ readTree s.compact = .ok s := by
  have hsorted : unknownInside.isSorted = true := by decide +kernel
  have hint : unknownInside.isIntegral = true := by decide +kernel
  have htext : unknownInsideText.toList = spread [' '] unknownInside.tokens := by decide +kernel
  have hws : [' '] ∈ Grammar.ws := Grammar.mem_ws.2 (List.forall_mem_singleton.2 rfl)
  obtain ⟨hread, -, hraw⟩ := readTree_spaced hsorted hint
  refine ⟨hsorted, hint, hread _ (htext ▸ spaced_spread hws _), _, rfl, ?_⟩
  obtain ⟨l, s, _, hat, -, -, hquoted, hs⟩ := hraw _ rfl
  exact ⟨l, s, hat, hquoted, hs⟩

end TagTree
