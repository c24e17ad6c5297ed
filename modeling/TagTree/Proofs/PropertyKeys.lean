import TagTree.Proofs.Decoding
import TagTree.Proofs.Locality

/-!
# Numbers as property keys

A key that is given as a number is the text of the number, not the text that the number was read
from.  Integers of 64 bits in plain digits are written as they were read.  All other numbers are
doubles, and a double is written in one layout, with a point or an exponent.

* `Json.text_doubles`            a double has a point or an exponent;
* `Number.exists_text_eq`        integers of 64 bits are written in plain digits;
* `Number.text_cases`            all other numbers are doubles;
* `Number.text_eq_iff`           which texts without point and exponent are kept;
* `readTree_single`              an object with one property is read part by part;
* `Node.decode_numericKey`       what becomes of a number for a key.
-/

namespace TagTree
open Json Layout

/-! ## texts of numbers -/

/-- a finite double is written with a point or an exponent, and the exponent by a small letter -/
theorem Json.text_doubles {x : Binary64} (hx : x.isFinite = true) :
    ('.' ∈ (doubles.text x).toList ∨ 'e' ∈ (doubles.text x).toList) ∧
      'E' ∉ (doubles.text x).toList := by
  have hfinite : ('.' ∈ doubles.finite x.magnitude ∨ 'e' ∈ doubles.finite x.magnitude) ∧
      'E' ∉ doubles.finite x.magnitude := by
    unfold Decimal.Layout.finite
    dsimp only
    split
    · refine ⟨.inl (Decimal.point_mem_positional _), fun h => ?_⟩
      exact absurd (Decimal.mem_positional h) (by decide)
    · refine ⟨.inr (Decimal.e_mem_scientific _), fun h => ?_⟩
      exact absurd (Decimal.mem_scientific h) (by decide)
  rw [Decimal.Layout.toList_text _ hx]
  cases x.negative <;> simpa using hfinite

theorem Number.text_negative {m : Nat} (hle : m + 1 ≤ 0x8000000000000000) :
    (Number.negative (m + 1) (Nat.succ_pos m) hle).text = toString (Int.negSucc m) := by
  show String.ofList ('-' :: Nat.toDigits 10 (m + 1)) = "-" ++ Nat.repr (m + 1)
  apply String.toList_inj.1
  simp [Nat.repr]

/-- integers of 64 bits are numbers, and are written in plain digits -/
theorem Number.exists_text_eq {z : Int} (hlow : -0x8000000000000000 ≤ z)
    (hhigh : z < 0x10000000000000000) :
    ∃ n : Number, n.text = toString z ∧ (Json.number n).isIntegral = true := by
  cases z with
  | ofNat m =>
    have hm : m < 0x10000000000000000 := Int.ofNat_lt.1 hhigh
    exact ⟨.natural m hm, rfl, rfl⟩
  | negSucc m =>
    have hm : m + 1 ≤ 0x8000000000000000 := by omega
    exact ⟨.negative (m + 1) (Nat.succ_pos m) hm, text_negative hm, rfl⟩

theorem Number.text_cases (n : Number) :
    (∃ z : Int, -0x8000000000000000 ≤ z ∧ z < 0x10000000000000000 ∧ n.text = toString z) ∨
      ∃ x hx, n = .double x hx := by
  cases n with
  | natural m hm => exact .inl ⟨m, by omega, by omega, rfl⟩
  | negative m hpos hle =>
    obtain ⟨l, rfl⟩ := Nat.exists_eq_add_of_le' hpos
    exact .inl ⟨Int.negSucc l, by omega, by omega, text_negative hle⟩
  | double x hx => exact .inr ⟨x, hx, rfl⟩

theorem Number.capital_notMem_text (n : Number) : 'E' ∉ n.text.toList := by
  have hdigits (m : Nat) : 'E' ∉ Nat.toDigits 10 m := fun h =>
    absurd (Decimal.isDigit_of_mem_digits h) (by decide)
  cases n with
  | natural m hm => simp [Number.text, hdigits]
  | negative m hpos hle => simp [Number.text, hdigits]
  | double x hx => exact (Json.text_doubles hx).2

/-- the digits of an integer of 64 bits are read as a number with this text -/
theorem readTree_toString {z : Int} (hlow : -0x8000000000000000 ≤ z)
    (hhigh : z < 0x10000000000000000) :
    ∃ n : Number, readTree (toString z) = .ok (.number n) ∧ n.text = toString z := by
  obtain ⟨n, htext, hint⟩ := Number.exists_text_eq hlow hhigh
  have hcompact : (Json.number n).compact = toString z := by
    rw [← htext]
    show String.join [n.text] = n.text
    simp
  refine ⟨n, ?_, htext⟩
  rw [← hcompact]
  exact readTree_of_spaced rfl hint (spaced_compact _)

/-- a text of a number that has no point and no exponent is kept iff it is the plain text of an
integer of 64 bits -/
theorem Number.text_eq_iff {k : String} {n : Number} (hk : readTree k = .ok (.number n))
    (hpoint : '.' ∉ k.toList) (he : 'e' ∉ k.toList) :
    n.text = k ↔ ∃ z : Int, -0x8000000000000000 ≤ z ∧ z < 0x10000000000000000 ∧ k = toString z := by
  constructor
  · rintro rfl
    rcases n.text_cases with h | ⟨x, hx, rfl⟩
    · exact h
    · rcases (Json.text_doubles hx).1 with h | h
      · exact absurd h hpoint
      · exact absurd h he
  · rintro ⟨z, hlow, hhigh, rfl⟩
    obtain ⟨m, hm, htext⟩ := readTree_toString hlow hhigh
    rw [hm] at hk
    cases hk
    exact htext

/-! ## objects with one property -/

theorem readTree_single {k v : String} {s t : Json} (hk : readTree k = .ok s)
    (hv : readTree v = .ok t) :
    readTree ("[\"object\",[[" ++ k ++ "," ++ v ++ "]]]") =
      .ok (.array [.string "object", .array [.array [s, t]]]) := by
  have hobject : readTree "\"object\"" = .ok (.string "object") :=
    readTree_of_spaced (v := .string "object") rfl rfl (spaced_compact _)
  have hpair := readTree_array (.cons hk (.cons hv .nil)) (List.cons_ne_nil _ _)
  have hlist := readTree_array (.cons hpair .nil) (List.cons_ne_nil _ _)
  have htree := readTree_array (.cons hobject (.cons hlist .nil)) (List.cons_ne_nil _ _)
  have htext : "[\"object\",[[" ++ k ++ "," ++ v ++ "]]]" =
      "[" ++ String.intercalate "," ["\"object\"",
        "[" ++ String.intercalate "," ["[" ++ String.intercalate "," [k, v] ++ "]"] ++ "]"] ++
        "]" := by
    apply String.toList_inj.1
    simp
  rw [htext]
  exact htree

theorem decodes_single {n : Number} {t : Json} {value : Node} (h : Decodes t value) :
    Decodes (.array [.string "object", .array [.array [.number n, t]]])
      (.mk (.object [⟨n.text, value, none⟩])) := by
  have hslot : slot? [.number n, t] 1 = some t := by
    cases h
    rfl
  have hproperty : IsProperty Decodes (.array [.number n, t]) ⟨n.text, value, none⟩ :=
    .mk rfl .number hslot h .none
  have hrow : Row Decodes .object [.string "object", .array [.array [.number n, t]]]
      (.object [⟨n.text, value, none⟩]) := .object rfl (.mk (.cons hproperty .nil))
  exact Decodes.mk hrow

theorem Node.exists_decode_single {k v : String} {n : Number} {t : Json} {value : Node}
    (hk : readTree k = .ok (.number n)) (hv : readTree v = .ok t)
    (ht : (Node.decode t).result = .ok value) :
    ∃ tree, readTree ("[\"object\",[[" ++ k ++ "," ++ v ++ "]]]") = .ok tree ∧
      (Node.decode tree).result = .ok (.mk (.object [⟨n.text, value, none⟩])) :=
  ⟨_, readTree_single hk hv, decode_of_decodes (decodes_single (decodes_of_decode ht))⟩

/-- **A number as a key is written anew.**  Where the text of a number is the key of the only
property of an object, the object has the property with the text in which the number is written.
That is the given text if this is the plain text of an integer of 64 bits.  No other text without
point and exponent is kept, and none with a capital letter for the exponent. -/
theorem Node.decode_numericKey {k v : String} {n : Number} {t : Json} {value : Node}
    (hk : readTree k = .ok (.number n)) (hv : readTree v = .ok t)
    (ht : (Node.decode t).result = .ok value) :
    (∃ tree, readTree ("[\"object\",[[" ++ k ++ "," ++ v ++ "]]]") = .ok tree ∧
      (Node.decode tree).result = .ok (.mk (.object [⟨n.text, value, none⟩]))) ∧
    ('.' ∉ k.toList → 'e' ∉ k.toList →
      (n.text = k ↔
        ∃ z : Int, -0x8000000000000000 ≤ z ∧ z < 0x10000000000000000 ∧ k = toString z)) ∧
    ('E' ∈ k.toList → n.text ≠ k) := by
  refine ⟨Node.exists_decode_single hk hv ht, fun hpoint he => Number.text_eq_iff hk hpoint he, ?_⟩
  rintro hcapital rfl
  exact n.capital_notMem_text hcapital

/-! ### keys that are kept, and keys that are not -/

/-- the text in which the number is written that is read from a text -/
def rewritten? (k : String) : Option String :=
  match readTree k with
  | .ok (.number n) => some n.text
  | _ => none

theorem exists_of_rewritten? {k key : String} (h : rewritten? k = some key) :
    ∃ n : Number, readTree k = .ok (.number n) ∧ n.text = key := by
  unfold rewritten? at h
  split at h
  · rename_i n hn
    exact ⟨n, hn, Option.some.inj h⟩
  · cases h

theorem readTree_nameText :
    readTree "[\"name\",\"x\"]" = .ok (.array [.string "name", .string "x"]) :=
  readTree_of_spaced (v := .array [.string "name", .string "x"]) rfl rfl (spaced_compact _)

/-- in an object with one property, the key that is written `k` is read as `key` -/
def ReadsKey (k key : String) : Prop :=
  ∃ tree, readTree ("[\"object\",[[" ++ k ++ "," ++ "[\"name\",\"x\"]" ++ "]]]") = .ok tree ∧
    (Node.decode tree).result = .ok (.mk (.object [⟨key, .mk (.identifier "x"), none⟩]))

theorem ReadsKey.unique {k key key' : String} (h : ReadsKey k key) (h' : ReadsKey k key') :
    key = key' := by
  obtain ⟨tree, htree, hnode⟩ := h
  obtain ⟨tree', htree', hnode'⟩ := h'
  rw [htree] at htree'
  cases htree'
  rw [hnode] at hnode'
  cases hnode'
  rfl

/-- the greatest and the least integer of 64 bits are kept -/
theorem Node.decode_numericKey_kept :
    ReadsKey "18446744073709551615" "18446744073709551615" ∧
    ReadsKey "-9223372036854775808" "-9223372036854775808" := by
  have kept {k : String} (h : rewritten? k = some k) : ReadsKey k k := by
    obtain ⟨n, hk, htext⟩ := exists_of_rewritten? h
    have hkey := (Node.decode_numericKey hk readTree_nameText rfl).1
    rw [htext] at hkey
    exact hkey
  exact ⟨kept (by decide +kernel), kept (by decide +kernel)⟩

/-- A fraction loses its trailing zeros, an exponent is carried out, minus zero gets a fraction, and
an integer of more than 64 bits an exponent: none of these keys is kept. -/
theorem Node.decode_numericKey_rewritten :
    ReadsKey "1.50" "1.5" ∧ ReadsKey "1E2" "100.0" ∧ ReadsKey "-0" "-0.0" ∧
    ReadsKey "18446744073709551616" "1.8446744073709552e+19" ∧ ¬ ReadsKey "1.50" "1.50" := by
  have reads {k key : String} (h : rewritten? k = some key) : ReadsKey k key := by
    obtain ⟨n, hk, htext⟩ := exists_of_rewritten? h
    have hkey := Node.exists_decode_single hk readTree_nameText rfl
    rw [htext] at hkey
    exact hkey
  have hfraction : ReadsKey "1.50" "1.5" := reads (by decide +kernel)
  have hne : "1.5" ≠ "1.50" := by decide
  exact ⟨hfraction, reads (by decide +kernel), reads (by decide +kernel),
    reads (by decide +kernel), fun h => hne (hfraction.unique h)⟩

end TagTree
