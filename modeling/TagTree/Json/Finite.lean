import Mathlib.Algebra.Ring.Nat
import TagTree.Json.Basic

/-!
# Json numbers are finite doubles

* `Binary64.isFinite_ofNat`      a 64-bit integer rounds to a finite double;
* `Number.isFinite_toDouble`     so does every Json number.
-/

namespace TagTree

namespace Binary64

theorem divNearest_excess_le (n : Nat) : divNearest n (2 ^ excess n) ≤ 2 ^ 53 := by
  refine Nat.le_trans (divNearest_le _ _) ?_
  suffices n / 2 ^ excess n < 2 ^ 53 by omega
  rw [Nat.div_lt_iff_lt_mul (Nat.two_pow_pos _), ← Nat.pow_add]
  refine Nat.lt_of_lt_of_le Nat.lt_log2_self (Nat.pow_le_pow_right (by decide) ?_)
  unfold excess
  omega

theorem log2_mul_two_pow_le {n a : Nat} (h : n < 2 ^ a) (b : Nat) :
    (n * 2 ^ b).log2 ≤ a + b := by
  by_cases h0 : n * 2 ^ b = 0
  · simp [h0]
  · refine Nat.le_of_lt ((Nat.log2_lt h0).2 ?_)
    rw [Nat.pow_add]
    exact Nat.mul_lt_mul_of_pos_right h (Nat.two_pow_pos _)

theorem one_shiftLeft_eq (k : Nat) : 1 <<< k = 2 ^ k := Nat.one_shiftLeft k

theorem unitsPerOne_eq : unitsPerOne = 2 ^ 1074 := one_shiftLeft_eq 1074

theorem isFinite_ofNat {n : Nat} (h : n < 2 ^ 64) : (ofNat n).isFinite = true := by
  have hs : excess (n * unitsPerOne) ≤ 1086 := by
    have := log2_mul_two_pow_le h 1074
    rw [excess, unitsPerOne_eq]
    omega
  have hd := divNearest_excess_le (n * unitsPerOne)
  have hm : (ofNat n).magnitude < infinityField := by
    rw [ofNat, round_magnitude, Nat.div_one, one_shiftLeft_eq]
    refine Nat.lt_of_le_of_lt (Nat.min_le_left _ _) ?_
    unfold infinityField hiddenBit
    omega
  simpa [isFinite] using hm

end Binary64

theorem Number.isFinite_toDouble (n : Number) : n.toDouble.isFinite = true := by
  cases n with
  | natural n lt => exact Binary64.isFinite_ofNat lt
  | negative n pos le => exact Binary64.isFinite_ofNat (n := n) (by omega)
  | double x finite => exact finite

end TagTree
