import ChainIndexer.Number.Word
import Mathlib.Tactic.Common

/-!
# Words as signed numbers

A word and the signed number with its bit pattern are the same below the sign bit. With it, the
number is negative.
-/

namespace ChainIndexer.Word

variable {word : Nat}

theorem ofSigned_toSigned (h : word < count) : ofSigned (toSigned word) = word := by
  have hmod : ∀ bound : Nat, word < bound →
      (((word : Int).bmod bound) % (bound : Int)).toNat = word := by
    intro bound hbound
    rw [Int.bmod_emod, ← Int.natCast_emod, Int.toNat_natCast, Nat.mod_eq_of_lt hbound]
  exact hmod count h

theorem toSigned_inj {a b : Nat} (ha : a < count) (hb : b < count) :
    toSigned a = toSigned b ↔ a = b := by
  refine ⟨fun h => ?_, congrArg _⟩
  rw [← ofSigned_toSigned ha, ← ofSigned_toSigned hb, h]

theorem toSigned_of_lt_half (h : word < half) : toSigned word = word := by
  have hmod : ∀ bound : Nat, 2 * word < bound → (word : Int).bmod bound = word := by
    intro bound hbound
    rw [Int.bmod_eq_of_le_mul_two] <;> omega
  have hword : word < 9223372036854775808 := h
  exact hmod count (show 2 * word < 18446744073709551616 by omega)

theorem toSigned_of_half_le (hhalf : half ≤ word) (hcount : word < count) :
    toSigned word = word - count := by
  have hmod : ∀ bound : Nat, bound ≤ 2 * word → word < bound →
      (word : Int).bmod bound = word - bound := by
    intro bound hle hlt
    rw [Int.bmod_def, Int.emod_eq_of_lt (by omega) (by omega), if_neg (by omega)]
  have hword : 9223372036854775808 ≤ word := hhalf
  exact hmod count (show 18446744073709551616 ≤ 2 * word by omega) hcount

theorem toSigned_nonpos (hhalf : half ≤ word) (hcount : word < count) : toSigned word ≤ 0 := by
  rw [toSigned_of_half_le hhalf hcount]
  omega

theorem toSigned_le (h : word < count) : toSigned word ≤ word := by
  rcases Nat.lt_or_ge word half with hlt | hge
  · exact Int.le_of_eq (toSigned_of_lt_half hlt)
  · rw [toSigned_of_half_le hge h]
    omega

end ChainIndexer.Word
