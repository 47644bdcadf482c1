import ChainIndexer.Evm.Word
import ChainIndexer.Number.Decimal
import Mathlib.Tactic.Common

/-!
# Numbers and bytes as text

Decimal and hexadecimal text is written and read digit by digit, the highest first. What is written
reads back as the number or the bytes it was written for, so different ones have different texts.
-/

namespace ChainIndexer

/-- The digits of a base, as they are written and as they are read. -/
structure Numerals where
  base : Nat
  digitChar : Nat → Char
  digit? : Char → Option Nat
  base_pos : 1 < base
  digit?_digitChar : ∀ d < base, digit? (digitChar d) = some d

namespace Numerals

variable (numerals : Numerals)

/-- The digits of a number, the lowest first, `fuel` of them at most. -/
def digitsUpTo : (fuel n : Nat) → List Char
  | 0, _ => []
  | fuel + 1, n =>
    if n < numerals.base then [numerals.digitChar n]
    else numerals.digitChar (n % numerals.base) :: digitsUpTo fuel (n / numerals.base)

/-- Reads digits after a number already read. -/
def readFrom (value : Nat) : List Char → Option Nat
  | [] => some value
  | c :: rest =>
    match numerals.digit? c with
    | some d => readFrom (numerals.base * value + d) rest
    | none => none

theorem readFrom_append (value : Nat) (first second : List Char) :
    numerals.readFrom value (first ++ second) =
      (numerals.readFrom value first).bind (numerals.readFrom · second) := by
  induction first generalizing value with
  | nil => rfl
  | cons c rest ih =>
    rw [List.cons_append, readFrom, readFrom]
    cases numerals.digit? c with
    | none => rfl
    | some d => exact ih _

theorem readFrom_singleton {d : Nat} (hd : d < numerals.base) (value : Nat) :
    numerals.readFrom value [numerals.digitChar d] = some (numerals.base * value + d) := by
  rw [readFrom, numerals.digit?_digitChar d hd]
  rfl

/-- The digits of a number, the highest first, read as that number. -/
theorem readFrom_digits {fuel n : Nat} (h : n < fuel) :
    numerals.readFrom 0 (numerals.digitsUpTo fuel n).reverse = some n := by
  induction fuel generalizing n with
  | zero => omega
  | succ fuel ih =>
    rw [digitsUpTo]
    by_cases hn : n < numerals.base
    · rw [if_pos hn, List.reverse_singleton, numerals.readFrom_singleton hn, Nat.mul_zero,
        Nat.zero_add]
    · have hbase := numerals.base_pos
      have hdiv : n / numerals.base < n := Nat.div_lt_self (by omega) hbase
      have hmod : n % numerals.base < numerals.base := Nat.mod_lt n (by omega)
      rw [if_neg hn, List.reverse_cons, readFrom_append, ih (by omega), Option.bind_some,
        numerals.readFrom_singleton hmod, Nat.div_add_mod]

theorem digitsUpTo_ne_nil (fuel n : Nat) : numerals.digitsUpTo (fuel + 1) n ≠ [] := by
  rw [digitsUpTo]
  split <;> simp

theorem readFrom_zeros (count : Nat) (rest : List Char) :
    numerals.readFrom 0 (List.replicate count (numerals.digitChar 0) ++ rest) =
      numerals.readFrom 0 rest := by
  have hbase := numerals.base_pos
  induction count with
  | zero => rfl
  | succ count ih =>
    rw [List.replicate_succ, List.cons_append, readFrom, numerals.digit?_digitChar 0 (by omega)]
    exact ih

end Numerals

/-! ### Decimal text -/

namespace Decimal

def numerals : Numerals where
  base := 10
  digitChar := digitChar
  digit? := digit?
  base_pos := by decide
  digit?_digitChar := by decide

theorem digitsUpTo_eq (fuel n : Nat) : digitsUpTo fuel n = numerals.digitsUpTo fuel n := by
  induction fuel generalizing n with
  | zero => rfl
  | succ fuel ih => rw [digitsUpTo, Numerals.digitsUpTo, ih]; rfl

theorem readFrom_eq (value : Nat) (chars : List Char) :
    readFrom value chars = numerals.readFrom value chars := by
  induction chars generalizing value with
  | nil => rfl
  | cons c rest ih =>
    rw [readFrom, Numerals.readFrom]
    change _ = match digit? c with
      | some d => numerals.readFrom (10 * value + d) rest
      | none => none
    cases digit? c with
    | none => rfl
    | some d => exact ih _

theorem readDigits_eq_some {chars : List Char} {n : Nat} (h : readDigits chars = some n) :
    ∃ c rest, chars = c :: rest ∧ (digit? c).isSome := by
  cases chars with
  | nil => cases h
  | cons c rest =>
    rw [readDigits, readFrom] at h
    · refine ⟨c, rest, rfl, ?_⟩
      cases hc : digit? c with
      | none => rw [hc] at h; cases h
      | some d => rfl
    · exact nofun

theorem readDigits_ofNat (n : Nat) : readDigits (ofNat n).toList = some n := by
  have hdigits : readFrom 0 (ofNat n).toList = some n := by
    rw [ofNat, String.toList_ofList, readFrom_eq, digitsUpTo_eq]
    exact numerals.readFrom_digits (Nat.lt_succ_self n)
  have hne : (ofNat n).toList ≠ [] := by
    rw [ofNat, String.toList_ofList, digitsUpTo_eq]
    simpa using numerals.digitsUpTo_ne_nil n n
  cases htext : (ofNat n).toList with
  | nil => exact absurd htext hne
  | cons c rest => rwa [htext] at hdigits

/-- No digit is a sign. -/
theorem readNat_of_readDigits {chars : List Char} {n : Nat} (h : readDigits chars = some n) :
    readNat chars = some n := by
  obtain ⟨c, rest, rfl, hc⟩ := readDigits_eq_some h
  rw [readNat]
  · exact h
  · rintro digits ⟨rfl, -⟩
    exact absurd hc (by decide)

theorem readInt_of_readDigits {chars : List Char} {n : Nat} (h : readDigits chars = some n) :
    readInt chars = some (n : Int) := by
  obtain ⟨c, rest, rfl, hc⟩ := readDigits_eq_some h
  rw [readInt, readNat_of_readDigits h]
  · rfl
  · rintro digits ⟨rfl, -⟩
    exact absurd hc (by decide)

theorem readInt_ofInt (value : Int) : readInt (ofInt value).toList = some value := by
  cases value with
  | ofNat n => exact readInt_of_readDigits (readDigits_ofNat n)
  | negSucc n =>
    rw [ofInt, String.toList_append]
    change (readDigits (ofNat (n + 1)).toList).map (fun n => -(n : Int)) = _
    rw [readDigits_ofNat]
    rfl

/-- A number is read by its own kind of reader, and by the other one unless it is negative. -/
theorem readNat_ofInt (value : Int) :
    readNat (ofInt value).toList = if 0 ≤ value then some value.toNat else none := by
  cases value with
  | ofNat n =>
    have hsign : 0 ≤ Int.ofNat n := Int.natCast_nonneg n
    rw [if_pos hsign]
    exact readNat_of_readDigits (readDigits_ofNat n)
  | negSucc n =>
    rw [if_neg (by omega), ofInt, String.toList_append]
    rfl

theorem int?_ofInt (value low high : Int) :
    int? (ofInt value) low high = if low ≤ value ∧ value < high then some value else none := by
  rw [int?, readInt_ofInt, Option.filter_some]
  simp

theorem nat?_ofInt (value : Int) (bound : Nat) :
    nat? (ofInt value) bound = if 0 ≤ value ∧ value < bound then some value.toNat else none := by
  rw [nat?, readNat_ofInt]
  by_cases hsign : 0 ≤ value
  · have hbound : value.toNat < bound ↔ value < bound := by omega
    simp [hsign, Option.filter_some, hbound]
  · simp [hsign]

theorem ofInt_inj {a b : Int} : ofInt a = ofInt b ↔ a = b := by
  refine ⟨fun h => ?_, congrArg ofInt⟩
  have hread := readInt_ofInt a
  rw [h, readInt_ofInt] at hread
  exact (Option.some.inj hread).symm

theorem ofNat_inj {a b : Nat} : ofNat a = ofNat b ↔ a = b :=
  (ofInt_inj (a := a) (b := b)).trans Int.ofNat_inj

end Decimal

/-! ### Hexadecimal text -/

namespace Hex

def numerals : Numerals where
  base := 16
  digitChar := digitChar
  digit? := digit?
  base_pos := by decide
  digit?_digitChar := by decide

theorem digitsUpTo_eq (fuel n : Nat) : digitsUpTo fuel n = numerals.digitsUpTo fuel n := by
  induction fuel generalizing n with
  | zero => rfl
  | succ fuel ih => rw [digitsUpTo, Numerals.digitsUpTo, ih]; rfl

/-- Zeros in front do not change what a number reads as. -/
theorem readFrom_padded (width n : Nat) : numerals.readFrom 0 (padded width n).toList = some n := by
  rw [padded, String.toList_ofList, digitsUpTo_eq]
  exact (numerals.readFrom_zeros ..).trans (numerals.readFrom_digits (Nat.lt_succ_self n))

theorem padded_inj {width a b : Nat} : padded width a = padded width b ↔ a = b := by
  refine ⟨fun h => ?_, congrArg _⟩
  have hread := readFrom_padded width a
  rw [h, readFrom_padded] at hread
  exact (Option.some.inj hread).symm

theorem decode_encode (bytes : List UInt8) : decode (encode bytes) = some bytes := by
  induction bytes with
  | nil => rfl
  | cons byte rest ih =>
    have hbyte := byte.toNat_lt
    have hhigh : digit? (digitChar (byte.toNat / 16)) = some (byte.toNat / 16) :=
      numerals.digit?_digitChar _ (show byte.toNat / 16 < 16 by omega)
    have hlow : digit? (digitChar (byte.toNat % 16)) = some (byte.toNat % 16) :=
      numerals.digit?_digitChar _ (show byte.toNat % 16 < 16 by omega)
    change decode (digitChar (byte.toNat / 16) :: digitChar (byte.toNat % 16) :: encode rest) = _
    rw [decode, hhigh, hlow, ih]
    simp [Nat.div_add_mod]

theorem ofBytes_inj {a b : List UInt8} : ofBytes a = ofBytes b ↔ a = b := by
  refine ⟨fun h => ?_, congrArg ofBytes⟩
  have htext : encode a = encode b := String.ofList_inj.1 ((String.append_right_inj _).1 h)
  have hread := decode_encode a
  rw [htext, decode_encode] at hread
  exact (Option.some.inj hread).symm

end Hex

/-! ### Digests and addresses -/

namespace Evm

theorem Hash.text_inj {a b : Hash} : Hash.text a = Hash.text b ↔ a = b := by
  rw [Hash.text, Hash.text, String.append_right_inj, Hex.padded_inj, BitVec.toNat_inj]

theorem Address.text_inj {a b : Address} : Address.text a = Address.text b ↔ a = b := by
  rw [Address.text, Address.text, String.append_right_inj, Hex.padded_inj, BitVec.toNat_inj]

end Evm

end ChainIndexer
