import Yuance.Lib.Crypto

/-!
# Yuance.Lib.Js

What JavaScript code relies on: integers as double-precision numbers, and writes into a `Buffer` or
`Uint8Array` of fixed length.
-/

namespace Lib

def maxSafeInteger : Nat := 2 ^ 53 - 1

/-- `Number.isSafeInteger` of an integer. -/
def isSafeInteger (z : Int) : Prop := -(maxSafeInteger : Int) ≤ z ∧ z ≤ maxSafeInteger

instance (z : Int) : Decidable (isSafeInteger z) := inferInstanceAs (Decidable (_ ∧ _))

/-- `Number(n)` of a big integer: 53 significant bits, ties to even. -/
def toNumber (n : Nat) : Nat :=
  let shift := Nat.log2 n + 1 - 53
  let unit := 2 ^ shift
  let q := n / unit
  let r := n % unit
  if 2 * r > unit ∨ (2 * r = unit ∧ q % 2 = 1) then (q + 1) * unit else q * unit

theorem toNumber_of_lt {n : Nat} (h : n < 2 ^ 53) : toNumber n = n := by
  have hs : Nat.log2 n + 1 - 53 = 0 := by
    rcases Nat.eq_zero_or_pos n with rfl | hn
    · decide
    · have : Nat.log2 n < 53 := (Nat.log2_lt (by omega)).mpr h
      omega
  simp only [toNumber, hs, Nat.pow_zero, Nat.div_one, Nat.mod_one]
  rw [if_neg (by omega), Nat.mul_one]

/-- Rounding does not take a number below the exact ones. -/
theorem le_toNumber {n : Nat} (h : 2 ^ 53 ≤ n) : 2 ^ 53 ≤ toNumber n := by
  have hn : n ≠ 0 := by omega
  have hlog : 53 ≤ Nat.log2 n := (Nat.le_log2 hn).mpr h
  have hself : 2 ^ Nat.log2 n ≤ n := (Nat.le_log2 hn).mp (Nat.le_refl _)
  obtain ⟨shift, hshift⟩ : ∃ shift, Nat.log2 n + 1 - 53 = shift := ⟨_, rfl⟩
  have hsplit : 2 ^ Nat.log2 n = 2 ^ 52 * 2 ^ shift := by
    rw [← Nat.pow_add]
    congr 1
    omega
  have hquot : 2 ^ 52 ≤ n / 2 ^ shift := by
    rw [Nat.le_div_iff_mul_le (Nat.two_pow_pos shift), ← hsplit]
    exact hself
  have htwo : 2 ≤ 2 ^ shift := by
    calc 2 = 2 ^ 1 := rfl
      _ ≤ 2 ^ shift := Nat.pow_le_pow_right (by decide) (by omega)
  have hlow : 2 ^ 53 ≤ n / 2 ^ shift * 2 ^ shift := by
    calc 2 ^ 53 = 2 ^ 52 * 2 := rfl
      _ ≤ n / 2 ^ shift * 2 ^ shift := Nat.mul_le_mul hquot htwo
  simp only [toNumber, hshift]
  split
  · rw [Nat.succ_mul]
    omega
  · exact hlow

/-- `source.copy(target, offset)`: what does not fit is dropped. -/
def bufferCopy (target : Bytes) (offset : Nat) (source : Bytes) : Bytes :=
  writeAt target offset (source.take (target.length - offset))

theorem bufferCopy_zeros {pre src : Bytes} {off k k' : Nat} (ho : off = pre.length)
    (hk : k = src.length + k') :
    bufferCopy (pre ++ zeros k) off src = pre ++ src ++ zeros k' := by
  have hfit : src.take ((pre ++ zeros k).length - off) = src := by
    rw [List.take_of_length_le]
    rw [List.length_append, zeros_length]
    omega
  rw [bufferCopy, hfit, writeAt_zeros ho hk]

end Lib
