import Mathlib
import Yuance.Lib.Js
import Yuance.Lib.Scan

/-!
# Yuance.Lib.Numbers

Whole numbers of JavaScript and their texts.

* `Whole`: the whole numbers among those of double precision.
* `numberText`: `String(number)`, with as few digits as tell the number from its neighbours, and
  with an exponent from `10 ^ 21` on.
* `parseInt`: what stands in front of a text is read as a number.
* `parseInt_numberText`: below `10 ^ 21` the text of a number is read as the number.
-/

namespace Lib

/-! ## Rounding -/

/-- A number of 53 bits is kept, and so is one with zeros behind them. -/
theorem toNumber_shifted {q s : Nat} (h : q < 2 ^ 53) : toNumber (q * 2 ^ s) = q * 2 ^ s := by
  rcases Nat.eq_zero_or_pos q with rfl | hq
  · rw [Nat.zero_mul]
    exact toNumber_of_lt (by decide)
  · have hlog : Nat.log2 (q * 2 ^ s) < 53 + s := by
      rw [Nat.log2_lt (Nat.mul_ne_zero (by omega) (by positivity)), Nat.pow_add]
      exact Nat.mul_lt_mul_of_pos_right h (by positivity)
    have hdvd : 2 ^ (Nat.log2 (q * 2 ^ s) + 1 - 53) ∣ q * 2 ^ s :=
      Nat.dvd_mul_left_of_dvd (Nat.pow_dvd_pow 2 (by omega)) q
    unfold toNumber
    dsimp only
    rw [Nat.mod_eq_zero_of_dvd hdvd, Nat.div_mul_cancel hdvd, if_neg]
    have hpos : 0 < 2 ^ (Nat.log2 (q * 2 ^ s) + 1 - 53) := by positivity
    omega

theorem toNumber_toNumber (n : Nat) : toNumber (toNumber n) = toNumber n := by
  by_cases hsmall : n < 2 ^ 53
  · rw [toNumber_of_lt hsmall, toNumber_of_lt hsmall]
  · obtain ⟨shift, hshift⟩ : ∃ shift, Nat.log2 n + 1 - 53 = shift := ⟨_, rfl⟩
    have hne : n ≠ 0 := by omega
    have hlt : n < 2 ^ 53 * 2 ^ shift := by
      rw [← Nat.pow_add, ← Nat.log2_lt hne]
      omega
    have hquot : n / 2 ^ shift < 2 ^ 53 := Nat.div_lt_of_lt_mul (by rwa [Nat.mul_comm])
    have hform : ∃ q, q ≤ 2 ^ 53 ∧ toNumber n = q * 2 ^ shift := by
      unfold toNumber
      dsimp only
      rw [hshift]
      split
      · exact ⟨_, hquot, rfl⟩
      · exact ⟨_, hquot.le, rfl⟩
    obtain ⟨q, hq, heq⟩ := hform
    rw [heq]
    rcases Nat.lt_or_eq_of_le hq with hlow | rfl
    · exact toNumber_shifted hlow
    · have hone : 2 ^ 53 * 2 ^ shift = 1 * 2 ^ (53 + shift) := by
        rw [Nat.pow_add, Nat.one_mul]
      rw [hone]
      exact toNumber_shifted (by decide)

theorem lt_two_pow {n k m : Nat} (h : n < 2 ^ k) (hle : k ≤ m) : n < 2 ^ m :=
  h.trans_le (Nat.pow_le_pow_right Nat.two_pos hle)

/-- A whole number of double precision. -/
structure Whole where
  value : Nat
  rounded : toNumber value = value
  finite : value < 2 ^ 1024

theorem Whole.ext_value {a b : Whole} (h : a.value = b.value) : a = b := by
  cases a
  cases b
  cases h
  rfl

instance : DecidableEq Whole := fun a b =>
  decidable_of_iff (a.value = b.value) ⟨Whole.ext_value, congrArg Whole.value⟩

/-- A number that is safe to count with. -/
def Whole.ofSafe (n : Nat) (h : n < 2 ^ 53) : Whole where
  value := n
  rounded := toNumber_of_lt h
  finite := lt_two_pow h (by omega)

/-! ## The text of a number -/

def decimal (n : Nat) : List Char := Nat.toDigits 10 n

/-- The numbers with `10 ^ zeros` as their unit next to `x`, the nearer one first. -/
def neighbours (x zeros : Nat) : List Nat :=
  let q := x / 10 ^ zeros
  let r := x % 10 ^ zeros
  if 2 * r < 10 ^ zeros ∨ (2 * r = 10 ^ zeros ∧ q % 2 = 0) then [q, q + 1] else [q + 1, q]

/-- As few digits as are read as `x`, and the zeros behind them. -/
def shortest (x : Nat) : Nat × Nat :=
  let places := (decimal x).length
  (((List.range places).flatMap fun k =>
    (neighbours x (places - (k + 1))).map fun s => (s, places - (k + 1))).find? fun (s, zeros) =>
      (decimal s).length + zeros = places ∧ toNumber (s * 10 ^ zeros) = x).getD (x, 0)

/-- The digits with an exponent behind them. -/
def exponentText (digits : List Char) (exponent : Nat) : List Char :=
  (match digits with
    | [] => []
    | [d] => [d]
    | d :: rest => d :: '.' :: rest) ++ "e+".toList ++ decimal exponent

/-- `String(x)`. -/
def numberText (x : Whole) : List Char :=
  let (s, zeros) := shortest x.value
  let digits := decimal s ++ List.replicate zeros '0'
  if digits.length ≤ 21 then digits else exponentText (decimal s) (digits.length - 1)

/-! ## The number of a text -/

/-- The white space of JavaScript, line ends included. -/
def isJsSpace (c : Char) : Bool :=
  [0x9, 0xa, 0xb, 0xc, 0xd, 0x20, 0xa0, 0x1680, 0x2028, 0x2029, 0x202f, 0x205f, 0x3000,
    0xfeff].contains c.toNat || (0x2000 ≤ c.toNat && c.toNat ≤ 0x200a)

/-- The value of digits, unless it is beyond all numbers. -/
def wholeOf (digits : List Char) : Option Whole :=
  if h : toNumber (Nat.ofDigitChars 10 digits 0) < 2 ^ 1024 then
    some ⟨_, toNumber_toNumber _, h⟩
  else none

/-- What stands behind a plus sign. -/
def unsigned : List Char → List Char
  | '+' :: rest => rest
  | text => text

/-- `Number.parseInt(text, 10)` where it comes to a whole number that is not negative. -/
def parseInt (text : List Char) : Option Whole :=
  let digits := (unsigned (text.dropWhile isJsSpace)).takeWhile Char.isDigit
  if digits = [] then none else wholeOf digits

/-! ## Reading what was written -/

/-- The digits that are written are read as the number. -/
theorem shortest_reads (x : Whole) :
    toNumber ((shortest x.value).1 * 10 ^ (shortest x.value).2) = x.value ∧
      (decimal (shortest x.value).1).length + (shortest x.value).2 =
        (decimal x.value).length := by
  unfold shortest
  dsimp only
  cases hfound : List.find? _ _ with
  | none =>
    rw [Option.getD_none, Nat.pow_zero, Nat.mul_one]
    exact ⟨x.rounded, rfl⟩
  | some pair =>
    have hpair := List.find?_some hfound
    rw [decide_eq_true_eq] at hpair
    exact ⟨hpair.2, hpair.1⟩

theorem decimal_length_le {n k : Nat} (hk : 0 < k) :
    (decimal n).length ≤ k ↔ n < 10 ^ k :=
  Nat.length_toDigits_le_iff (by decide) hk

/-- Digits with zeros behind them. -/
theorem ofDigitChars_padded (s zeros : Nat) :
    Nat.ofDigitChars 10 (decimal s ++ List.replicate zeros '0') 0 = s * 10 ^ zeros := by
  unfold decimal
  rw [Nat.ofDigitChars_append, Nat.ofDigitChars_ten_toDigits, Nat.ofDigitChars_replicate_zero,
    Nat.mul_comm]

theorem numberText_of_lt {x : Whole} (h : x.value < 10 ^ 21) :
    numberText x =
      decimal (shortest x.value).1 ++ List.replicate (shortest x.value).2 '0' := by
  have hlength : (decimal (shortest x.value).1 ++
      List.replicate (shortest x.value).2 '0').length ≤ 21 := by
    rw [List.length_append, List.length_replicate, (shortest_reads x).2]
    exact (decimal_length_le (by decide)).mpr h
  exact if_pos hlength

/-- Below `10 ^ 21` the text is made of digits. -/
theorem numberText_digits {x : Whole} (h : x.value < 10 ^ 21) :
    numberText x ≠ [] ∧ ∀ c ∈ numberText x, c.isDigit = true := by
  rw [numberText_of_lt h]
  refine ⟨List.append_ne_nil_of_left_ne_nil Nat.toDigits_ne_nil _, ?_⟩
  intro c hc
  rcases List.mem_append.mp hc with hdigit | hzero
  · exact Nat.isDigit_of_mem_toDigits (by decide) (by decide) hdigit
  · rw [List.eq_of_mem_replicate hzero]
    decide

theorem wholeOf_numberText {x : Whole} (h : x.value < 10 ^ 21) :
    wholeOf (numberText x) = some x := by
  have hvalue : toNumber (Nat.ofDigitChars 10 (numberText x) 0) = x.value := by
    rw [numberText_of_lt h, ofDigitChars_padded]
    exact (shortest_reads x).1
  unfold wholeOf
  rw [dif_pos (hvalue ▸ x.finite)]
  exact congrArg some (Whole.ext_value hvalue)

theorem isJsSpace_of_isDigit {c : Char} (h : c.isDigit = true) : isJsSpace c = false := by
  have hrange : 0x30 ≤ c.toNat ∧ c.toNat ≤ 0x39 := by
    simp only [Char.isDigit, Bool.and_eq_true, decide_eq_true_eq, ge_iff_le,
      UInt32.le_iff_toNat_le] at h
    exact h
  unfold isJsSpace
  rw [Bool.or_eq_false_iff]
  refine ⟨?_, ?_⟩
  · rw [Bool.eq_false_iff]
    intro hmem
    have hin := List.contains_iff_mem.mp hmem
    simp only [List.mem_cons, List.not_mem_nil, or_false] at hin
    omega
  · rw [Bool.and_eq_false_iff, decide_eq_false_iff_not, decide_eq_false_iff_not]
    omega

/-- A text of digits is read whole. -/
theorem parseInt_digits {digits : List Char} (hne : digits ≠ [])
    (h : ∀ c ∈ digits, c.isDigit = true) : parseInt digits = wholeOf digits := by
  obtain ⟨first, rest, rfl⟩ := List.exists_cons_of_ne_nil hne
  have hfirst := h first List.mem_cons_self
  have hunsigned : unsigned (first :: rest) = first :: rest := by
    unfold unsigned
    split
    · next heq => exact absurd ((List.cons.inj heq).1 ▸ hfirst) (by decide)
    · rfl
  unfold parseInt
  dsimp only
  rw [List.dropWhile_cons_of_neg (Bool.eq_false_iff.mp (isJsSpace_of_isDigit hfirst)), hunsigned,
    List.takeWhile_eq_self_iff.mpr h, if_neg (List.cons_ne_nil _ _)]

theorem parseInt_numberText {x : Whole} (h : x.value < 10 ^ 21) :
    parseInt (numberText x) = some x := by
  obtain ⟨hne, hdigits⟩ := numberText_digits h
  rw [parseInt_digits hne hdigits, wholeOf_numberText h]

end Lib
