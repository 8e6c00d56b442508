import LedgerOne.Lib.Columns
import LedgerOne.Texts.Wide
import Mathlib.Tactic.FinCases

/-!
# The wide product

`mul128` and `mul256` sum the products of the parts of their numbers by
columns.  The first is the product; the second moves the carry of its third
column to the highest word instead of the word above the column.
-/

namespace LedgerOne

open Columns

/-! ## Sums -/

theorem toNat_add256 (left right : Uint256) :
    (add256 left right).toNat = (left.toNat + right.toNat) % 2 ^ 256 := by
  have sum := @Halves.join_add 128 left.upper.toNat left.lower.toNat
    right.upper.toNat right.lower.toNat left.lower.toNat_lt
    right.lower.toNat_lt
  rw [show 2 * 128 = 256 by decide] at sum
  have one : (⟨0, 1⟩ : Uint128).toNat = 1 := rfl
  unfold add256 Uint256.toNat
  dsimp only
  by_cases carries :
      (left.lower.toNat + right.lower.toNat) % 2 ^ 128 < left.lower.toNat
  · rw [if_pos carries] at sum
    rw [if_pos ((gt128_iff _ _).mpr (by rwa [toNat_add128])), toNat_add128,
      toNat_add128, toNat_add128, one, Nat.mod_add_mod]
    exact sum
  · rw [if_neg carries, Nat.add_zero] at sum
    rw [if_neg (mt (gt128_iff _ _).mp (by rwa [toNat_add128])), toNat_add128,
      toNat_add128]
    exact sum

/-- A number of 128 bits in its lower word. -/
@[simp] theorem toNat_lowerWord (word : UInt64) :
    (⟨0, word⟩ : Uint128).toNat = word.toNat :=
  Halves.join_zero_upper word.toNat

/-- A number of 128 bits in its upper word. -/
@[simp] theorem toNat_upperWord (word : UInt64) :
    (⟨word, 0⟩ : Uint128).toNat = word.toNat * 2 ^ 64 := by
  rw [Uint128.toNat, UInt64.toNat_zero, Halves.join, Nat.add_zero]

/-! ## 128 bits -/

theorem toNat_low32 (word : UInt64) :
    (low32 word).toNat = word.toNat % 2 ^ 32 := by
  rw [low32, UInt64.toNat_and]
  exact Nat.and_two_pow_sub_one_eq_mod word.toNat 32

theorem toNat_high32 (word : UInt64) :
    (word >>> 32).toNat = word.toNat / 2 ^ 32 := by
  rw [UInt64.toNat_shiftRight, Nat.shiftRight_eq_div_pow]
  rfl

/-- The values of the parts of 32 bits of a number, the lowest first. -/
def Uint128.parts (number : Uint128) (place : Nat) : Nat :=
  if below : place < 4 then (parts32 number (Fin.rev ⟨place, below⟩)).toNat
  else 0

theorem Uint128.parts_rev (number : Uint128) (index : Fin 4) :
    number.parts (Fin.rev index) = (parts32 number index).toNat := by
  rw [Uint128.parts, dif_pos (Fin.rev index).isLt, Fin.rev_rev]

theorem toNat_parts32_lt (number : Uint128) (index : Fin 4) :
    (parts32 number index).toNat < 2 ^ 32 := by
  have lower := number.lower.toNat_lt
  have upper := number.upper.toNat_lt
  have first := toNat_high32 number.upper
  have second := toNat_low32 number.upper
  have third := toNat_high32 number.lower
  have fourth := toNat_low32 number.lower
  fin_cases index
  · show (number.upper >>> 32).toNat < _
    omega
  · show (low32 number.upper).toNat < _
    omega
  · show (number.lower >>> 32).toNat < _
    omega
  · show (low32 number.lower).toNat < _
    omega

/-- The parts make up the number. -/
theorem Uint128.number_parts (number : Uint128) :
    Columns.number (2 ^ 32) number.parts 4 = number.toNat := by
  have lower := Nat.div_add_mod number.lower.toNat (2 ^ 32)
  have upper := Nat.div_add_mod number.upper.toNat (2 ^ 32)
  have first : number.parts 3 = number.upper.toNat / 2 ^ 32 :=
    toNat_high32 number.upper
  have second : number.parts 2 = number.upper.toNat % 2 ^ 32 :=
    toNat_low32 number.upper
  have third : number.parts 1 = number.lower.toNat / 2 ^ 32 :=
    toNat_high32 number.lower
  have fourth : number.parts 0 = number.lower.toNat % 2 ^ 32 :=
    toNat_low32 number.lower
  simp only [Columns.number, Finset.sum_range_succ, Finset.sum_range_zero,
    first, second, third, fourth, Uint128.toNat, Halves.join]
  omega

/-- A product of two parts and its halves. -/
theorem toNat_part_mul {left right : UInt64} (small : left.toNat < 2 ^ 32)
    (small' : right.toNat < 2 ^ 32) :
    (left * right).toNat = left.toNat * right.toNat := by
  have product : left.toNat * right.toNat ≤ (2 ^ 32 - 1) * (2 ^ 32 - 1) :=
    Nat.mul_le_mul (by omega) (by omega)
  rw [UInt64.toNat_mul]
  exact Nat.mod_eq_of_lt (by omega)

/-- The four columns put together. -/
theorem toNat_columns128 {fourth third second first : UInt64} :
    (add128 ⟨0, fourth⟩ (add128 ⟨second, 0⟩
        (add128 ⟨first <<< 32, 0⟩ ⟨third >>> 32, third <<< 32⟩))).toNat =
      (fourth.toNat + third.toNat * 2 ^ 32 + second.toNat * (2 ^ 32) ^ 2 +
        first.toNat * (2 ^ 32) ^ 3) % (2 ^ 32) ^ 4 := by
  have high : (first <<< 32).toNat = first.toNat * 2 ^ 32 % 2 ^ 64 := by
    rw [UInt64.toNat_shiftLeft, Nat.shiftLeft_eq]
    rfl
  have low : (third <<< 32).toNat = third.toNat * 2 ^ 32 % 2 ^ 64 := by
    rw [UInt64.toNat_shiftLeft, Nat.shiftLeft_eq]
    rfl
  have whole : (⟨third >>> 32, third <<< 32⟩ : Uint128).toNat =
      third.toNat * 2 ^ 32 := by
    have bound := third.toNat_lt
    rw [Uint128.toNat, Halves.join, toNat_high32, low]
    omega
  rw [toNat_add128, toNat_add128, toNat_add128, toNat_lowerWord,
    toNat_upperWord, toNat_upperWord, whole, high]
  omega

/-- `mul128` multiplies. -/
theorem toNat_mul128 (left right : Uint128) :
    (mul128 left right).toNat = left.toNat * right.toNat % 2 ^ 128 := by
  unfold mul128
  lift_lets
  intro top bottom products fourth32 third32 second32 first32 third second
    first second' first' first'' target tmp2
  have bound : ∀ x y, (products x y).toNat < 2 ^ 64 :=
    fun x y => (products x y).toNat_lt
  have value : ∀ x y, (products x y).toNat =
      left.parts x * right.parts (Fin.rev y) := by
    intro x y
    have turned : Fin.rev (3 - x) = x := by
      revert x
      decide
    rw [Uint128.parts_rev, ← turned, Uint128.parts_rev, turned]
    exact toNat_part_mul (toNat_parts32_lt _ _) (toNat_parts32_lt _ _)
  have p03 : _ = left.parts 0 * right.parts 0 := value 0 3
  have p02 : _ = left.parts 0 * right.parts 1 := value 0 2
  have p01 : _ = left.parts 0 * right.parts 2 := value 0 1
  have p00 : _ = left.parts 0 * right.parts 3 := value 0 0
  have p13 : _ = left.parts 1 * right.parts 0 := value 1 3
  have p12 : _ = left.parts 1 * right.parts 1 := value 1 2
  have p11 : _ = left.parts 1 * right.parts 2 := value 1 1
  have p23 : _ = left.parts 2 * right.parts 0 := value 2 3
  have p22 : _ = left.parts 2 * right.parts 1 := value 2 2
  have p33 : _ = left.parts 3 * right.parts 0 := value 3 3
  have fourth_eq : fourth32.toNat =
      column (2 ^ 32) left.parts right.parts 0 := by
    rw [column_zero, ← p03]
    exact toNat_low32 _
  have third_eq : third.toNat = column (2 ^ 32) left.parts right.parts 1 := by
    have b03 := bound 0 3
    rw [column_one, ← p02, ← p13, ← p03]
    simp only [third, third32, UInt64.toNat_add, toNat_low32, toNat_high32]
    omega
  have second_eq : second'.toNat =
      column (2 ^ 32) left.parts right.parts 2 := by
    have b02 := bound 0 2
    have b13 := bound 1 3
    rw [column_two, ← p01, ← p12, ← p23, ← p02, ← p13]
    simp only [second', second, second32, UInt64.toNat_add, toNat_low32,
      toNat_high32]
    omega
  have first_eq : first''.toNat =
      column (2 ^ 32) left.parts right.parts 3 := by
    have b01 := bound 0 1
    have b12 := bound 1 2
    have b23 := bound 2 3
    rw [column_three, ← p00, ← p11, ← p22, ← p33, ← p01, ← p12, ← p23]
    simp only [first'', first', first, first32, UInt64.toNat_add, toNat_low32,
      toNat_high32]
    omega
  rw [toNat_columns128, fourth_eq, third_eq, second_eq, first_eq,
    ← number_mul_four, Uint128.number_parts, Uint128.number_parts]
  rfl

/-! ## 256 bits -/

/-- The values of the parts of 64 bits of a number, the lowest first. -/
def Uint256.parts (number : Uint256) (place : Nat) : Nat :=
  if below : place < 4 then (parts64 number (Fin.rev ⟨place, below⟩)).toNat
  else 0

theorem Uint256.parts_rev (number : Uint256) (index : Fin 4) :
    number.parts (Fin.rev index) = (parts64 number index).toNat := by
  rw [Uint256.parts, dif_pos (Fin.rev index).isLt, Fin.rev_rev]

theorem toNat_parts64_lt (number : Uint256) (index : Fin 4) :
    (parts64 number index).toNat < 2 ^ 64 := by
  have word : ∃ word : UInt64, parts64 number index = ⟨0, word⟩ := by
    fin_cases index <;> exact ⟨_, rfl⟩
  obtain ⟨word, parted⟩ := word
  rw [parted, toNat_lowerWord]
  exact word.toNat_lt

/-- The parts make up the number. -/
theorem Uint256.number_parts (number : Uint256) :
    Columns.number (2 ^ 64) number.parts 4 = number.toNat := by
  have first : number.parts 3 = number.upper.upper.toNat :=
    toNat_lowerWord number.upper.upper
  have second : number.parts 2 = number.upper.lower.toNat :=
    toNat_lowerWord number.upper.lower
  have third : number.parts 1 = number.lower.upper.toNat :=
    toNat_lowerWord number.lower.upper
  have fourth : number.parts 0 = number.lower.lower.toNat :=
    toNat_lowerWord number.lower.lower
  simp only [Columns.number, Finset.sum_range_succ, Finset.sum_range_zero,
    first, second, third, fourth, Uint256.toNat, Uint128.toNat, Halves.join]
  omega

/-- A product of two words. -/
theorem toNat_word_mul {left right : Uint128} (small : left.toNat < 2 ^ 64)
    (small' : right.toNat < 2 ^ 64) :
    (mul128 left right).toNat = left.toNat * right.toNat := by
  have product : left.toNat * right.toNat ≤ (2 ^ 64 - 1) * (2 ^ 64 - 1) :=
    Nat.mul_le_mul (by omega) (by omega)
  rw [toNat_mul128]
  exact Nat.mod_eq_of_lt (by omega)

theorem Uint128.toNat_lower (number : Uint128) :
    number.lower.toNat = number.toNat % 2 ^ 64 := by
  have bound := number.lower.toNat_lt
  rw [Uint128.toNat, Halves.join]
  omega

theorem Uint128.toNat_upper (number : Uint128) :
    number.upper.toNat = number.toNat / 2 ^ 64 := by
  have bound := number.lower.toNat_lt
  rw [Uint128.toNat, Halves.join]
  omega

/-- The four columns put together; the carry of the third one is moved one
word too far. -/
theorem toNat_columns256 {fourth third second first : Uint128} :
    (add256 ⟨clear128, fourth⟩ (add256 ⟨second, clear128⟩
        (add256 ⟨shiftl128 first 64, clear128⟩
          ⟨⟨third.upper, 0⟩, shiftl128 third 64⟩))).toNat =
      (fourth.toNat + third.toNat % 2 ^ 64 * 2 ^ 64 +
          second.toNat * (2 ^ 64) ^ 2 +
        (third.toNat / 2 ^ 64 + first.toNat) * (2 ^ 64) ^ 3) %
          (2 ^ 64) ^ 4 := by
  have high := toNat_shiftl128 first (show 64 < 128 by decide)
  have low := toNat_shiftl128 third (show 64 < 128 by decide)
  have carried : (⟨third.upper, 0⟩ : Uint128).toNat =
      third.toNat / 2 ^ 64 * 2 ^ 64 := by
    rw [toNat_upperWord, Uint128.toNat_upper]
  rw [toNat_add256, toNat_add256, toNat_add256]
  unfold Uint256.toNat Halves.join
  dsimp only
  rw [toNat_clear128, high, low, carried]
  omega

/-- `mul256` in terms of its columns. -/
theorem toNat_mul256 (left right : Uint256) :
    let columns := column (2 ^ 64) left.parts right.parts
    (mul256 left right).toNat =
      (columns 0 + columns 1 % 2 ^ 64 * 2 ^ 64 + columns 2 * (2 ^ 64) ^ 2 +
        (columns 1 / 2 ^ 64 + columns 3) * (2 ^ 64) ^ 3) % (2 ^ 64) ^ 4 := by
  intro columns
  unfold mul256
  lift_lets
  intro top bottom products fourth64 third64 second64 first64 third second
    first second' first' first'' target target2
  have lower : ∀ x y, (products x y).lower.toNat < 2 ^ 64 :=
    fun x y => (products x y).lower.toNat_lt
  have upper : ∀ x y, (products x y).upper.toNat < 2 ^ 64 :=
    fun x y => (products x y).upper.toNat_lt
  have value : ∀ x y, (products x y).toNat =
      left.parts x * right.parts (Fin.rev y) := by
    intro x y
    have turned : Fin.rev (3 - x) = x := by
      revert x
      decide
    rw [Uint256.parts_rev, ← turned, Uint256.parts_rev, turned]
    exact toNat_word_mul (toNat_parts64_lt _ _) (toNat_parts64_lt _ _)
  have p03 : _ = left.parts 0 * right.parts 0 := value 0 3
  have p02 : _ = left.parts 0 * right.parts 1 := value 0 2
  have p01 : _ = left.parts 0 * right.parts 2 := value 0 1
  have p00 : _ = left.parts 0 * right.parts 3 := value 0 0
  have p13 : _ = left.parts 1 * right.parts 0 := value 1 3
  have p12 : _ = left.parts 1 * right.parts 1 := value 1 2
  have p11 : _ = left.parts 1 * right.parts 2 := value 1 1
  have p23 : _ = left.parts 2 * right.parts 0 := value 2 3
  have p22 : _ = left.parts 2 * right.parts 1 := value 2 2
  have p33 : _ = left.parts 3 * right.parts 0 := value 3 3
  have fourth_eq : fourth64.toNat = columns 0 := by
    rw [show columns 0 = _ from column_zero .., ← p03,
      ← Uint128.toNat_lower]
    exact toNat_lowerWord _
  have third_eq : third.toNat = columns 1 := by
    have b02 := lower 0 2
    have b03 := upper 0 3
    have b13 := lower 1 3
    rw [show columns 1 = _ from column_one .., ← p02, ← p13, ← p03,
      ← Uint128.toNat_lower, ← Uint128.toNat_lower, ← Uint128.toNat_upper]
    simp only [third, third64, toNat_add128, toNat_lowerWord]
    omega
  have second_eq : second'.toNat = columns 2 := by
    have b01 := lower 0 1
    have b12 := lower 1 2
    have b23 := lower 2 3
    have b02 := upper 0 2
    have b13 := upper 1 3
    rw [show columns 2 = _ from column_two .., ← p01, ← p12, ← p23, ← p02,
      ← p13]
    simp only [← Uint128.toNat_lower, ← Uint128.toNat_upper, second', second,
      second64, toNat_add128, toNat_lowerWord]
    omega
  have first_eq : first''.toNat = columns 3 := by
    have b00 := lower 0 0
    have b11 := lower 1 1
    have b22 := lower 2 2
    have b33 := lower 3 3
    have b01 := upper 0 1
    have b12 := upper 1 2
    have b23 := upper 2 3
    rw [show columns 3 = _ from column_three .., ← p00, ← p11, ← p22, ← p33,
      ← p01, ← p12, ← p23]
    simp only [← Uint128.toNat_lower, ← Uint128.toNat_upper, first'', first',
      first, first64, toNat_add128, toNat_lowerWord]
    omega
  rw [toNat_columns256, fourth_eq, third_eq, second_eq, first_eq]

/-- The third column of the product of two numbers fits its word. -/
def ThirdColumnFits (left right : Uint256) : Prop :=
  left.lower.lower.toNat * right.lower.lower.toNat / 2 ^ 64 +
      left.lower.lower.toNat * right.lower.upper.toNat % 2 ^ 64 +
    left.lower.upper.toNat * right.lower.lower.toNat % 2 ^ 64 < 2 ^ 64
  deriving Decidable

/-- `mul256` multiplies exactly when its third column has no carry: a carry
is lost from the fifth word and found in the seventh. -/
theorem toNat_mul256_eq_iff (left right : Uint256) :
    (mul256 left right).toNat = left.toNat * right.toNat % 2 ^ 256 ↔
      ThirdColumnFits left right := by
  have product := number_mul_four (2 ^ 64) left.parts right.parts
  rw [Uint256.number_parts, Uint256.number_parts] at product
  have third : column (2 ^ 64) left.parts right.parts 1 < 2 ^ 64 ↔
      ThirdColumnFits left right := by
    have low : ∀ number : Uint256,
        number.parts 0 = number.lower.lower.toNat :=
      fun number => toNat_lowerWord number.lower.lower
    have high : ∀ number : Uint256,
        number.parts 1 = number.lower.upper.toNat :=
      fun number => toNat_lowerWord number.lower.upper
    rw [column_one, low, low, high, high, ThirdColumnFits]
    omega
  have few : column (2 ^ 64) left.parts right.parts 1 < 3 * 2 ^ 64 := by
    have first := Nat.mod_lt (left.parts 0 * right.parts 1)
      (Nat.two_pow_pos 64)
    have second := Nat.mod_lt (left.parts 1 * right.parts 0)
      (Nat.two_pow_pos 64)
    have third : left.parts 0 * right.parts 0 / 2 ^ 64 < 2 ^ 64 := by
      apply Nat.div_lt_of_lt_mul
      exact Nat.mul_lt_mul'' (toNat_parts64_lt left 3)
        (toNat_parts64_lt right 3)
    rw [column_one]
    omega
  rw [← third, show 2 ^ 256 = (2 ^ 64) ^ 4 by rw [← Nat.pow_mul], product,
    toNat_mul256]
  exact carried_far_eq_iff _ (by decide) few

/-- `mul128` multiplies, and `mul256` does as long as its third column has no
carry. -/
theorem multiplies_iff (left right : Uint256) :
    (∀ left right : Uint128,
      (mul128 left right).toNat = left.toNat * right.toNat % 2 ^ 128) ∧
    ((mul256 left right).toNat = left.toNat * right.toNat % 2 ^ 256 ↔
      ThirdColumnFits left right) :=
  ⟨toNat_mul128, toNat_mul256_eq_iff left right⟩

/-- The square of the greatest number of 128 bits is wrong. -/
theorem not_multiplies_square :
    let number : Uint256 :=
      ⟨⟨0, 0⟩, ⟨0xffffffffffffffff, 0xffffffffffffffff⟩⟩
    (mul256 number number).toNat ≠
      number.toNat * number.toNat % 2 ^ 256 := by
  intro number multiplies
  have fits := (toNat_mul256_eq_iff number number).mp multiplies
  exact absurd fits (by decide +kernel)

end LedgerOne
