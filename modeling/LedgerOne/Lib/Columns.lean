import Mathlib.Algebra.BigOperators.Intervals
import Mathlib.Algebra.BigOperators.Ring.Finset
import Mathlib.Algebra.Order.BigOperators.Group.Finset
import Mathlib.Data.Nat.ModEq
import Mathlib.Tactic.Linarith
import Mathlib.Tactic.Ring

/-!
# Products by columns

The product of two numbers from the products of their digits.  A product of
two digits has two halves; the lower one belongs to the place of the product
and the upper one to the place above it.
-/

namespace LedgerOne

namespace Columns

open Finset

variable (base : Nat) (left right : Nat -> Nat)

/-- The number with these digits, the lowest first. -/
def number (digits : Nat -> Nat) (count : Nat) : Nat :=
  ∑ place ∈ range count, digits place * base ^ place

/-- The products of the digits whose places sum to a place. -/
def diagonal (place : Nat) : Nat :=
  ∑ index ∈ range (place + 1), left index * right (place - index)

/-- The lower halves of these products. -/
def lows (place : Nat) : Nat :=
  ∑ index ∈ range (place + 1), left index * right (place - index) % base

/-- The upper halves of these products. -/
def highs (place : Nat) : Nat :=
  ∑ index ∈ range (place + 1), left index * right (place - index) / base

/-- The column of a place: the lower halves of its own products and the upper
halves of the products of the place below. -/
def column : Nat -> Nat
  | 0 => lows base left right 0
  | place + 1 => lows base left right (place + 1) + highs base left right place

theorem column_zero :
    column base left right 0 = left 0 * right 0 % base := by
  simp [column, lows]

theorem column_one :
    column base left right 1 =
      left 0 * right 1 % base + left 1 * right 0 % base +
        left 0 * right 0 / base := by
  simp [column, lows, highs, sum_range_succ]

theorem column_two :
    column base left right 2 =
      left 0 * right 2 % base + left 1 * right 1 % base +
          left 2 * right 0 % base +
        (left 0 * right 1 / base + left 1 * right 0 / base) := by
  simp [column, lows, highs, sum_range_succ]

theorem column_three :
    column base left right 3 =
      left 0 * right 3 % base + left 1 * right 2 % base +
          left 2 * right 1 % base + left 3 * right 0 % base +
        (left 0 * right 2 / base + left 1 * right 1 / base +
          left 2 * right 0 / base) := by
  simp [column, lows, highs, sum_range_succ]

theorem diagonal_eq (place : Nat) :
    diagonal left right place =
      lows base left right place + base * highs base left right place := by
  unfold diagonal lows highs
  rw [mul_sum, ← sum_add_distrib]
  exact sum_congr rfl fun index _ => (Nat.mod_add_div _ base).symm

/-- The columns are the diagonals but for the upper halves of the last
one. -/
theorem sum_column (count : Nat) :
    ∑ place ∈ range (count + 1), column base left right place * base ^ place +
        highs base left right count * base ^ (count + 1) =
      ∑ place ∈ range (count + 1), diagonal left right place * base ^ place := by
  induction count with
  | zero =>
      rw [sum_range_one, sum_range_one, diagonal_eq base, column]
      ring
  | succ count inductionHypothesis =>
      rw [sum_range_succ _ (count + 1), sum_range_succ _ (count + 1),
        ← inductionHypothesis, diagonal_eq base left right (count + 1), column]
      ring

/-- The places from a count on add a multiple of the power. -/
theorem sum_diagonal (count : Nat) :
    number base left count * number base right count % base ^ count =
      (∑ place ∈ range count, diagonal left right place * base ^ place) %
        base ^ count := by
  have split : ∀ place ∈ range count,
      ∑ index ∈ range (count - place),
          left place * right index * base ^ (place + index) +
        ∑ index ∈ Ico (count - place) count,
          left place * right index * base ^ (place + index) =
      ∑ index ∈ range count,
        left place * right index * base ^ (place + index) :=
    fun place _ => sum_range_add_sum_Ico _ (Nat.sub_le _ _)
  have beyond : base ^ count ∣ ∑ place ∈ range count,
      ∑ index ∈ Ico (count - place) count,
        left place * right index * base ^ (place + index) := by
    refine dvd_sum fun place _ => dvd_sum fun index inside => ?_
    have far := (mem_Ico.mp inside).1
    exact Dvd.dvd.mul_left (pow_dvd_pow base (by omega)) _
  have triangle : ∑ place ∈ range count,
      diagonal left right place * base ^ place =
        ∑ place ∈ range count, ∑ index ∈ range (count - place),
          left place * right index * base ^ (place + index) := by
    rw [← sum_range_diag_flip count
      fun place index => left place * right index * base ^ (place + index)]
    refine sum_congr rfl fun place _ => ?_
    rw [diagonal, sum_mul]
    refine sum_congr rfl fun index inside => ?_
    have below := mem_range.mp inside
    rw [show index + (place - index) = place by omega]
  have product : number base left count * number base right count =
      ∑ place ∈ range count, ∑ index ∈ range count,
        left place * right index * base ^ (place + index) := by
    unfold number
    rw [sum_mul_sum]
    refine sum_congr rfl fun place _ => sum_congr rfl fun index _ => ?_
    ring
  obtain ⟨rest, multiple⟩ := beyond
  rw [product, ← sum_congr rfl split, sum_add_distrib, multiple, triangle,
    Nat.add_mul_mod_self_left]

/-- The product is the sum of the columns, as far as the digits reach. -/
theorem number_mul (count : Nat) :
    number base left count * number base right count % base ^ count =
      (∑ place ∈ range count, column base left right place * base ^ place) %
        base ^ count := by
  rw [sum_diagonal]
  cases count with
  | zero => rfl
  | succ count =>
      rw [← sum_column, Nat.mul_comm (highs base left right count),
        Nat.add_mul_mod_self_left]

/-- The product of two numbers of four digits. -/
theorem number_mul_four :
    number base left 4 * number base right 4 % base ^ 4 =
      (column base left right 0 + column base left right 1 * base +
          column base left right 2 * base ^ 2 +
        column base left right 3 * base ^ 3) % base ^ 4 := by
  rw [number_mul]
  simp [sum_range_succ]

/-- The carry of the second column from below, moved up two places instead of
one, shows unless there is none. -/
theorem carried_far_eq_iff {first second third fourth : Nat}
    (large : 2 < base) (few : third < 3 * base) :
    (fourth + third % base * base + second * base ^ 2 +
          (third / base + first) * base ^ 3) % base ^ 4 =
        (fourth + third * base + second * base ^ 2 + first * base ^ 3) %
          base ^ 4 ↔
      third < base := by
  have positive : 0 < base := by omega
  have divided := Nat.div_add_mod third base
  have small : third / base < 3 := Nat.div_lt_of_lt_mul (by linarith)
  have left : third % base < base := Nat.mod_lt _ positive
  generalize third / base = carry at divided small ⊢
  generalize third % base = rest at divided left ⊢
  have less : carry * base ^ 2 ≤ carry * base ^ 3 :=
    Nat.mul_le_mul_left _ (Nat.pow_le_pow_right positive (by decide))
  have near : fourth + third * base + second * base ^ 2 + first * base ^ 3 =
      fourth + rest * base + second * base ^ 2 + first * base ^ 3 +
        carry * base ^ 2 := by
    rw [← divided]
    ring
  have far : fourth + rest * base + second * base ^ 2 +
        (carry + first) * base ^ 3 =
      fourth + rest * base + second * base ^ 2 + first * base ^ 3 +
        carry * base ^ 3 := by
    ring
  rw [near, far]
  constructor
  · intro same
    have shifted :
        Nat.ModEq (base ^ 4) (carry * base ^ 2) (carry * base ^ 3) :=
      (Nat.ModEq.add_left_cancel' _ same).symm
    have multiple := (Nat.modEq_iff_dvd' less).mp shifted
    have none : carry = 0 := by
      by_contra some
      have more : carry * base ^ 2 < carry * base ^ 3 :=
        Nat.mul_lt_mul_of_pos_left
          (Nat.pow_lt_pow_right (by omega) (by decide))
          (Nat.pos_of_ne_zero some)
      have below : carry * base ^ 3 < base ^ 4 := by
        rw [show base ^ 4 = base * base ^ 3 from Nat.pow_succ']
        exact Nat.mul_lt_mul_of_pos_right (by omega) (Nat.pow_pos positive)
      have reached := Nat.le_of_dvd (by omega) multiple
      omega
    rw [none, Nat.mul_zero, Nat.zero_add] at divided
    exact divided ▸ left
  · intro fits
    have none : carry = 0 := by
      by_contra some
      have reached : base * 1 ≤ base * carry :=
        Nat.mul_le_mul_left _ (Nat.pos_of_ne_zero some)
      omega
    rw [none, Nat.zero_mul, Nat.zero_mul]

end Columns

end LedgerOne
