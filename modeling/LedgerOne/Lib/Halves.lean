import Mathlib.Data.Nat.Bitwise
import Mathlib.Tactic.Ring
import Mathlib.Tactic.Linarith

/-!
# Numbers as two halves

A number of twice a width as its upper and its lower half.  Every operation is
given as the operations on the halves that a machine has: shifts that drop what
leaves a half, sums and differences without a carry, and comparisons.
-/

namespace LedgerOne

namespace Halves

variable {width : Nat} {upper lower upper' lower' : Nat}

/-- The number with these halves. -/
def join (width upper lower : Nat) : Nat := upper * 2 ^ width + lower

@[simp] theorem join_zero_upper (lower : Nat) : join width 0 lower = lower := by
  rw [join, Nat.zero_mul, Nat.zero_add]

theorem join_lt (above : upper < 2 ^ width) (below : lower < 2 ^ width) :
    join width upper lower < 2 ^ (2 * width) := by
  have product : (upper + 1) * 2 ^ width ≤ 2 ^ width * 2 ^ width :=
    Nat.mul_le_mul_right _ above
  rw [join, Nat.two_mul, Nat.pow_add]
  linarith

/-- What leaves the upper half is lost. -/
theorem join_mod (below : lower < 2 ^ width) :
    join width upper lower % 2 ^ (2 * width) =
      join width (upper % 2 ^ width) lower := by
  have parted : join width upper lower =
      join width (upper % 2 ^ width) lower +
        2 ^ (2 * width) * (upper / 2 ^ width) := by
    have divided := Nat.div_add_mod upper (2 ^ width)
    unfold join
    rw [Nat.two_mul, Nat.pow_add]
    calc upper * 2 ^ width + lower
        = (2 ^ width * (upper / 2 ^ width) + upper % 2 ^ width) * 2 ^ width +
            lower := by rw [divided]
      _ = _ := by ring
  rw [parted, Nat.add_mul_mod_self_left]
  exact Nat.mod_eq_of_lt
    (join_lt (Nat.mod_lt _ (Nat.two_pow_pos width)) below)

/-! ## Shifts -/

section Shifts

variable {shift : Nat} (within : shift ≤ width)

include within

private theorem two_pow_parts : 2 ^ width = 2 ^ shift * 2 ^ (width - shift) := by
  rw [← Nat.pow_add]
  congr 1
  omega

/-- A shift to the left: the upper bits of the lower half move over. -/
theorem join_shiftLeft :
    join width
        ((upper * 2 ^ shift + lower / 2 ^ (width - shift)) % 2 ^ width)
        (lower * 2 ^ shift % 2 ^ width) =
      join width upper lower * 2 ^ shift % 2 ^ (2 * width) := by
  have moved : lower * 2 ^ shift / 2 ^ width = lower / 2 ^ (width - shift) := by
    rw [two_pow_parts within, Nat.mul_comm (2 ^ shift)]
    exact Nat.mul_div_mul_right _ _ (Nat.two_pow_pos shift)
  have whole : join width upper lower * 2 ^ shift =
      join width (upper * 2 ^ shift + lower / 2 ^ (width - shift))
        (lower * 2 ^ shift % 2 ^ width) := by
    have divided := Nat.div_add_mod (lower * 2 ^ shift) (2 ^ width)
    rw [moved] at divided
    unfold join
    calc (upper * 2 ^ width + lower) * 2 ^ shift
        = upper * 2 ^ width * 2 ^ shift + lower * 2 ^ shift := by ring
      _ = upper * 2 ^ width * 2 ^ shift +
            (2 ^ width * (lower / 2 ^ (width - shift)) +
              lower * 2 ^ shift % 2 ^ width) := by rw [divided]
      _ = _ := by ring
  rw [whole, join_mod (Nat.mod_lt _ (Nat.two_pow_pos width))]

/-- A shift to the right: the lower bits of the upper half move over. -/
theorem join_shiftRight (below : lower < 2 ^ width) :
    upper * 2 ^ (width - shift) % 2 ^ width + lower / 2 ^ shift < 2 ^ width ∧
      join width (upper / 2 ^ shift)
          (upper * 2 ^ (width - shift) % 2 ^ width + lower / 2 ^ shift) =
        join width upper lower / 2 ^ shift := by
  have parts := two_pow_parts within
  have kept : upper * 2 ^ (width - shift) % 2 ^ width =
      upper % 2 ^ shift * 2 ^ (width - shift) := by
    rw [parts]
    exact Nat.mul_mod_mul_right _ _ _
  have small : lower / 2 ^ shift < 2 ^ (width - shift) := by
    apply Nat.div_lt_of_lt_mul
    rwa [← parts]
  have digit : upper % 2 ^ shift < 2 ^ shift :=
    Nat.mod_lt _ (Nat.two_pow_pos shift)
  rw [kept]
  constructor
  · have product : (upper % 2 ^ shift + 1) * 2 ^ (width - shift) ≤
        2 ^ shift * 2 ^ (width - shift) := Nat.mul_le_mul_right _ digit
    rw [parts]
    linarith
  · have divided := Nat.div_add_mod upper (2 ^ shift)
    have whole : join width upper lower =
        2 ^ shift * (upper / 2 ^ shift * 2 ^ width +
          upper % 2 ^ shift * 2 ^ (width - shift)) + lower := by
      unfold join
      calc upper * 2 ^ width + lower
          = (2 ^ shift * (upper / 2 ^ shift) + upper % 2 ^ shift) *
              2 ^ width + lower := by rw [divided]
        _ = 2 ^ shift * (upper / 2 ^ shift * 2 ^ width) +
              upper % 2 ^ shift * (2 ^ shift * 2 ^ (width - shift)) +
                lower := by
            rw [← parts]
            ring
        _ = _ := by ring
    rw [whole, Nat.mul_add_div (Nat.two_pow_pos shift)]
    unfold join
    ring

end Shifts

/-- A shift to the left by more than a half. -/
theorem join_shiftLeft_far (shift : Nat) :
    join width (lower * 2 ^ shift % 2 ^ width) 0 =
      join width upper lower * 2 ^ (width + shift) % 2 ^ (2 * width) := by
  have whole : join width upper lower * 2 ^ (width + shift) =
      join width (lower * 2 ^ shift) 0 +
        2 ^ (2 * width) * (upper * 2 ^ shift) := by
    unfold join
    rw [Nat.two_mul, Nat.pow_add, Nat.pow_add]
    ring
  rw [whole, Nat.add_mul_mod_self_left, join_mod (Nat.two_pow_pos width)]

/-- A shift to the right by more than a half. -/
theorem join_shiftRight_far (shift : Nat) (below : lower < 2 ^ width) :
    upper / 2 ^ shift = join width upper lower / 2 ^ (width + shift) := by
  rw [Nat.pow_add, ← Nat.div_div_eq_div_mul, join, Nat.mul_comm,
    Nat.mul_add_div (Nat.two_pow_pos width), Nat.div_eq_of_lt below,
    Nat.add_zero]

/-! ## Sums and differences -/

/-- A sum: the lower half carries when it comes out below what it was. -/
theorem join_add (below : lower < 2 ^ width) (below' : lower' < 2 ^ width) :
    join width
        ((upper + upper' +
          (if (lower + lower') % 2 ^ width < lower then 1 else 0)) %
            2 ^ width)
        ((lower + lower') % 2 ^ width) =
      (join width upper lower + join width upper' lower') %
        2 ^ (2 * width) := by
  have whole : join width upper lower + join width upper' lower' =
      join width (upper + upper' +
        (if (lower + lower') % 2 ^ width < lower then 1 else 0))
        ((lower + lower') % 2 ^ width) := by
    unfold join
    by_cases carries : 2 ^ width ≤ lower + lower'
    · have rest : (lower + lower') % 2 ^ width =
          lower + lower' - 2 ^ width := by
        rw [Nat.mod_eq_sub_mod carries, Nat.mod_eq_of_lt (by omega)]
      rw [rest, if_pos (by omega)]
      have restored : lower + lower' - 2 ^ width + 2 ^ width =
          lower + lower' := Nat.sub_add_cancel carries
      linarith
    · rw [Nat.mod_eq_of_lt (not_le.mp carries), if_neg (by omega)]
      ring
  rw [whole, join_mod (Nat.mod_lt _ (Nat.two_pow_pos width))]

/-- A difference that does not go below zero. -/
private theorem join_sub_of_le (below : lower < 2 ^ width)
    (below' : lower' < 2 ^ width)
    (smaller : join width upper' lower' ≤ join width upper lower) :
    let difference := (lower + 2 ^ width - lower') % 2 ^ width
    let borrow := if lower < difference then 1 else 0
    upper' + borrow ≤ upper ∧
      join width (upper - upper' - borrow) difference =
        join width upper lower - join width upper' lower' := by
  dsimp only
  unfold join at smaller ⊢
  by_cases borrows : lower < lower'
  · have difference : (lower + 2 ^ width - lower') % 2 ^ width =
        lower + 2 ^ width - lower' := Nat.mod_eq_of_lt (by omega)
    rw [difference, if_pos (by omega)]
    have larger : upper' + 1 ≤ upper := by
      by_contra not
      have product : upper * 2 ^ width ≤ upper' * 2 ^ width :=
        Nat.mul_le_mul_right _ (by omega)
      omega
    obtain ⟨extra, rfl⟩ := Nat.exists_eq_add_of_le larger
    refine ⟨larger, ?_⟩
    have kept : upper' + 1 + extra - upper' - 1 = extra := by omega
    have spread : (upper' + 1 + extra) * 2 ^ width =
        upper' * 2 ^ width + 2 ^ width + extra * 2 ^ width := by ring
    rw [kept, spread]
    omega
  · have difference : (lower + 2 ^ width - lower') % 2 ^ width =
        lower - lower' := by
      have turned : lower + 2 ^ width - lower' =
          lower - lower' + 2 ^ width := by omega
      rw [turned, Nat.add_mod_right, Nat.mod_eq_of_lt (by omega)]
    rw [difference, if_neg (by omega)]
    have larger : upper' ≤ upper := by
      by_contra not
      have product : (upper + 1) * 2 ^ width ≤ upper' * 2 ^ width :=
        Nat.mul_le_mul_right _ (by omega)
      have spread : (upper + 1) * 2 ^ width =
          upper * 2 ^ width + 2 ^ width := by ring
      omega
    obtain ⟨extra, rfl⟩ := Nat.exists_eq_add_of_le larger
    refine ⟨by omega, ?_⟩
    have kept : upper' + extra - upper' - 0 = extra := by omega
    have spread : (upper' + extra) * 2 ^ width =
        upper' * 2 ^ width + extra * 2 ^ width := by ring
    rw [kept, spread]
    omega

/-- A difference: the lower half borrows when it comes out above what it
was. -/
theorem join_sub (below : lower < 2 ^ width) (above' : upper' < 2 ^ width)
    (below' : lower' < 2 ^ width) :
    let difference := (lower + 2 ^ width - lower') % 2 ^ width
    let borrow := if lower < difference then 1 else 0
    join width ((upper + 2 ^ width - upper' - borrow) % 2 ^ width)
        difference =
      (join width upper lower + 2 ^ (2 * width) - join width upper' lower') %
        2 ^ (2 * width) := by
  dsimp only
  have raised : join width (upper + 2 ^ width) lower =
      join width upper lower + 2 ^ (2 * width) := by
    unfold join
    rw [Nat.two_mul, Nat.pow_add]
    ring
  have smaller : join width upper' lower' ≤
      join width (upper + 2 ^ width) lower := by
    have bound := join_lt above' below'
    omega
  obtain ⟨_, difference⟩ := join_sub_of_le below below' smaller
  rw [← raised, ← difference,
    join_mod (Nat.mod_lt _ (Nat.two_pow_pos width))]

/-! ## Comparisons and bits -/

theorem join_lt_join (below : lower < 2 ^ width)
    (below' : lower' < 2 ^ width) :
    join width upper lower < join width upper' lower' ↔
      if upper = upper' then lower < lower' else upper < upper' := by
  unfold join
  split
  · next same =>
    subst same
    omega
  · next different =>
    rcases Nat.lt_or_gt_of_ne different with less | greater
    · have product : (upper + 1) * 2 ^ width ≤ upper' * 2 ^ width :=
        Nat.mul_le_mul_right _ less
      have spread : (upper + 1) * 2 ^ width =
          upper * 2 ^ width + 2 ^ width := by ring
      omega
    · have product : (upper' + 1) * 2 ^ width ≤ upper * 2 ^ width :=
        Nat.mul_le_mul_right _ greater
      have spread : (upper' + 1) * 2 ^ width =
          upper' * 2 ^ width + 2 ^ width := by ring
      omega

theorem join_inj (below : lower < 2 ^ width) (below' : lower' < 2 ^ width) :
    join width upper lower = join width upper' lower' ↔
      upper = upper' ∧ lower = lower' := by
  constructor
  · intro same
    have first : join width upper lower < join width upper' lower' ↔ _ :=
      join_lt_join below below'
    have second : join width upper' lower' < join width upper lower ↔ _ :=
      join_lt_join below' below
    rw [same] at first second
    by_cases equal : upper = upper'
    · subst equal
      simp at first second
      omega
    · simp [equal, Ne.symm equal] at first second
      omega
  · rintro ⟨rfl, rfl⟩
    rfl

theorem join_or (below : lower < 2 ^ width) (below' : lower' < 2 ^ width) :
    join width (upper ||| upper') (lower ||| lower') =
      join width upper lower ||| join width upper' lower' := by
  have bits : ∀ {upper lower : Nat}, lower < 2 ^ width ->
      join width upper lower = upper <<< width ||| lower := by
    intro upper lower small
    rw [join, Nat.shiftLeft_eq, Nat.mul_comm]
    exact Nat.two_pow_add_eq_or_of_lt small upper
  rw [bits (Nat.or_lt_two_pow below below'), bits below, bits below',
    Nat.shiftLeft_or_distrib]
  simp only [Nat.or_assoc]
  congr 1
  rw [← Nat.or_assoc, Nat.or_comm _ lower, Nat.or_assoc]

end Halves

end LedgerOne
