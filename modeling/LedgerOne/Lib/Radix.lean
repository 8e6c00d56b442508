import Mathlib.Data.Nat.Digits.Lemmas

/-!
# The digits of a number

The digits of a number in a base, the lowest first and without leading zeros;
the number zero has the digit zero.
-/

namespace LedgerOne

/-- The digits of a number. -/
def radixDigits (base value : Nat) : List Nat :=
  if value = 0 then [0] else Nat.digits base value

variable {base value : Nat}

theorem radixDigits_of_lt (small : value < base) :
    radixDigits base value = [value] := by
  by_cases zero : value = 0
  · subst zero
    rfl
  · rw [radixDigits, if_neg zero, Nat.digits_of_lt base value zero small]

/-- A number of several digits begins with its lowest one. -/
theorem radixDigits_of_le (several : 1 < base) (large : base ≤ value) :
    radixDigits base value =
      value % base :: radixDigits base (value / base) := by
  have shorter : value / base ≠ 0 :=
    Nat.pos_iff_ne_zero.mp (Nat.div_pos large (by omega))
  rw [radixDigits, if_neg (by omega), radixDigits, if_neg shorter,
    Nat.digits_def' several (by omega)]

theorem radixDigits_ne_nil (base value : Nat) : radixDigits base value ≠ [] := by
  unfold radixDigits
  split
  · exact List.cons_ne_nil _ _
  · next positive => exact Nat.digits_ne_nil_iff_ne_zero.mpr positive

theorem length_radixDigits_pos (base value : Nat) :
    0 < (radixDigits base value).length :=
  List.length_pos_iff.mpr (radixDigits_ne_nil base value)

/-- The numbers of at most as many digits. -/
theorem length_radixDigits_le_iff {count : Nat} (several : 1 < base)
    (some : 0 < count) :
    (radixDigits base value).length ≤ count ↔ value < base ^ count := by
  unfold radixDigits
  split
  · next zero =>
    subst zero
    exact iff_of_true some (Nat.pow_pos (by omega))
  · exact Nat.digits_length_le_iff several value

/-- The digits denote the number. -/
theorem ofDigits_radixDigits (base value : Nat) :
    Nat.ofDigits base (radixDigits base value) = value := by
  unfold radixDigits
  split
  · next zero =>
    subst zero
    exact Nat.ofDigits_singleton
  · exact Nat.ofDigits_digits base value

/-- The highest digit of a number is zero for the number zero only. -/
theorem getLast_radixDigits_eq_zero_iff :
    (radixDigits base value).getLast (radixDigits_ne_nil base value) = 0 ↔
      value = 0 := by
  by_cases zero : value = 0
  · subst zero
    simp [radixDigits]
  · have leads := Nat.getLast_digit_ne_zero base zero
    simp only [radixDigits, if_neg zero]
    exact iff_of_false leads zero

theorem lt_of_mem_radixDigits {digit : Nat} (several : 1 < base)
    (member : digit ∈ radixDigits base value) : digit < base := by
  unfold radixDigits at member
  split at member
  · rw [List.mem_singleton.mp member]
    omega
  · exact Nat.digits_lt_base several member

end LedgerOne
