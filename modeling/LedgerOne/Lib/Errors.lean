import LedgerOne.Lib.Polymod

/-!
# Errors that a checksum shows

Two lists with the same checksum differ by a list that leads a register of
zeros back to zero.  Where no value alone gets the register back into its five
lowest bits, such a list has either no value at all or at least three.
-/

namespace LedgerOne

namespace Polymod

/-- The number of places in which two lists differ. -/
def mismatches {α : Type} [DecidableEq α] (left right : List α) : Nat :=
  (left.zip right).countP fun pair => pair.1 ≠ pair.2

section Mismatches

variable {α β : Type} [DecidableEq α] [DecidableEq β]

@[simp] theorem mismatches_nil (right : List α) : mismatches [] right = 0 := rfl

@[simp] theorem mismatches_cons (a b : α) (left right : List α) :
    mismatches (a :: left) (b :: right) =
      mismatches left right + if a ≠ b then 1 else 0 := by
  simp only [mismatches, List.zip_cons_cons, List.countP_cons, decide_eq_true_eq]

/-- A common start has no mismatch. -/
theorem mismatches_append (front left right : List α) :
    mismatches (front ++ left) (front ++ right) = mismatches left right := by
  induction front with
  | nil => rfl
  | cons a front inductionHypothesis => simp [inductionHypothesis]

/-- Writing the values in other characters keeps the mismatches. -/
theorem mismatches_map {f : α -> β} {left right : List α}
    (injective : ∀ a ∈ left, ∀ b ∈ right, f a = f b -> a = b) :
    mismatches (left.map f) (right.map f) = mismatches left right := by
  induction left generalizing right with
  | nil => rfl
  | cons a left inductionHypothesis =>
      cases right with
      | nil => rfl
      | cons b right =>
          have same : f a = f b ↔ a = b :=
            ⟨injective a List.mem_cons_self b List.mem_cons_self,
              congrArg f⟩
          rw [List.map_cons, List.map_cons, mismatches_cons, mismatches_cons,
            inductionHypothesis fun c among d within =>
              injective c (List.mem_cons_of_mem _ among) d
                (List.mem_cons_of_mem _ within)]
          simp only [ne_eq, same]

/-- Lists without a mismatch are the same. -/
theorem eq_of_mismatches_zero {left right : List α}
    (length : left.length = right.length)
    (none : mismatches left right = 0) : left = right := by
  induction left generalizing right with
  | nil => exact (List.length_eq_zero_iff.mp length.symm).symm
  | cons a left inductionHypothesis =>
      cases right with
      | nil => cases length
      | cons b right =>
          rw [mismatches_cons] at none
          have first : a = b := by
            by_contra different
            rw [if_pos different] at none
            cases none
          rw [first, inductionHypothesis (Nat.succ.inj length) (by omega)]

end Mismatches

/-! ## What tells two lists apart -/

variable (generators : List Nat)

/-- The exclusive or of two lists, value by value. -/
def difference (left right : List Nat) : List Nat :=
  List.zipWith (· ^^^ ·) left right

/-- The number of values other than zero. -/
def weight (values : List Nat) : Nat := values.countP (· ≠ 0)

@[simp] theorem weight_cons (value : Nat) (values : List Nat) :
    weight (value :: values) = weight values + if value ≠ 0 then 1 else 0 := by
  simp only [weight, List.countP_cons, decide_eq_true_eq]

theorem weight_difference (left right : List Nat) :
    weight (difference left right) = mismatches left right := by
  induction left generalizing right with
  | nil => rfl
  | cons a left inductionHypothesis =>
      cases right with
      | nil => rfl
      | cons b right =>
          rw [difference, List.zipWith_cons_cons, weight_cons,
            mismatches_cons, ← inductionHypothesis]
          simp only [ne_eq, Nat.xor_eq_zero_iff, difference]

/-- The difference of two lists of five-bit values is one. -/
theorem lt_of_mem_difference {left right : List Nat}
    (small : ∀ value ∈ left, value < 2 ^ 5)
    (little : ∀ value ∈ right, value < 2 ^ 5) :
    ∀ value ∈ difference left right, value < 2 ^ 5 := by
  intro value member
  rw [difference, ← List.map_uncurry_zip_eq_zipWith] at member
  obtain ⟨⟨a, b⟩, paired, rfl⟩ := List.mem_map.mp member
  obtain ⟨among, within⟩ := List.of_mem_zip paired
  exact Nat.xor_lt_two_pow (small a among) (little b within)

theorem step_xor (left right a b : Nat) :
    step generators left a ^^^ step generators right b =
      step generators (left ^^^ right) (a ^^^ b) := by
  unfold step
  rw [advance_xor, Nat.xor_assoc, Nat.xor_assoc, ← Nat.xor_assoc a,
    ← Nat.xor_assoc (advance generators right), Nat.xor_comm a]

/-- The registers of two lists differ by the register of their difference. -/
theorem foldl_difference {left right : List Nat}
    (length : left.length = right.length) (one other : Nat) :
    left.foldl (step generators) one ^^^
        right.foldl (step generators) other =
      (difference left right).foldl (step generators) (one ^^^ other) := by
  induction left generalizing right one other with
  | nil =>
      rw [List.length_eq_zero_iff.mp length.symm]
      rfl
  | cons a left inductionHypothesis =>
      cases right with
      | nil => cases length
      | cons b right =>
          rw [List.foldl_cons, List.foldl_cons,
            inductionHypothesis (Nat.succ.inj length), step_xor]
          rfl

/-! ## Errors -/

/-- The register stays out of its five lowest bits for so many steps. -/
def far : Nat -> Nat -> Bool
  | 0, _ => true
  | count + 1, chk => decide (32 ≤ advance generators chk) &&
      far count (advance generators chk)

theorem far_of_le {fewer count : Nat} (less : fewer ≤ count) {chk : Nat}
    (distant : far generators count chk) : far generators fewer chk := by
  induction fewer generalizing count chk with
  | zero => rfl
  | succ fewer inductionHypothesis =>
      obtain ⟨rest, rfl⟩ := Nat.exists_eq_succ_of_ne_zero
        (show count ≠ 0 by omega)
      rw [far, Bool.and_eq_true] at distant ⊢
      exact ⟨distant.1, inductionHypothesis (by omega) distant.2⟩

section Errors

variable {generators}
  (proper : ∀ top < 32, fold generators top % 32 = 0 -> top = 0)

include proper

/-- A step does not lose the register. -/
theorem advance_ne_zero {chk : Nat} (present : chk ≠ 0)
    (small : chk < 2 ^ 30) : advance generators chk ≠ 0 := by
  intro lost
  have same : (chk % 2 ^ 25) <<< 5 = fold generators (chk / 2 ^ 25) :=
    Nat.xor_eq_zero_iff.mp lost
  rw [Nat.shiftLeft_eq] at same
  have top : chk / 2 ^ 25 = 0 := by
    apply proper _ (by omega)
    rw [← same]
    exact Nat.mul_mod_left _ 32
  rw [top, fold_zero] at same
  omega

variable (bounded : ∀ generator ∈ generators, generator < 2 ^ 30)

include bounded

/-- Zeros do not lead the register to zero. -/
theorem foldl_zeros_ne_zero {values : List Nat} (none : weight values = 0)
    {chk : Nat} (present : chk ≠ 0) (small : chk < 2 ^ 30) :
    values.foldl (step generators) chk ≠ 0 := by
  induction values generalizing chk with
  | nil => exact present
  | cons value values inductionHypothesis =>
      rw [weight_cons] at none
      have zero : value = 0 := by
        by_contra other
        rw [if_pos other] at none
        cases none
      subst zero
      rw [List.foldl_cons]
      apply inductionHypothesis (by omega)
      · rw [step, Nat.xor_zero]
        exact advance_ne_zero proper present small
      · exact step_lt bounded (by decide)

/-- From a register whose zeros stay away, one value does not lead to zero
either. -/
theorem foldl_ne_zero {values : List Nat} (few : weight values ≤ 1)
    (digits : ∀ value ∈ values, value < 32) {chk : Nat} (present : chk ≠ 0)
    (small : chk < 2 ^ 30) (distant : far generators values.length chk) :
    values.foldl (step generators) chk ≠ 0 := by
  induction values generalizing chk with
  | nil => exact present
  | cons value values inductionHypothesis =>
      rw [List.length_cons, far, Bool.and_eq_true, decide_eq_true_eq]
        at distant
      rw [weight_cons] at few
      have digit := digits value List.mem_cons_self
      have later := fun other member =>
        digits other (List.mem_cons_of_mem value member)
      have next : step generators chk value < 2 ^ 30 :=
        step_lt bounded (by omega)
      rw [List.foldl_cons]
      by_cases zero : value = 0
      · subst zero
        rw [step, Nat.xor_zero] at next ⊢
        exact inductionHypothesis (by omega) later (by omega) next distant.2
      · rw [if_pos zero] at few
        apply foldl_zeros_ne_zero proper bounded (by omega) ?_ next
        intro lost
        have same := Nat.xor_eq_zero_iff.mp lost
        omega

/-- A list that leads zero to zero has no value or at least three. -/
theorem weight_of_foldl_zero {count : Nat}
    (distant : ∀ value < 32, value ≠ 0 -> far generators count value)
    {values : List Nat} (short : values.length ≤ count + 1)
    (digits : ∀ value ∈ values, value < 32)
    (ends : values.foldl (step generators) 0 = 0) :
    weight values = 0 ∨ 3 ≤ weight values := by
  induction values with
  | nil => exact Or.inl rfl
  | cons value values inductionHypothesis =>
      have digit := digits value List.mem_cons_self
      have later := fun other member =>
        digits other (List.mem_cons_of_mem value member)
      have start : step generators 0 value = value := by
        rw [step, advance_of_lt generators (by decide), Nat.zero_mul,
          Nat.zero_xor]
      rw [List.length_cons] at short
      rw [List.foldl_cons, start] at ends
      rw [weight_cons]
      by_cases zero : value = 0
      · subst zero
        simpa using inductionHypothesis (by omega) later ends
      · right
        rw [if_pos zero]
        by_contra few
        exact foldl_ne_zero proper bounded (by omega) later zero (by omega)
          (far_of_le generators (by omega) (distant value digit zero)) ends

end Errors

end Polymod

end LedgerOne
