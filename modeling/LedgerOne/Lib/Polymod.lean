import Mathlib.Data.Nat.Bitwise

/-!
# Checksums of five-bit values

A register of thirty bits that takes one value of five bits after the other:
each step moves the register up by five bits, adds the value, and folds what
leaves the register back in by five generators.  A step is linear for exclusive
or, so the register after six zeros tells which six values lead it to any given
end.
-/

namespace LedgerOne

namespace Polymod

variable (generators : List Nat)

/-- What is folded back in for the bits that leave the register. -/
def fold (top : Nat) : Nat :=
  generators.zipIdx.foldr
    (fun (generator, index) rest =>
      (if top.testBit index then generator else 0) ^^^ rest) 0

/-- The register after a zero. -/
def advance (chk : Nat) : Nat :=
  (chk % 2 ^ 25) <<< 5 ^^^ fold generators (chk / 2 ^ 25)

/-- The register after a value. -/
def step (chk value : Nat) : Nat := advance generators chk ^^^ value

/-- The six values of a register, the upper ones first. -/
def digits (chk : Nat) : List Nat :=
  (List.range 6).map fun index => chk / 2 ^ (5 * (5 - index)) % 2 ^ 5

@[simp] theorem length_digits (chk : Nat) : (digits chk).length = 6 := by
  simp [digits]

theorem lt_of_mem_digits {chk value : Nat} (member : value ∈ digits chk) :
    value < 32 := by
  obtain ⟨index, _, rfl⟩ := List.mem_map.mp member
  exact Nat.mod_lt _ (by decide)

/-! ## Linearity -/

@[simp] theorem fold_zero : fold generators 0 = 0 := by
  unfold fold
  induction generators.zipIdx with
  | nil => rfl
  | cons head rest inductionHypothesis =>
      rw [List.foldr_cons, inductionHypothesis]
      simp

/-- Exclusive or of two choices of the same number. -/
private theorem xor_choice (left right : Bool) (number : Nat) :
    (if (left ^^ right) then number else 0) =
      (if left then number else 0) ^^^ (if right then number else 0) := by
  cases left <;> cases right <;> simp

private theorem xor_rearrange (a b c d : Nat) :
    a ^^^ b ^^^ (c ^^^ d) = a ^^^ c ^^^ (b ^^^ d) := by
  simp only [Nat.xor_assoc]
  rw [← Nat.xor_assoc b c d, Nat.xor_comm b c, Nat.xor_assoc c b d]

theorem fold_xor (left right : Nat) :
    fold generators (left ^^^ right) =
      fold generators left ^^^ fold generators right := by
  unfold fold
  induction generators.zipIdx with
  | nil => simp
  | cons head rest inductionHypothesis =>
      rw [List.foldr_cons, List.foldr_cons, List.foldr_cons,
        inductionHypothesis]
      dsimp only
      rw [Nat.testBit_xor, xor_choice, xor_rearrange]

/-- A step is linear. -/
theorem advance_xor (left right : Nat) :
    advance generators (left ^^^ right) =
      advance generators left ^^^ advance generators right := by
  unfold advance
  rw [Nat.xor_mod_two_pow, Nat.shiftLeft_xor_distrib, Nat.xor_div_two_pow,
    fold_xor, xor_rearrange]

/-- A register that nothing leaves only moves up. -/
theorem advance_of_lt {chk : Nat} (small : chk < 2 ^ 25) :
    advance generators chk = chk * 2 ^ 5 := by
  unfold advance
  rw [Nat.mod_eq_of_lt small, Nat.div_eq_of_lt small, fold_zero,
    Nat.xor_zero, Nat.shiftLeft_eq]

section Bounded

variable {generators} (bounded : ∀ generator ∈ generators, generator < 2 ^ 30)

include bounded

theorem fold_lt (top : Nat) : fold generators top < 2 ^ 30 := by
  unfold fold
  have within : ∀ pair ∈ generators.zipIdx, pair.1 < 2 ^ 30 :=
    fun pair member => bounded pair.1 (List.fst_mem_of_mem_zipIdx member)
  generalize generators.zipIdx = pairs at within ⊢
  induction pairs with
  | nil => exact Nat.two_pow_pos 30
  | cons head rest inductionHypothesis =>
      rw [List.foldr_cons]
      apply Nat.xor_lt_two_pow
      · have small := within head (List.mem_cons_self ..)
        split
        · exact small
        · exact Nat.two_pow_pos 30
      · exact inductionHypothesis fun pair member =>
          within pair (List.mem_cons_of_mem _ member)

theorem advance_lt (chk : Nat) : advance generators chk < 2 ^ 30 := by
  apply Nat.xor_lt_two_pow
  · rw [Nat.shiftLeft_eq]
    have below : chk % 2 ^ 25 < 2 ^ 25 := Nat.mod_lt _ (by decide)
    omega
  · exact fold_lt bounded _

theorem step_lt {chk value : Nat} (small : value < 2 ^ 30) :
    step generators chk value < 2 ^ 30 :=
  Nat.xor_lt_two_pow (advance_lt bounded chk) small

end Bounded

/-! ## The six last values -/

/-- The register after so many zeros. -/
def advances : Nat -> Nat -> Nat
  | 0, chk => chk
  | count + 1, chk => advance generators (advances count chk)

theorem foldl_zeros (count chk : Nat) :
    (List.range count).foldl (fun chk _ => step generators chk 0) chk =
      advances generators count chk := by
  induction count with
  | zero => rfl
  | succ count inductionHypothesis =>
      rw [List.range_succ, List.foldl_append, inductionHypothesis]
      simp [step, advances]

/-- The upper bits of a number and the five bits below them. -/
private theorem shift_xor_digit (number : Nat) :
    (number / 2 ^ 5) * 2 ^ 5 ^^^ number % 2 ^ 5 = number := by
  apply Nat.eq_of_testBit_eq
  intro index
  rw [Nat.testBit_xor, Nat.testBit_mod_two_pow, ← Nat.shiftLeft_eq,
    Nat.testBit_shiftLeft, Nat.testBit_div_two_pow]
  by_cases low : index < 5
  · simp [low, show ¬5 ≤ index by omega]
  · have high : 5 ≤ index := by omega
    simp [low, high]

/-- After some of the six values of a number below `2 ^ 30` the register has
moved on as with zeros and holds the bits of the number so far. -/
theorem foldl_digits {target : Nat} (small : target < 2 ^ 30) (chk : Nat)
    {count : Nat} (upTo : count ≤ 6) :
    ((digits target).take count).foldl (step generators) chk =
      advances generators count chk ^^^ target / 2 ^ (5 * (6 - count)) := by
  induction count with
  | zero =>
      have gone : target / 2 ^ (5 * (6 - 0)) = 0 := Nat.div_eq_of_lt small
      rw [gone]
      simp [advances]
  | succ count inductionHypothesis =>
      have inside : count < (digits target).length := by
        rw [length_digits]
        omega
      rw [List.take_succ_eq_append_getElem inside, List.foldl_append,
        inductionHypothesis (by omega)]
      have before : target / 2 ^ (5 * (6 - count)) < 2 ^ 25 := by
        apply Nat.div_lt_of_lt_mul
        calc target < 2 ^ 30 := small
          _ ≤ 2 ^ (5 * (6 - count) + 25) :=
            Nat.pow_le_pow_right (by decide) (by omega)
          _ = 2 ^ (5 * (6 - count)) * 2 ^ 25 := Nat.pow_add ..
      have parted : target / 2 ^ (5 * (6 - count)) =
          target / 2 ^ (5 * (6 - (count + 1))) / 2 ^ 5 := by
        rw [Nat.div_div_eq_div_mul, ← Nat.pow_add]
        congr 2
        omega
      have digit : (digits target)[count] =
          target / 2 ^ (5 * (6 - (count + 1))) % 2 ^ 5 := by
        simp only [digits, List.getElem_map, List.getElem_range]
        congr 3
        omega
      rw [List.foldl_cons, List.foldl_nil, digit]
      unfold step
      rw [advance_xor, advance_of_lt generators before, parted,
        Nat.xor_assoc, shift_xor_digit]
      rfl

/-- The values that lead the register to a given end. -/
theorem foldl_checksum {target : Nat} (small : target < 2 ^ 30) (chk : Nat)
    (below : advances generators 6 chk < 2 ^ 30) :
    (digits (advances generators 6 chk ^^^ target)).foldl (step generators)
      chk = target := by
  have whole := foldl_digits generators (Nat.xor_lt_two_pow below small) chk
    (Nat.le_refl 6)
  rw [List.take_of_length_le (by simp)] at whole
  rw [whole, Nat.sub_self, Nat.mul_zero, Nat.pow_zero, Nat.div_one,
    ← Nat.xor_assoc, Nat.xor_self, Nat.zero_xor]

end Polymod

end LedgerOne
