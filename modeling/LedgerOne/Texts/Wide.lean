import LedgerOne.Firmware.Uint256
import LedgerOne.Lib.Halves
import Mathlib.Data.Nat.Size

/-!
# The values of wide numbers

Every operation of `uint256.c` computes the operation on natural numbers, and
the long division divides.
-/

namespace LedgerOne

open Halves

/-! ## 128 bits -/

namespace Uint128

/-- The value of a number. -/
def toNat (number : Uint128) : Nat :=
  join 64 number.upper.toNat number.lower.toNat

theorem toNat_lt (number : Uint128) : number.toNat < 2 ^ 128 :=
  join_lt number.upper.toNat_lt number.lower.toNat_lt

theorem toNat_inj {left right : Uint128} :
    left.toNat = right.toNat ↔ left = right := by
  unfold toNat
  rw [join_inj left.lower.toNat_lt right.lower.toNat_lt, UInt64.toNat_inj,
    UInt64.toNat_inj]
  cases left
  cases right
  simp

end Uint128

@[simp] theorem toNat_clear128 : clear128.toNat = 0 := rfl

theorem zero128_iff (number : Uint128) :
    zero128 number = true ↔ number.toNat = 0 := by
  rw [show (0 : Nat) = clear128.toNat from rfl, Uint128.toNat_inj]
  cases number
  simp [zero128, clear128, and_comm]

theorem toNat_add128 (left right : Uint128) :
    (add128 left right).toNat = (left.toNat + right.toNat) % 2 ^ 128 := by
  have carry : (if left.lower + right.lower < left.lower then (1 : UInt64)
      else 0).toNat =
        if (left.lower.toNat + right.lower.toNat) % 2 ^ 64 <
          left.lower.toNat then 1 else 0 := by
    simp only [UInt64.lt_iff_toNat_lt, UInt64.toNat_add]
    split <;> rfl
  have sum := @join_add 64 left.upper.toNat left.lower.toNat
    right.upper.toNat right.lower.toNat left.lower.toNat_lt
    right.lower.toNat_lt
  unfold Uint128.toNat add128
  dsimp only
  rw [← sum, UInt64.toNat_add, UInt64.toNat_add, UInt64.toNat_add, carry,
    Nat.mod_add_mod]

/-- The difference of two words and a borrowed bit. -/
private theorem toNat_sub_borrow (left right : UInt64) (borrow : Bool) :
    (left - right - (if borrow then 1 else 0)).toNat =
      (left.toNat + 2 ^ 64 - right.toNat - borrow.toNat) % 2 ^ 64 := by
  have bound := left.toNat_lt
  have bound' := right.toNat_lt
  have bit : (if borrow then (1 : UInt64) else 0).toNat = borrow.toNat := by
    cases borrow <;> rfl
  rw [UInt64.toNat_sub, UInt64.toNat_sub, bit]
  cases borrow <;> simp <;> omega

theorem toNat_minus128 (left right : Uint128) :
    (minus128 left right).toNat =
      (left.toNat + 2 ^ 128 - right.toNat) % 2 ^ 128 := by
  have difference := @join_sub 64 left.upper.toNat left.lower.toNat
    right.upper.toNat right.lower.toNat left.lower.toNat_lt
    right.upper.toNat_lt right.lower.toNat_lt
  have lower : (left.lower - right.lower).toNat =
      (left.lower.toNat + 2 ^ 64 - right.lower.toNat) % 2 ^ 64 := by
    have bound := right.lower.toNat_lt
    rw [UInt64.toNat_sub]
    omega
  have borrow : (decide (left.lower < left.lower - right.lower)).toNat =
      if left.lower.toNat <
        (left.lower.toNat + 2 ^ 64 - right.lower.toNat) % 2 ^ 64 then 1
      else 0 := by
    simp only [UInt64.lt_iff_toNat_lt, lower]
    split
    · next borrows => rw [decide_eq_true borrows, Bool.toNat_true]
    · next enough => rw [decide_eq_false enough, Bool.toNat_false]
  have upper := toNat_sub_borrow left.upper right.upper
    (decide (left.lower < left.lower - right.lower))
  simp only [decide_eq_true_eq] at upper
  unfold minus128
  rw [Uint128.toNat, upper, lower, borrow]
  exact difference

theorem gt128_iff (left right : Uint128) :
    gt128 left right = true ↔ right.toNat < left.toNat := by
  unfold gt128 Uint128.toNat
  rw [join_lt_join right.lower.toNat_lt left.lower.toNat_lt]
  by_cases same : left.upper = right.upper
  · rw [if_pos same, if_pos (by rw [same])]
    simp [UInt64.lt_iff_toNat_lt]
  · have different : ¬right.upper.toNat = left.upper.toNat :=
      fun equal => same (UInt64.toNat_inj.mp equal).symm
    rw [if_neg same, if_neg different]
    simp [UInt64.lt_iff_toNat_lt]

theorem equal128_iff (left right : Uint128) :
    equal128 left right = true ↔ left = right := by
  cases left
  cases right
  simp [equal128]

theorem toNat_or128 (left right : Uint128) :
    (or128 left right).toNat = left.toNat ||| right.toNat := by
  unfold or128 Uint128.toNat
  rw [← join_or left.lower.toNat_lt right.lower.toNat_lt, UInt64.toNat_or,
    UInt64.toNat_or]

/-! ## Shifts of 128 bits -/

private theorem toNat_ofNat_small {value : Nat} (small : value < 64) :
    (UInt64.ofNat value).toNat % 64 = value := by
  simp
  omega

private theorem toNat_shiftLeft_word (word : UInt64) {value : Nat}
    (small : value < 64) :
    (word <<< UInt64.ofNat value).toNat =
      word.toNat * 2 ^ value % 2 ^ 64 := by
  rw [UInt64.toNat_shiftLeft, toNat_ofNat_small small, Nat.shiftLeft_eq]

private theorem toNat_shiftRight_word (word : UInt64) {value : Nat}
    (small : value < 64) :
    (word >>> UInt64.ofNat value).toNat = word.toNat / 2 ^ value := by
  rw [UInt64.toNat_shiftRight, toNat_ofNat_small small,
    Nat.shiftRight_eq_div_pow]

theorem toNat_shiftl128 (number : Uint128) {value : Nat}
    (small : value < 128) :
    (shiftl128 number value).toNat = number.toNat * 2 ^ value % 2 ^ 128 := by
  have bound := number.toNat_lt
  have far : ∀ rest, join 64 (number.lower.toNat * 2 ^ rest % 2 ^ 64) 0 =
      number.toNat * 2 ^ (64 + rest) % 2 ^ 128 :=
    fun rest => join_shiftLeft_far rest
  have near := fun within => @join_shiftLeft 64 number.upper.toNat
    number.lower.toNat value within
  unfold shiftl128
  split_ifs with out word none short
  · omega
  · subst word
    rw [← far 0, Nat.pow_zero, Nat.mul_one,
      Nat.mod_eq_of_lt number.lower.toNat_lt]
    rfl
  · rw [none, Nat.pow_zero, Nat.mul_one, Nat.mod_eq_of_lt bound]
  · rw [show number.toNat = join 64 number.upper.toNat number.lower.toNat
      from rfl, ← near (by omega)]
    unfold Uint128.toNat
    dsimp only
    rw [UInt64.toNat_add, toNat_shiftLeft_word _ short,
      toNat_shiftRight_word _ (by omega), toNat_shiftLeft_word _ short,
      Nat.mod_add_mod]
  · have split : value = 64 + (value - 64) := by omega
    rw [split, ← far, ← split]
    unfold Uint128.toNat
    dsimp only
    rw [toNat_shiftLeft_word _ (by omega)]
    rfl

theorem toNat_shiftr128 (number : Uint128) {value : Nat}
    (small : value < 128) :
    (shiftr128 number value).toNat = number.toNat / 2 ^ value := by
  have far : ∀ rest, number.upper.toNat / 2 ^ rest =
      number.toNat / 2 ^ (64 + rest) :=
    fun rest => join_shiftRight_far rest number.lower.toNat_lt
  have near := fun within => @join_shiftRight 64 number.upper.toNat
    number.lower.toNat value within number.lower.toNat_lt
  unfold shiftr128
  split_ifs with out word none short
  · omega
  · subst word
    rw [← far 0, Nat.pow_zero, Nat.div_one]
    simp [Uint128.toNat]
  · rw [none, Nat.pow_zero, Nat.div_one]
  · obtain ⟨fits, shifted⟩ := near (by omega)
    rw [show number.toNat = join 64 number.upper.toNat number.lower.toNat
      from rfl, ← shifted]
    unfold Uint128.toNat
    dsimp only
    rw [UInt64.toNat_add, toNat_shiftRight_word _ short,
      toNat_shiftLeft_word _ (by omega), toNat_shiftRight_word _ short,
      Nat.mod_eq_of_lt fits]
  · have split : value = 64 + (value - 64) := by omega
    rw [split, ← far, ← split]
    unfold Uint128.toNat
    dsimp only
    rw [toNat_shiftRight_word _ (by omega), UInt64.toNat_zero,
      join_zero_upper]

/-! ## 256 bits -/

namespace Uint256

/-- The value of a number. -/
def toNat (number : Uint256) : Nat :=
  join 128 number.upper.toNat number.lower.toNat

theorem toNat_lt (number : Uint256) : number.toNat < 2 ^ 256 :=
  join_lt number.upper.toNat_lt number.lower.toNat_lt

theorem toNat_inj {left right : Uint256} :
    left.toNat = right.toNat ↔ left = right := by
  unfold toNat
  rw [join_inj left.lower.toNat_lt right.lower.toNat_lt, Uint128.toNat_inj,
    Uint128.toNat_inj]
  cases left
  cases right
  simp

end Uint256

@[simp] theorem toNat_clear256 : clear256.toNat = 0 := rfl

theorem toNat_ofUInt64 (value : UInt64) :
    (Uint256.ofUInt64 value).toNat = value.toNat := by
  show join 128 clear128.toNat (join 64 0 value.toNat) = value.toNat
  rw [toNat_clear128, join_zero_upper, join_zero_upper]

theorem zero256_iff (number : Uint256) :
    zero256 number = true ↔ number.toNat = 0 := by
  rw [← toNat_clear256, Uint256.toNat_inj, zero256, Bool.and_eq_true,
    zero128_iff, zero128_iff, ← toNat_clear128, Uint128.toNat_inj,
    Uint128.toNat_inj]
  cases number
  simp [clear256, and_comm]

theorem toNat_minus256 (left right : Uint256) :
    (minus256 left right).toNat =
      (left.toNat + 2 ^ 256 - right.toNat) % 2 ^ 256 := by
  have difference := @join_sub 128 left.upper.toNat left.lower.toNat
    right.upper.toNat right.lower.toNat left.lower.toNat_lt
    right.upper.toNat_lt right.lower.toNat_lt
  rw [show 2 * 128 = 256 by decide] at difference
  dsimp only at difference
  have one : (⟨0, 1⟩ : Uint128).toNat = 1 := rfl
  have bound := right.upper.toNat_lt
  have twice : ∀ sum : Nat, 0 < sum ->
      (sum % 2 ^ 128 + 2 ^ 128 - 1) % 2 ^ 128 = (sum - 1) % 2 ^ 128 := by
    intro sum positive
    omega
  unfold minus256 Uint256.toNat
  dsimp only
  by_cases borrows : left.lower.toNat <
      (left.lower.toNat + 2 ^ 128 - right.lower.toNat) % 2 ^ 128
  · rw [if_pos borrows] at difference
    rw [if_pos ((gt128_iff _ _).mpr (by rwa [toNat_minus128])),
      toNat_minus128, toNat_minus128, toNat_minus128, one,
      twice _ (by omega)]
    exact difference
  · rw [if_neg borrows, Nat.sub_zero] at difference
    rw [if_neg (mt (gt128_iff _ _).mp (by rwa [toNat_minus128])),
      toNat_minus128, toNat_minus128]
    exact difference

theorem toNat_or256 (left right : Uint256) :
    (or256 left right).toNat = left.toNat ||| right.toNat := by
  unfold or256 Uint256.toNat
  rw [← join_or left.lower.toNat_lt right.lower.toNat_lt, toNat_or128,
    toNat_or128]

theorem gt256_iff (left right : Uint256) :
    gt256 left right = true ↔ right.toNat < left.toNat := by
  unfold gt256 Uint256.toNat
  rw [join_lt_join right.lower.toNat_lt left.lower.toNat_lt]
  by_cases same : left.upper = right.upper
  · rw [if_pos ((equal128_iff _ _).mpr same), if_pos (by rw [same]),
      gt128_iff]
  · have different : ¬right.upper.toNat = left.upper.toNat :=
      fun equal => same (Uint128.toNat_inj.mp equal).symm
    rw [if_neg (mt (equal128_iff _ _).mp same), if_neg different, gt128_iff]

theorem gte256_iff (left right : Uint256) :
    gte256 left right = true ↔ right.toNat ≤ left.toNat := by
  have equal : equal256 left right = true ↔ left.toNat = right.toNat := by
    rw [Uint256.toNat_inj, equal256, Bool.and_eq_true, equal128_iff,
      equal128_iff]
    cases left
    cases right
    simp
  rw [gte256, Bool.or_eq_true, gt256_iff, equal]
  omega

/-! ## Shifts of 256 bits -/

theorem toNat_shiftl256 (number : Uint256) {value : Nat}
    (small : value < 256) :
    (shiftl256 number value).toNat = number.toNat * 2 ^ value % 2 ^ 256 := by
  have bound := number.toNat_lt
  have far : ∀ rest, join 128 (number.lower.toNat * 2 ^ rest % 2 ^ 128) 0 =
      number.toNat * 2 ^ (128 + rest) % 2 ^ 256 :=
    fun rest => join_shiftLeft_far rest
  have near := fun within => @join_shiftLeft 128 number.upper.toNat
    number.lower.toNat value within
  unfold shiftl256
  split_ifs with out half none short
  · omega
  · subst half
    rw [← far 0, Nat.pow_zero, Nat.mul_one,
      Nat.mod_eq_of_lt number.lower.toNat_lt, Uint256.toNat, toNat_clear128]
  · rw [none, Nat.pow_zero, Nat.mul_one, Nat.mod_eq_of_lt bound]
  · rw [show number.toNat = join 128 number.upper.toNat number.lower.toNat
      from rfl, ← near (by omega)]
    unfold Uint256.toNat
    dsimp only
    rw [toNat_add128, toNat_shiftl128 _ short,
      toNat_shiftr128 _ (by omega), toNat_shiftl128 _ short,
      Nat.mod_add_mod]
  · have split : value = 128 + (value - 128) := by omega
    rw [split, ← far, ← split]
    unfold Uint256.toNat
    dsimp only
    rw [toNat_shiftl128 _ (by omega), toNat_clear128]

theorem toNat_shiftr256 (number : Uint256) {value : Nat}
    (small : value < 256) :
    (shiftr256 number value).toNat = number.toNat / 2 ^ value := by
  have far : ∀ rest, number.upper.toNat / 2 ^ rest =
      number.toNat / 2 ^ (128 + rest) :=
    fun rest => join_shiftRight_far rest number.lower.toNat_lt
  have near := fun within => @join_shiftRight 128 number.upper.toNat
    number.lower.toNat value within number.lower.toNat_lt
  unfold shiftr256
  split_ifs with out half none short
  · omega
  · subst half
    rw [← far 0, Nat.pow_zero, Nat.div_one]
    rw [Uint256.toNat, toNat_clear128, join_zero_upper]
  · rw [none, Nat.pow_zero, Nat.div_one]
  · obtain ⟨fits, shifted⟩ := near (by omega)
    rw [show number.toNat = join 128 number.upper.toNat number.lower.toNat
      from rfl, ← shifted]
    unfold Uint256.toNat
    dsimp only
    rw [toNat_add128, toNat_shiftr128 _ short,
      toNat_shiftr128 _ short, toNat_shiftl128 _ (by omega), Nat.add_comm,
      Nat.mod_eq_of_lt fits]
  · have split : value = 128 + (value - 128) := by omega
    rw [split, ← far, ← split]
    unfold Uint256.toNat
    dsimp only
    rw [toNat_shiftr128 _ (by omega), toNat_clear128, join_zero_upper]

/-! ## Bits -/

theorem size_div_two {number : Nat} (positive : 0 < number) :
    number.size = (number / 2).size + 1 := by
  apply Nat.le_antisymm
  · have half : number / 2 < 2 ^ (number / 2).size := Nat.lt_size_self _
    rw [Nat.size_le, Nat.pow_succ]
    omega
  · apply Nat.lt_size.mpr
    by_cases one : number / 2 = 0
    · rw [one, Nat.size_zero]
      exact positive
    · have half : 2 ^ ((number / 2).size - 1) ≤ number / 2 :=
        Nat.lt_size.mp (by
          have := Nat.size_pos.mpr (Nat.pos_of_ne_zero one)
          omega)
      have grown : 2 ^ (number / 2).size = 2 ^ ((number / 2).size - 1) * 2 := by
        rw [← Nat.pow_succ]
        congr 1
        have := Nat.size_pos.mpr (Nat.pos_of_ne_zero one)
        omega
      omega

theorem countBits_eq {rounds : Nat} {number : Uint128}
    (small : number.toNat < 2 ^ rounds) (result : Nat) :
    countBits rounds number result = result + number.toNat.size := by
  induction rounds generalizing number result with
  | zero =>
      have zero : number.toNat = 0 := by simpa using small
      rw [zero, Nat.size_zero]
      rfl
  | succ rounds inductionHypothesis =>
      unfold countBits
      split
      · next zero =>
        rw [(zero128_iff number).mp zero, Nat.size_zero, Nat.add_zero]
      · next positive =>
        have nonzero : 0 < number.toNat :=
          Nat.pos_of_ne_zero fun zero => positive ((zero128_iff _).mpr zero)
        have half : (shiftr128 number 1).toNat = number.toNat / 2 :=
          toNat_shiftr128 number (by decide)
        rw [inductionHypothesis (by rw [half]; omega), half,
          size_div_two nonzero]
        omega

/-- `bits256` counts the bits of a number. -/
theorem bits256_eq (number : Uint256) :
    bits256 number = number.toNat.size := by
  have bound := number.lower.toNat_lt
  unfold bits256
  split
  · next zero =>
    rw [countBits_eq bound, Uint256.toNat, (zero128_iff _).mp zero,
      join_zero_upper, Nat.zero_add]
  · next positive =>
    have nonzero : 0 < number.upper.toNat :=
      Nat.pos_of_ne_zero fun zero => positive ((zero128_iff _).mpr zero)
    rw [countBits_eq number.upper.toNat_lt]
    apply Nat.le_antisymm
    · have some : 0 < number.upper.toNat.size := Nat.size_pos.mpr nonzero
      have upper : 2 ^ (number.upper.toNat.size - 1) ≤ number.upper.toNat :=
        Nat.lt_size.mp (by omega)
      have grown : 2 ^ (128 + number.upper.toNat.size - 1) =
          2 ^ (number.upper.toNat.size - 1) * 2 ^ 128 := by
        rw [← Nat.pow_add]
        congr 1
        omega
      have enough : 128 + number.upper.toNat.size - 1 < number.toNat.size := by
        rw [Nat.lt_size, grown, Uint256.toNat, join]
        exact le_add_right (Nat.mul_le_mul_right _ upper)
      omega
    · rw [Nat.size_le, Nat.add_comm, Nat.pow_add, Uint256.toNat, join]
      have upper : number.upper.toNat < 2 ^ number.upper.toNat.size :=
        Nat.lt_size_self _
      have product : (number.upper.toNat + 1) * 2 ^ 128 ≤
          2 ^ number.upper.toNat.size * 2 ^ 128 :=
        Nat.mul_le_mul_right _ upper
      rw [Nat.add_mul, Nat.one_mul] at product
      exact lt_of_lt_of_le (Nat.add_lt_add_left bound _) product

/-! ## The long division -/

/-- The variables of the division of `l` by `r` before the round of the bit
`k` of the quotient. -/
structure Division.At (l r k : Nat) (state : Division) : Prop where
  copyd : state.copyd.toNat = r * 2 ^ k
  adder : state.adder.toNat = 2 ^ k
  resMod : state.resMod.toNat < r * 2 ^ (k + 1)
  resDiv : 2 ^ (k + 1) ∣ state.resDiv.toNat
  sum : state.resDiv.toNat * r + state.resMod.toNat = l

/-- The part of a round that takes the divisor away. -/
def Division.taken (state : Division) : Division :=
  if gte256 state.resMod state.copyd then
    { state with
      resMod := minus256 state.resMod state.copyd
      resDiv := or256 state.resDiv state.adder }
  else state

/-- The part of a round that moves on to the next bit. -/
def Division.moved (state : Division) : Division :=
  { state with
    copyd := shiftr256 state.copyd 1
    adder := shiftr256 state.adder 1 }

theorem divmodLoop_succ (r : Uint256) (rounds : Nat) (state : Division) :
    divmodLoop r (rounds + 1) state =
      if gte256 state.resMod r then divmodLoop r rounds state.taken.moved
      else state :=
  rfl

theorem toNat_minus256_of_le {left right : Uint256}
    (smaller : right.toNat ≤ left.toNat) :
    (minus256 left right).toNat = left.toNat - right.toNat := by
  have bound := left.toNat_lt
  rw [toNat_minus256]
  have turned : left.toNat + 2 ^ 256 - right.toNat =
      left.toNat - right.toNat + 2 ^ 256 := by omega
  rw [turned, Nat.add_mod_right, Nat.mod_eq_of_lt (by omega)]

section Round

variable {l r k : Nat} {state : Division}

/-- What is left after the divisor was taken away. -/
theorem taken_spec (at_k : state.At l r k) :
    state.taken.copyd.toNat = r * 2 ^ k ∧
      state.taken.adder.toNat = 2 ^ k ∧
      state.taken.resMod.toNat < r * 2 ^ k ∧
      2 ^ k ∣ state.taken.resDiv.toNat ∧
      state.taken.resDiv.toNat * r + state.taken.resMod.toNat = l := by
  obtain ⟨copyd, adder, resMod, ⟨quotient, resDiv⟩, sum⟩ := at_k
  have doubled : r * 2 ^ (k + 1) = r * 2 ^ k + r * 2 ^ k := by ring
  unfold Division.taken
  split
  · next enough =>
    have larger := (gte256_iff _ _).mp enough
    have rest := toNat_minus256_of_le larger
    have more : (or256 state.resDiv state.adder).toNat =
        2 ^ (k + 1) * quotient + 2 ^ k := by
      rw [toNat_or256, adder, resDiv, Nat.two_pow_add_eq_or_of_lt]
      exact Nat.pow_lt_pow_right (by decide) (Nat.lt_succ_self k)
    dsimp only
    rw [more, rest]
    refine ⟨copyd, adder, by omega, ⟨2 * quotient + 1, by ring⟩, ?_⟩
    have spread : (2 ^ (k + 1) * quotient + 2 ^ k) * r =
        2 ^ (k + 1) * quotient * r + r * 2 ^ k := by ring
    rw [resDiv] at sum
    omega
  · next few =>
    have smaller : ¬state.copyd.toNat ≤ state.resMod.toNat :=
      mt (gte256_iff _ _).mpr few
    refine ⟨copyd, adder, by omega, ⟨2 * quotient, ?_⟩, sum⟩
    rw [resDiv]
    ring

/-- The next round. -/
theorem at_moved (at_k : state.At l r (k + 1)) :
    state.taken.moved.At l r k := by
  obtain ⟨copyd, adder, resMod, resDiv, sum⟩ := taken_spec at_k
  have half : ∀ number : Uint256, (shiftr256 number 1).toNat =
      number.toNat / 2 := fun number => toNat_shiftr256 number (by decide)
  refine ⟨?_, ?_, resMod, resDiv, sum⟩
  · show (shiftr256 state.taken.copyd 1).toNat = _
    rw [half, copyd, Nat.pow_succ, ← Nat.mul_assoc]
    exact Nat.mul_div_cancel _ (by decide)
  · show (shiftr256 state.taken.adder 1).toNat = _
    rw [half, adder, Nat.pow_succ]
    exact Nat.mul_div_cancel _ (by decide)

end Round

/-- The loop ends with the quotient and the remainder. -/
theorem divmodLoop_spec {l k rounds : Nat} {r : Uint256} {state : Division}
    (at_k : state.At l r.toNat k) (enough : k < rounds) :
    (divmodLoop r rounds state).resMod.toNat < r.toNat ∧
      (divmodLoop r rounds state).resDiv.toNat * r.toNat +
        (divmodLoop r rounds state).resMod.toNat = l := by
  have ends : ∀ rounds (state : Division), state.resMod.toNat < r.toNat ->
      divmodLoop r rounds state = state := by
    intro rounds state small
    cases rounds with
    | zero => rfl
    | succ rounds =>
        rw [divmodLoop_succ, if_neg (mt (gte256_iff _ _).mp (by omega))]
  induction k generalizing rounds state with
  | zero =>
      obtain ⟨rounds, rfl⟩ : ∃ rest, rounds = rest + 1 :=
        ⟨rounds - 1, by omega⟩
      rw [divmodLoop_succ]
      split
      · obtain ⟨_, _, resMod, _, sum⟩ := taken_spec at_k
        rw [Nat.pow_zero, Nat.mul_one] at resMod
        rw [ends rounds state.taken.moved resMod]
        exact ⟨resMod, sum⟩
      · next small =>
        exact ⟨not_le.mp (mt (gte256_iff _ _).mpr small), at_k.sum⟩
  | succ k inductionHypothesis =>
      obtain ⟨rounds, rfl⟩ : ∃ rest, rounds = rest + 1 :=
        ⟨rounds - 1, by omega⟩
      rw [divmodLoop_succ]
      split
      · exact inductionHypothesis (at_moved at_k) (by omega)
      · next small =>
        exact ⟨not_le.mp (mt (gte256_iff _ _).mpr small), at_k.sum⟩

/-- Where the division begins. -/
theorem divmod256_start {l r : Uint256} (positive : 0 < r.toNat)
    (larger : r.toNat ≤ l.toNat) :
    ∃ k < 256, ∃ start : Division, start.At l.toNat r.toNat k ∧
      divmod256 l r =
        ((divmodLoop r 256 start).resDiv, (divmodLoop r 256 start).resMod) := by
  have below : r.toNat < 2 ^ r.toNat.size := Nat.lt_size_self _
  have bound : l.toNat.size ≤ 256 := Nat.size_le.mpr l.toNat_lt
  have some : 0 < r.toNat.size := Nat.size_pos.mpr positive
  have sizes : r.toNat.size ≤ l.toNat.size := Nat.size_le_size larger
  have difference : (bits256 l + 2 ^ 32 - bits256 r) % 2 ^ 32 =
      l.toNat.size - r.toNat.size := by
    rw [bits256_eq, bits256_eq]
    omega
  generalize diff : l.toNat.size - r.toNat.size = diffBits at difference
  have total : r.toNat.size + diffBits = l.toNat.size := by omega
  have grown : r.toNat * 2 ^ diffBits < 2 ^ l.toNat.size := by
    rw [← total, Nat.pow_add]
    exact Nat.mul_lt_mul_of_pos_right below (Nat.two_pow_pos diffBits)
  have copyd : (shiftl256 r diffBits).toNat = r.toNat * 2 ^ diffBits := by
    rw [toNat_shiftl256 _ (by omega)]
    exact Nat.mod_eq_of_lt
      (lt_of_lt_of_le grown (Nat.pow_le_pow_right (by decide) bound))
  have adder : (shiftl256 (.ofUInt64 1) diffBits).toNat = 2 ^ diffBits := by
    rw [toNat_shiftl256 _ (by omega), toNat_ofUInt64, UInt64.toNat_one,
      Nat.one_mul]
    exact Nat.mod_eq_of_lt (Nat.pow_lt_pow_right (by decide) (by omega))
  have half : ∀ number : Uint256, (shiftr256 number 1).toNat =
      number.toNat / 2 := fun number => toNat_shiftr256 number (by decide)
  have none : ∀ bits : Nat, 2 ^ (bits + 1) ∣ clear256.toNat :=
    fun bits => Nat.dvd_zero _
  have sum : clear256.toNat * r.toNat + l.toNat = l.toNat := by simp
  have apart : divmod256 l r =
      let start : Division :=
        if gt256 (shiftl256 r diffBits) l then
          ⟨shiftr256 (shiftl256 r diffBits) 1,
            shiftr256 (shiftl256 (.ofUInt64 1) diffBits) 1, clear256, l⟩
        else ⟨shiftl256 r diffBits, shiftl256 (.ofUInt64 1) diffBits,
          clear256, l⟩
      ((divmodLoop r 256 start).resDiv, (divmodLoop r 256 start).resMod) := by
    unfold divmod256
    dsimp only
    rw [difference, if_neg (mt (gt256_iff _ _).mp (by omega))]
  rw [apart]
  by_cases above : gt256 (shiftl256 r diffBits) l
  · rw [if_pos above]
    dsimp only
    have beyond : l.toNat < r.toNat * 2 ^ diffBits :=
      copyd ▸ (gt256_iff _ _).mp above
    obtain ⟨k, rfl⟩ : ∃ k, diffBits = k + 1 := by
      cases diffBits with
      | zero => simp at beyond; omega
      | succ k => exact ⟨k, rfl⟩
    refine ⟨k, by omega, ⟨shiftr256 (shiftl256 r (k + 1)) 1,
      shiftr256 (shiftl256 (.ofUInt64 1) (k + 1)) 1, clear256, l⟩,
      ⟨?_, ?_, beyond, none _, sum⟩, rfl⟩
    · rw [half, copyd, Nat.pow_succ, ← Nat.mul_assoc]
      exact Nat.mul_div_cancel _ (by decide)
    · rw [half, adder, Nat.pow_succ]
      exact Nat.mul_div_cancel _ (by decide)
  · rw [if_neg above]
    dsimp only
    refine ⟨diffBits, by omega, ⟨shiftl256 r diffBits,
      shiftl256 (.ofUInt64 1) diffBits, clear256, l⟩,
      ⟨copyd, adder, ?_, none _, sum⟩, rfl⟩
    have lower : 2 ^ (r.toNat.size - 1) ≤ r.toNat :=
      Nat.lt_size.mp (by omega)
    calc l.toNat < 2 ^ l.toNat.size := Nat.lt_size_self _
      _ = 2 ^ (r.toNat.size - 1) * 2 ^ (diffBits + 1) := by
          rw [← Nat.pow_add]
          congr 1
          omega
      _ ≤ r.toNat * 2 ^ (diffBits + 1) := Nat.mul_le_mul_right _ lower

/-- `divmod256` divides. -/
theorem divmod256_spec (l : Uint256) {r : Uint256} (positive : 0 < r.toNat) :
    (divmod256 l r).1.toNat = l.toNat / r.toNat ∧
      (divmod256 l r).2.toNat = l.toNat % r.toNat := by
  by_cases larger : r.toNat ≤ l.toNat
  · obtain ⟨k, few, start, begins, divides⟩ :=
      divmod256_start positive larger
    obtain ⟨small, sum⟩ := divmodLoop_spec begins few
    rw [Nat.add_comm, Nat.mul_comm] at sum
    obtain ⟨quotient, remainder⟩ :=
      (Nat.div_mod_unique positive).mpr ⟨sum, small⟩
    rw [divides, quotient, remainder]
    exact ⟨rfl, rfl⟩
  · have smaller : l.toNat < r.toNat := not_le.mp larger
    have whole : divmod256 l r = (clear256, l) := by
      unfold divmod256
      dsimp only
      rw [if_pos ((gt256_iff _ _).mpr smaller)]
    rw [whole, Nat.div_eq_of_lt smaller, Nat.mod_eq_of_lt smaller]
    exact ⟨toNat_clear256, rfl⟩

end LedgerOne
