import LedgerOne.Lib.Decimal
import LedgerOne.Texts.Wide

/-!
# Reading and printing wide numbers

`readu256BE` reads a big-endian number and `tostring256` prints its decimal
digits.
-/

namespace LedgerOne

/-! ## Reading -/

/-- The bytes of a list from an offset on. -/
def slice (buffer : List UInt8) (offset count : Nat) : List UInt8 :=
  (List.range count).map fun index => buffer.getD (offset + index) 0

@[simp] theorem length_slice (buffer : List UInt8) (offset count : Nat) :
    (slice buffer offset count).length = count := by
  simp [slice]

theorem slice_append (buffer : List UInt8) (offset first second : Nat) :
    slice buffer offset first ++ slice buffer (offset + first) second =
      slice buffer offset (first + second) := by
  unfold slice
  rw [List.range_add, List.map_append, List.map_map]
  congr 1
  apply List.map_congr_left
  intro index _
  rw [Function.comp_apply, Nat.add_assoc]

theorem slice_whole (buffer : List UInt8) :
    slice buffer 0 buffer.length = buffer := by
  apply List.ext_getElem
  · rw [length_slice]
  · intro index _ inside
    simp [slice, inside]

/-- A word holds bytes, and takes one more above them. -/
private theorem toNat_word {byte : UInt8} {rest : UInt64}
    {bytes : List UInt8} (shift : Nat) (place : shift = 8 * bytes.length)
    (few : shift ≤ 56) (holds : rest.toNat = beNat bytes) :
    (byte.toUInt64 <<< UInt64.ofNat shift ||| rest).toNat =
      beNat (byte :: bytes) := by
  subst place
  have power : 256 ^ bytes.length = 2 ^ (8 * bytes.length) := by
    rw [Nat.pow_mul]
  have below : beNat bytes < 2 ^ (8 * bytes.length) :=
    power ▸ beNat_lt bytes
  have fits : byte.toNat * 2 ^ (8 * bytes.length) < 2 ^ 64 := by
    calc byte.toNat * 2 ^ (8 * bytes.length)
        < 2 ^ 8 * 2 ^ (8 * bytes.length) :=
          Nat.mul_lt_mul_of_pos_right byte.toNat_lt (Nat.two_pow_pos _)
      _ = 2 ^ (8 + 8 * bytes.length) := (Nat.pow_add ..).symm
      _ ≤ 2 ^ 64 := Nat.pow_le_pow_right (by decide) (by omega)
  have count : (UInt64.ofNat (8 * bytes.length)).toNat % 64 =
      8 * bytes.length := by
    simp
    omega
  have whole : beNat (byte :: bytes) =
      2 ^ (8 * bytes.length) * byte.toNat + beNat bytes := by
    rw [← List.singleton_append, beNat_append, power, Nat.mul_comm]
    simp [beNat]
  rw [UInt64.toNat_or, UInt64.toNat_shiftLeft, count, holds,
    UInt8.toNat_toUInt64, Nat.shiftLeft_eq, Nat.mod_eq_of_lt fits,
    Nat.mul_comm, whole]
  exact (Nat.two_pow_add_eq_or_of_lt below _).symm

theorem toNat_readUint64BE (buffer : List UInt8) (offset : Nat) :
    (readUint64BE buffer offset).toNat = beNat (slice buffer offset 8) := by
  have last : (buffer.getD (offset + 7) 0).toUInt64.toNat =
      beNat [buffer.getD (offset + 7) 0] := by
    simp [beNat]
  unfold readUint64BE
  simp only [UInt64.or_assoc]
  exact toNat_word 56 rfl (by decide) <| toNat_word 48 rfl (by decide) <|
    toNat_word 40 rfl (by decide) <| toNat_word 32 rfl (by decide) <|
    toNat_word 24 rfl (by decide) <| toNat_word 16 rfl (by decide) <|
    toNat_word 8 rfl (by decide) last

/-- Two slices as the halves of a number. -/
private theorem join_slices (buffer : List UInt8) (offset count : Nat) :
    Halves.join (8 * count) (beNat (slice buffer offset count))
        (beNat (slice buffer (offset + count) count)) =
      beNat (slice buffer offset (count + count)) := by
  rw [← slice_append, beNat_append, length_slice, Halves.join, Nat.pow_mul]

theorem toNat_readu128BE (buffer : List UInt8) (offset : Nat) :
    (readu128BE buffer offset).toNat = beNat (slice buffer offset 16) := by
  rw [readu128BE, Uint128.toNat, toNat_readUint64BE, toNat_readUint64BE]
  exact join_slices buffer offset 8

/-- `readu256BE` reads a big-endian number. -/
theorem toNat_readu256BE {buffer : List UInt8} (whole : buffer.length = 32) :
    (readu256BE buffer).toNat = beNat buffer := by
  have read : (readu256BE buffer).toNat = beNat (slice buffer 0 32) := by
    rw [readu256BE, Uint256.toNat, toNat_readu128BE, toNat_readu128BE]
    exact join_slices buffer 0 16
  rw [read, ← whole, slice_whole]

/-! ## Printing -/

theorem toNat_lower_lower (number : Uint256) :
    number.lower.lower.toNat = number.toNat % 2 ^ 64 := by
  have bound := number.lower.lower.toNat_lt
  have parts : number.toNat = number.lower.lower.toNat + 2 ^ 64 *
      (number.lower.upper.toNat + 2 ^ 64 * number.upper.toNat) := by
    simp only [Uint256.toNat, Uint128.toNat, Halves.join]
    ring
  rw [parts, Nat.add_mul_mod_self_left, Nat.mod_eq_of_lt bound]

/-- The character that `tostring256` writes for a small number. -/
theorem hexDigit_eq {number : Uint256} (small : number.toNat < 10) :
    HEXDIGITS.getD number.lower.lower.toUInt8.toNat 0 =
      digitChar number.toNat := by
  have lower : number.lower.lower.toUInt8.toNat = number.toNat := by
    rw [UInt64.toNat_toUInt8, toNat_lower_lower]
    omega
  rw [lower]
  generalize number.toNat = digit at small
  interval_cases digit <;> rfl

theorem toNat_ten : (Uint256.ofUInt64 (UInt64.ofNat 10)).toNat = 10 := rfl

/-- The loop of `tostring256` writes the digits, the last one first. -/
theorem tostringLoop_eq {outLength : Nat} (rounds : Nat)
    {number : Uint256} {out : List UInt8}
    (enough : (decimalDigits number.toNat).length ≤ rounds)
    (fits : out.length + (decimalDigits number.toNat).length ≤ outLength) :
    tostringLoop (.ofUInt64 (UInt64.ofNat 10)) outLength rounds number out =
      some (out ++ (decimalDigits number.toNat).reverse) := by
  induction rounds generalizing number out with
  | zero =>
      have none := List.length_pos_iff.mpr (decimalDigits_ne_nil number.toNat)
      omega
  | succ rounds inductionHypothesis =>
      have some := List.length_pos_iff.mpr (decimalDigits_ne_nil number.toNat)
      obtain ⟨quotient, remainder⟩ := divmod256_spec number
        (show 0 < (Uint256.ofUInt64 (UInt64.ofNat 10)).toNat by decide)
      rw [toNat_ten] at quotient remainder
      have digit := hexDigit_eq
        (show (divmod256 number (.ofUInt64 (UInt64.ofNat 10))).2.toNat < 10
          by omega)
      rw [tostringLoop, if_neg (by omega)]
      dsimp only
      rw [digit, remainder]
      by_cases small : number.toNat < 10
      · have zero : zero256
            (divmod256 number (.ofUInt64 (UInt64.ofNat 10))).1 = true := by
          rw [zero256_iff, quotient]
          omega
        rw [if_pos zero, decimalDigits_of_lt small,
          Nat.mod_eq_of_lt small]
        rfl
      · have nonzero : ¬zero256
            (divmod256 number (.ofUInt64 (UInt64.ofNat 10))).1 = true := by
          rw [zero256_iff, quotient]
          omega
        have parted := decimalDigits_of_le (not_lt.mp small)
        rw [parted, List.length_append, List.length_singleton] at enough fits
        rw [if_neg nonzero, inductionHypothesis, quotient, parted,
          List.reverse_append, List.append_assoc]
        · rfl
        · rw [quotient]
          omega
        · rw [quotient, List.length_append, List.length_singleton]
          omega

/-- A number has at most 78 digits. -/
theorem length_decimalDigits_toNat (number : Uint256) :
    (decimalDigits number.toNat).length ≤ 78 :=
  length_decimalDigits_le (by decide)
    (lt_trans number.toNat_lt (by norm_num))

/-- `tostring256` prints the digits. -/
theorem tostring256_eq (number : Uint256) :
    tostring256 number 10 78 = some (decimalDigits number.toNat) := by
  have short := length_decimalDigits_toNat number
  have fits : ([] : List UInt8).length +
      (decimalDigits number.toNat).length ≤ 78 := by
    rwa [List.length_nil, Nat.zero_add]
  have printed := tostringLoop_eq 256 (by omega) fits
  unfold tostring256
  rw [if_neg (by decide), printed, List.nil_append, Option.map_some,
    List.reverse_reverse]

/-- Up to 77 digits leave room for the NUL in the scratch buffer. -/
theorem tostring78_eq {number : Uint256} (small : number.toNat < 10 ^ 77) :
    tostring78 number = .ok (some (decimalDigits number.toNat)) := by
  have short : (decimalDigits number.toNat).length ≤ 77 :=
    length_decimalDigits_le (by decide) small
  rw [tostring78, tostring256_eq]
  dsimp only
  rw [if_pos (by omega)]

end LedgerOne
