import LedgerOne.Lib.Ensures
import LedgerOne.Texts.Number
import Mathlib.Algebra.Order.Field.Rat
import Mathlib.Tactic.FieldSimp

/-!
# The text of a rate

`convertNumericDecimalToString` writes a number of steps of 10^-18 as a decimal
number, with all of its digits.
-/

namespace LedgerOne

/-! ## Decimal fractions -/

/-- A text of digits, a point and digits is the decimal of a number: there is
no superfluous zero before the point, nor one at the end if the number is
positive. -/
def IsDecimal (text : List UInt8) (number : ℚ) : Prop :=
  ∃ whole fraction,
    text = whole ++ ascii "." ++ fraction ∧
    (∀ character ∈ whole ++ fraction,
      ∃ digit < 10, character = digitChar digit) ∧
    number = decimalNat whole + decimalNat fraction / 10 ^ fraction.length ∧
    whole ≠ [] ∧ (whole.head? = some 48 -> whole = [48]) ∧
    (0 < number -> fraction.getLast? ≠ some 48)

/-- The text for so many steps of 10^-18. -/
def rateText (value : Nat) : List UInt8 :=
  if value = 0 then ascii "0." ++ List.replicate 17 48
  else decimalDigits (value / 10 ^ 18) ++ ascii "." ++
    (fixedDigits 18 (value % 10 ^ 18)).rdropWhile fun digit => digit = 48

/-- Trimming does not change the fraction that digits denote. -/
theorem decimalNat_rdropWhile (text : List UInt8) :
    (decimalNat (text.rdropWhile fun digit => digit = 48) : ℚ) /
        10 ^ (text.rdropWhile fun digit => digit = 48).length =
      decimalNat text / 10 ^ text.length := by
  obtain ⟨count, parts⟩ := rdropWhile_append_replicate text
  generalize text.rdropWhile (fun digit => digit = 48) = kept at parts
  subst parts
  rw [decimalNat_append_replicate, List.length_append, List.length_replicate,
    pow_add]
  push_cast
  field_simp

/-- The last character of a trimmed text is not zero. -/
theorem getLast?_rdropWhile (text : List UInt8) :
    (text.rdropWhile fun digit => digit = 48).getLast? ≠ some 48 := by
  intro zero
  obtain ⟨some, last⟩ := List.mem_getLast?_eq_getLast zero
  have kept := List.rdropWhile_last_not _ text some
  rw [← last] at kept
  exact kept (decide_eq_true rfl)

/-- The text of a rate denotes it. -/
theorem rateText_isDecimal (value : Nat) :
    IsDecimal (rateText value) (value / 10 ^ 18) := by
  by_cases zero : value = 0
  · subst zero
    refine ⟨[48], List.replicate 17 48, by decide, ?_, ?_, by simp, by simp,
      by simp⟩
    · intro character member
      exact ⟨0, by decide, by simpa [digitChar] using member⟩
    · have none := decimalNat_append_replicate [] 17
      rw [List.nil_append] at none
      rw [none]
      simp [decimalNat]
  · refine ⟨decimalDigits (value / 10 ^ 18),
      (fixedDigits 18 (value % 10 ^ 18)).rdropWhile fun digit => digit = 48,
      by rw [rateText, if_neg zero], ?_, ?_, decimalDigits_ne_nil _, ?_, ?_⟩
    · intro character member
      obtain whole | fraction := List.mem_append.mp member
      · exact digit_of_mem_decimalDigits whole
      · exact digit_of_mem_fixedDigits
          ((List.rdropWhile_prefix _ _).mem fraction)
    · rw [decimalNat_rdropWhile, decimalNat_decimalDigits,
        decimalNat_fixedDigits (Nat.mod_lt _ (by decide)),
        length_fixedDigits]
      have parts : (value : ℚ) = 10 ^ 18 * (value / 10 ^ 18 : Nat) +
          (value % 10 ^ 18 : Nat) := by
        exact_mod_cast (Nat.div_add_mod value (10 ^ 18)).symm
      rw [parts]
      field_simp
    · intro leading
      by_cases small : value / 10 ^ 18 = 0
      · rw [small]
        rfl
      · exact absurd leading (head_decimalDigits (Nat.pos_of_ne_zero small))
    · intro _
      exact getLast?_rdropWhile _

/-- Every character of a rate is a digit or the point. -/
theorem ne_zero_of_mem_rateText {value : Nat} {character : UInt8}
    (member : character ∈ rateText value) : character ≠ 0 := by
  obtain ⟨whole, fraction, parts, digits, -⟩ := rateText_isDecimal value
  rw [parts] at member
  simp only [List.mem_append, ascii] at member
  by_cases point : character = 46
  · rw [point]
    decide
  · obtain ⟨digit, small, rfl⟩ := digits character (by
      simp only [List.mem_append]
      obtain (whole | dot) | fraction := member
      · exact Or.inl whole
      · exact absurd (by simpa using dot) point
      · exact Or.inr fraction)
    exact digitChar_ne_zero small

theorem length_rateText {value : Nat} (small : value < 2 ^ 256) :
    (rateText value).length ≤ 79 := by
  have front : (decimalDigits (value / 10 ^ 18)).length ≤ 60 :=
    length_decimalDigits_le (by decide) <|
      lt_of_le_of_lt (Nat.div_le_div_right small.le) (by norm_num)
  have back := (List.rdropWhile_prefix (fun digit => decide (digit = 48))
    (fixedDigits 18 (value % 10 ^ 18))).length_le
  rw [length_fixedDigits] at back
  unfold rateText
  split
  · decide
  · rw [List.length_append, List.length_append,
      show (ascii ".").length = 1 from rfl]
    omega

/-! ## The conversion -/

/-- Leaving out as many characters as there are zeros at the end trims a
text. -/
theorem take_paddedZeros (digits : List UInt8) :
    digits.take (digits.length -
        (digits.reverse.takeWhile (· = 48)).length) =
      digits.rdropWhile fun digit => digit = 48 := by
  have parts : digits.rdropWhile (fun digit => digit = 48) ++
      digits.rtakeWhile (fun digit => digit = 48) = digits :=
    List.rdropWhile_append_rtakeWhile
  have lengths := congrArg List.length parts
  have zeros : (digits.rtakeWhile fun digit => digit = 48).length =
      (digits.reverse.takeWhile (· = 48)).length :=
    List.length_reverse
  rw [List.length_append, zeros] at lengths
  have kept : digits.length - (digits.reverse.takeWhile (· = 48)).length =
      (digits.rdropWhile fun digit => digit = 48).length := by
    omega
  rw [kept]
  exact (List.prefix_iff_eq_take.mp (List.rdropWhile_prefix _ _)).symm

/-- `convertU256ToDecimalString` on a number of more than 18 digits. -/
theorem convertU256ToDecimalString_large {value : Nat}
    (large : 10 ^ 18 ≤ value) :
    convertU256ToDecimalString (decimalDigits value) = rateText value := by
  have positive : 0 < value / 10 ^ 18 := Nat.div_pos large (by decide)
  have split : decimalDigits value = decimalDigits (value / 10 ^ 18) ++
      fixedDigits 18 (value % 10 ^ 18) := by
    rw [decimalDigits_append_fixedDigits positive
      (Nat.mod_lt _ (by decide)), Nat.div_add_mod']
  have some := List.length_pos_iff.mpr
    (decimalDigits_ne_nil (value / 10 ^ 18))
  unfold convertU256ToDecimalString
  dsimp only
  rw [take_paddedZeros, split, List.length_append, length_fixedDigits,
    if_pos (by omega), Nat.add_sub_cancel, List.take_left,
    drop_rdropWhile_append, rateText, if_neg (by omega)]

/-- `convertU256ToDecimalString` on a number of up to 18 digits. -/
theorem convertU256ToDecimalString_small {value : Nat} (positive : 0 < value)
    (small : value < 10 ^ 18) :
    convertU256ToDecimalString (decimalDigits value) = rateText value := by
  have few : (decimalDigits value).length ≤ 18 :=
    length_decimalDigits_le (by decide) small
  obtain ⟨digit, member, other⟩ := exists_mem_decimalDigits positive
  have trimmed : List.replicate (18 - (decimalDigits value).length) 48 ++
      (decimalDigits value).rdropWhile (fun digit => digit = 48) =
      (fixedDigits 18 value).rdropWhile fun digit => digit = 48 := by
    rw [← replicate_append_decimalDigits (by decide) small,
      rdropWhile_append_of_mem _ member (by simpa using other)]
  have point : ascii "0." = decimalDigits 0 ++ ascii "." := rfl
  unfold convertU256ToDecimalString
  dsimp only
  rw [take_paddedZeros, if_neg (not_lt.mpr few), rateText,
    if_neg positive.ne', Nat.div_eq_of_lt small, Nat.mod_eq_of_lt small,
    ← trimmed, List.drop_zero, ← point]
  by_cases full : (decimalDigits value).length = 18
  · rw [if_pos full, full]
    rfl
  · rw [if_neg full, List.append_assoc]

/-- `convertU256ToDecimalString` lays out the digits of a number. -/
theorem convertU256ToDecimalString_eq (value : Nat) :
    convertU256ToDecimalString (decimalDigits value) = rateText value := by
  by_cases zero : value = 0
  · subst zero
    decide
  by_cases small : value < 10 ^ 18
  · exact convertU256ToDecimalString_small (Nat.pos_of_ne_zero zero) small
  · exact convertU256ToDecimalString_large (not_lt.mp small)

/-- `convertNumericDecimalToString` with a local buffer for so many digits and
their NUL. -/
def convertNumericDecimalToStringIn (scratch : Nat) (int : TxInt256) :
    Except Fault (Option (List UInt8)) :=
  if 32 < int.length.toNat then .ok none
  else do
    let numberBuf ← padNumber int
    match tostring256 (readu256BE numberBuf) 10 78 with
    | none => return none
    | some digits =>
        if digits.length < scratch then
          return some (convertU256ToDecimalString digits)
        else .error .scratchOverrun

/-- The source's local buffer is one of 78 bytes. -/
theorem convertNumericDecimalToStringIn_78 (int : TxInt256) :
    convertNumericDecimalToStringIn 78 int =
      convertNumericDecimalToString int := by
  unfold convertNumericDecimalToStringIn convertNumericDecimalToString
  split
  · rfl
  · congr 1
    funext numberBuf
    unfold tostring78
    cases tostring256 (readu256BE numberBuf) 10 78 with
    | none => rfl
    | some digits =>
        dsimp only
        split <;> rfl

/-- A padded number has the value of its bytes. -/
theorem padNumber_eq {int : TxInt256} (short : int.length.toNat ≤ 32) :
    ∃ numberBuf, padNumber int = .ok numberBuf ∧ numberBuf.length = 32 ∧
      beNat numberBuf = beNat (int.value.read 0 int.length.toNat) := by
  refine ⟨_, if_pos short, ?_, ?_⟩
  · rw [List.length_append, List.length_replicate, Region.length_read]
    omega
  · rw [beNat_append, beNat_replicate_zero, Nat.zero_mul, Nat.zero_add]

/-- On every number of at most 32 bytes `convertNumericDecimalToString`, with
room for its digits, succeeds with a text of at most 79 characters that is the
decimal of the rate. -/
theorem convertNumericDecimalToString_exact (int : TxInt256)
    (short : int.length.toNat ≤ 32) (scratch : Nat) (room : 79 ≤ scratch) :
    ∃ text, convertNumericDecimalToStringIn scratch int = .ok (some text) ∧
      text.length ≤ 79 ∧ 0 ∉ text ∧
      IsDecimal text
        (beNat (int.value.read 0 int.length.toNat) / 10 ^ 18) := by
  obtain ⟨numberBuf, padded, whole, value⟩ := padNumber_eq short
  have number := toNat_readu256BE whole
  have small : beNat numberBuf < 2 ^ 256 := number ▸ Uint256.toNat_lt _
  have fits := length_decimalDigits_toNat (readu256BE numberBuf)
  refine ⟨rateText (beNat numberBuf), ?_, length_rateText small, ?_, ?_⟩
  · unfold convertNumericDecimalToStringIn
    rw [if_neg (not_lt.mpr short), padded, bind_ok, tostring256_eq]
    dsimp only
    rw [if_pos (by omega), convertU256ToDecimalString_eq, number]
    rfl
  · intro member
    exact ne_zero_of_mem_rateText member rfl
  · rw [← value]
    exact rateText_isDecimal _

/-- The rate 0.10, in one byte string of eight bytes. -/
theorem convertNumericDecimalToString_exact_tenth :
    ∃ text, convertNumericDecimalToStringIn 79
        ⟨.ofList [0x01, 0x63, 0x45, 0x78, 0x5d, 0x8a, 0x00, 0x00], 8⟩ =
        .ok (some text) ∧
      text.length ≤ 79 ∧ 0 ∉ text ∧
      IsDecimal text (beNat ((Region.ofList
        [0x01, 0x63, 0x45, 0x78, 0x5d, 0x8a, 0x00, 0x00] : Region 32).read
          0 8) / 10 ^ 18) :=
  convertNumericDecimalToString_exact
    ⟨.ofList [0x01, 0x63, 0x45, 0x78, 0x5d, 0x8a, 0x00, 0x00], 8⟩
    (by decide) 79 (by decide)

end LedgerOne
