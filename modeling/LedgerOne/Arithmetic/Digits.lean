import LedgerOne.Lib.Output
import LedgerOne.Lib.Radix
import LedgerOne.Texts.Rate

/-!
# The output of `tostring256`

`tostring256` writes the digits of a number from the last one to the first,
then a NUL, and turns the digits round.  The capacity is tested before every
digit and not before the NUL.
-/

namespace LedgerOne

/-! ## The writes -/

/-- The loop of `tostring256`: the offset behind the last digit, or none when
the capacity is used up; a number has at most 256 digits. -/
def tostringLoopIn (base : Uint256) (outLength : UInt32) :
    Nat -> Uint256 -> Nat -> Output -> Output × Option Nat
  | 0, _, _, out => (out, none)
  | rounds + 1, rDiv, offset, out =>
      if (outLength - 1).toNat < offset then (out, none)
      else
        let (quotient, rMod) := divmod256 rDiv base
        let out := out.write offset
          (HEXDIGITS.getD rMod.lower.lower.toUInt8.toNat 0)
        if zero256 quotient then (out, some (offset + 1))
        else tostringLoopIn base outLength rounds quotient (offset + 1) out

/-- The loop of `reverseString`; every round moves the ends closer. -/
def reverseLoop : Nat -> Nat -> Nat -> Output -> Output
  | 0, _, _, str => str
  | rounds + 1, i, j, str =>
      if i < j then
        let c := str.memory i
        let str := str.write i (str.memory j)
        reverseLoop rounds (i + 1) (j - 1) (str.write j c)
      else str

/-- `reverseString`; its caller has at least one character. -/
def reverseString (str : Output) (length : Nat) : Output :=
  reverseLoop length 0 (length - 1) str

/-- `tostring256` with its writes; the length that it reports, if it
succeeds. -/
def tostring256In (number : Uint256) (baseParam : Nat) (out : Output)
    (outLength : UInt32) : Output × Option Nat :=
  if baseParam < 2 ∨ 16 < baseParam then (out, none)
  else
    let base := Uint256.ofUInt64 (UInt64.ofNat baseParam)
    match tostringLoopIn base outLength 256 number 0 out with
    | (out, none) => (out, none)
    | (out, some offset) =>
        (reverseString (out.write offset 0) offset, some offset)

/-! ## Digits -/

/-- The character of a digit. -/
def hexDigit (digit : Nat) : UInt8 := HEXDIGITS.getD digit 0

/-- The characters of the digits of a number, the last one first. -/
def digitChars (base value : Nat) : List UInt8 :=
  (radixDigits base value).map hexDigit

/-- The text of a number in a base, without leading zeros. -/
def radixText (base value : Nat) : List UInt8 := (digitChars base value).reverse

theorem length_digitChars_pos (base value : Nat) :
    0 < (digitChars base value).length := by
  rw [digitChars, List.length_map]
  exact length_radixDigits_pos base value

theorem digitChars_of_lt {base value : Nat} (small : value < base) :
    digitChars base value = [hexDigit value] := by
  rw [digitChars, radixDigits_of_lt small, List.map_singleton]

theorem digitChars_of_le {base value : Nat} (several : 1 < base)
    (large : base ≤ value) :
    digitChars base value =
      hexDigit (value % base) :: digitChars base (value / base) := by
  rw [digitChars, radixDigits_of_le several large, List.map_cons, digitChars]

section Loop

variable {baseParam : Nat} (several : 2 ≤ baseParam) (most : baseParam ≤ 16)

include several most

theorem toNat_base :
    (Uint256.ofUInt64 (UInt64.ofNat baseParam)).toNat = baseParam := by
  rw [toNat_ofUInt64, UInt64.toNat_ofNat']
  omega

theorem digit_eq {digit : Uint256} (small : digit.toNat < baseParam) :
    HEXDIGITS.getD digit.lower.lower.toUInt8.toNat 0 = hexDigit digit.toNat := by
  have lower : digit.lower.lower.toUInt8.toNat = digit.toNat := by
    rw [UInt64.toNat_toUInt8, toNat_lower_lower]
    omega
  rw [lower, hexDigit]

/-- One round writes one digit. -/
theorem round_digit (number : Uint256) :
    let base := Uint256.ofUInt64 (UInt64.ofNat baseParam)
    let divided := divmod256 number base
    HEXDIGITS.getD divided.2.lower.lower.toUInt8.toNat 0 =
        hexDigit (number.toNat % baseParam) ∧
      divided.1.toNat = number.toNat / baseParam ∧
      (zero256 divided.1 = true ↔ number.toNat < baseParam) := by
  have value := toNat_base several most
  obtain ⟨quotient, remainder⟩ := divmod256_spec number
    (show 0 < (Uint256.ofUInt64 (UInt64.ofNat baseParam)).toNat by omega)
  rw [value] at quotient remainder
  have small := Nat.mod_lt number.toNat (show 0 < baseParam by omega)
  refine ⟨?_, quotient, ?_⟩
  · rw [digit_eq several most (remainder ▸ small), remainder]
  · rw [zero256_iff, quotient, Nat.div_eq_zero_iff]
    omega

/-- The loop writes the digits, as far as the capacity reaches, and succeeds
when it reaches all of them. -/
theorem tostringLoopIn_eq {outLength : UInt32} (some : 1 ≤ outLength.toNat)
    {rounds : Nat} {number : Uint256} {offset : Nat} {out : Output}
    (inside : offset ≤ outLength.toNat)
    (enough : (digitChars baseParam number.toNat).length ≤ rounds) :
    tostringLoopIn (.ofUInt64 (UInt64.ofNat baseParam)) outLength rounds
        number offset out =
      (out.writeAll offset ((digitChars baseParam number.toNat).take
          (outLength.toNat - offset)),
        if offset + (digitChars baseParam number.toNat).length ≤
            outLength.toNat then
          Option.some (offset + (digitChars baseParam number.toNat).length)
        else none) := by
  have before : (outLength - 1).toNat = outLength.toNat - 1 := by
    have larger : (1 : UInt32) ≤ outLength := by
      rwa [UInt32.le_iff_toNat_le, UInt32.toNat_one]
    rw [UInt32.toNat_sub_of_le _ _ larger, UInt32.toNat_one]
  induction rounds generalizing number offset out with
  | zero =>
      have few := length_digitChars_pos baseParam number.toNat
      omega
  | succ rounds inductionHypothesis =>
      have few := length_digitChars_pos baseParam number.toNat
      obtain ⟨digit, quotient, last⟩ := round_digit several most number
      rw [tostringLoopIn, before]
      by_cases full : outLength.toNat - 1 < offset
      · have none : outLength.toNat - offset = 0 := by omega
        rw [if_pos full, if_neg (by omega), none, List.take_zero,
          Output.writeAll]
      · have room : outLength.toNat - offset =
            outLength.toNat - (offset + 1) + 1 := by omega
        rw [if_neg full, room]
        dsimp only
        rw [digit]
        by_cases small : number.toNat < baseParam
        · have single := digitChars_of_lt small
          have counted := congrArg List.length single
          have written : out.writeAll offset
              ((digitChars baseParam number.toNat).take
                (outLength.toNat - (offset + 1) + 1)) =
              out.write offset (hexDigit number.toNat) := by
            rw [single, List.take_succ_cons, List.take_nil, Output.writeAll,
              Output.writeAll]
          rw [List.length_singleton] at counted
          rw [if_pos (last.mpr small), counted, written, if_pos (by omega),
            Nat.mod_eq_of_lt small]
        · have parted := digitChars_of_le several (not_lt.mp small)
          have counted := congrArg List.length parted
          have written : out.writeAll offset
              ((digitChars baseParam number.toNat).take
                (outLength.toNat - (offset + 1) + 1)) =
              (out.write offset (hexDigit (number.toNat % baseParam))).writeAll
                (offset + 1) ((digitChars baseParam
                  (number.toNat / baseParam)).take
                    (outLength.toNat - (offset + 1))) := by
            rw [parted, List.take_succ_cons, Output.writeAll]
          rw [List.length_cons] at counted
          have rest := @inductionHypothesis
            (divmod256 number (.ofUInt64 (UInt64.ofNat baseParam))).1
            (offset + 1) (out.write offset
              (hexDigit (number.toNat % baseParam)))
            (by omega) (by rw [quotient]; omega)
          rw [quotient, Nat.add_assoc offset 1, Nat.add_comm 1, ← counted,
            ← written] at rest
          rw [if_neg (mt last.mp small), rest]

end Loop

/-! ## Turning round -/

/-- Every round exchanges the ends of what is left to turn round. -/
theorem reverseLoop_spec {rounds i j : Nat} {str : Output}
    (enough : j - i ≤ rounds) (index : Nat) :
    ((reverseLoop rounds i j str).memory index =
        if i ≤ index ∧ index ≤ j then str.memory (i + j - index)
        else str.memory index) ∧
      (index ∈ (reverseLoop rounds i j str).written ->
        index ∈ str.written ∨ i ≤ index ∧ index ≤ j) := by
  induction rounds generalizing i j str with
  | zero =>
      refine ⟨?_, Or.inl⟩
      split
      · next inside =>
        rw [show i + j - index = index by omega]
        rfl
      · rfl
  | succ rounds inductionHypothesis =>
      rw [reverseLoop]
      by_cases apart : i < j
      · rw [if_pos apart]
        dsimp only
        obtain ⟨memory, written⟩ := @inductionHypothesis (i + 1) (j - 1)
          ((str.write i (str.memory j)).write j (str.memory i)) (by omega)
        rw [memory]
        constructor
        · simp only [Output.memory_write]
          by_cases lower : index = i
          · subst lower
            rw [if_neg (by omega), if_neg (by omega), if_pos rfl,
              if_pos (by omega), Nat.add_sub_cancel_left]
          by_cases upper : index = j
          · subst upper
            rw [if_neg (by omega), if_pos rfl, if_pos (by omega),
              Nat.add_sub_cancel]
          by_cases inside : i ≤ index ∧ index ≤ j
          · rw [if_pos (by omega), if_pos inside, if_neg (by omega),
              if_neg (by omega), show i + 1 + (j - 1) = i + j by omega]
          · rw [if_neg (by omega), if_neg upper, if_neg lower, if_neg inside]
        · intro member
          obtain before | inside := written member
          · simp only [Output.mem_written_write] at before
            obtain rfl | rfl | before := before
            · exact Or.inr (by omega)
            · exact Or.inr (by omega)
            · exact Or.inl before
          · exact Or.inr (by omega)
      · rw [if_neg apart]
        refine ⟨?_, Or.inl⟩
        split
        · next inside => rw [show i + j - index = index by omega]
        · rfl

/-- What was written stays written. -/
theorem written_reverseLoop {rounds i j : Nat} {str : Output} {index : Nat}
    (member : index ∈ str.written) :
    index ∈ (reverseLoop rounds i j str).written := by
  induction rounds generalizing i j str with
  | zero => exact member
  | succ rounds inductionHypothesis =>
      rw [reverseLoop]
      split
      · apply inductionHypothesis
        simp only [Output.mem_written_write]
        exact Or.inr (Or.inr member)
      · exact member

/-- `reverseString` turns the characters round and keeps the rest. -/
theorem memory_reverseString (str : Output) {length : Nat}
    (some : 0 < length) (index : Nat) :
    (reverseString str length).memory index =
      if index < length then str.memory (length - 1 - index)
      else str.memory index := by
  have turned := (@reverseLoop_spec length 0 (length - 1) str (by omega)
    index).1
  rw [reverseString, turned]
  by_cases inside : index < length
  · rw [if_pos (by omega), if_pos inside, Nat.zero_add]
  · rw [if_neg (by omega), if_neg inside]

theorem mem_written_reverseString (str : Output) {length : Nat}
    (some : 0 < length) (index : Nat) :
    index ∈ (reverseString str length).written ->
      index ∈ str.written ∨ index < length := by
  intro member
  obtain before | inside := (@reverseLoop_spec length 0 (length - 1) str
    (by omega) index).2 member
  · exact Or.inl before
  · exact Or.inr (by omega)

/-! ## The whole output -/

/-- The parts of a pair whose evaluation is not to be tried. -/
private theorem parts_of_eq {α β : Type} {pair : α × β} {first : α}
    {second : β} (same : pair = (first, second)) :
    pair.1 = first ∧ pair.2 = second := by
  subst same
  exact ⟨rfl, rfl⟩

section Whole

variable {number : Uint256} {baseParam : Nat} {outLength : UInt32}
  {out : Output}

/-- A number of 256 bits has at most as many digits. -/
theorem length_digitChars_le (several : 2 ≤ baseParam) :
    (digitChars baseParam number.toNat).length ≤ 256 := by
  rw [digitChars, List.length_map,
    length_radixDigits_le_iff several (by decide)]
  exact lt_of_lt_of_le number.toNat_lt (Nat.pow_le_pow_left several 256)

variable (several : 2 ≤ baseParam) (most : baseParam ≤ 16)
  (some : 1 ≤ outLength.toNat)

include several most some

/-- With room for the digits they are written, closed by a NUL and turned
round. -/
theorem tostring256In_of_le
    (fits : (digitChars baseParam number.toNat).length ≤ outLength.toNat) :
    tostring256In number baseParam out outLength =
      (reverseString
        ((out.writeAll 0 (digitChars baseParam number.toNat)).write
          (digitChars baseParam number.toNat).length 0)
        (digitChars baseParam number.toNat).length,
        Option.some (digitChars baseParam number.toNat).length) := by
  have loop := @tostringLoopIn_eq baseParam several most outLength some 256
    number 0 out (by omega) (length_digitChars_le several)
  rw [Nat.sub_zero, List.take_of_length_le fits, Nat.zero_add, if_pos fits]
    at loop
  rw [tostring256In, if_neg (by omega)]
  dsimp only
  rw [loop]

/-- Without room for the digits as many as possible are written. -/
theorem tostring256In_of_lt
    (exceeds : outLength.toNat < (digitChars baseParam number.toNat).length) :
    tostring256In number baseParam out outLength =
      (out.writeAll 0 ((digitChars baseParam number.toNat).take
        outLength.toNat), none) := by
  have loop := @tostringLoopIn_eq baseParam several most outLength some 256
    number 0 out (by omega) (length_digitChars_le several)
  rw [Nat.sub_zero, Nat.zero_add, if_neg (not_le.mpr exceeds)] at loop
  rw [tostring256In, if_neg (by omega)]
  dsimp only
  rw [loop]

end Whole

/-- The output respects its capacity: the digits and their NUL are written
inside it, the success says that they fit, and then they are the text of the
number. -/
structure Prints (number : Uint256) (baseParam : Nat) (outLength : UInt32)
    (before : Nat -> UInt8) : Prop where
  inside : ∀ position ∈
    (tostring256In number baseParam ⟨before, []⟩ outLength).1.written,
      position < outLength.toNat
  succeeds_iff :
    (tostring256In number baseParam ⟨before, []⟩ outLength).2.isSome ↔
      (radixText baseParam number.toNat).length < outLength.toNat
  text : ∀ realLength,
    (tostring256In number baseParam ⟨before, []⟩ outLength).2 =
      some realLength ->
        let memory :=
          (tostring256In number baseParam ⟨before, []⟩ outLength).1.memory
        realLength = (radixText baseParam number.toNat).length ∧
          (∀ index < realLength, memory index =
            (radixText baseParam number.toNat).getD index 0) ∧
          memory realLength = 0

section Capacity

variable {number : Uint256} {baseParam : Nat} {outLength : UInt32}
  {before : Nat -> UInt8} (several : 2 ≤ baseParam) (most : baseParam ≤ 16)
  (some : 1 ≤ outLength.toNat)

include several most some

/-- With room for the digits all of them are written and a NUL behind
them. -/
theorem written_of_le
    (fits : (radixText baseParam number.toNat).length ≤ outLength.toNat)
    (position : Nat) :
    position ∈
        (tostring256In number baseParam ⟨before, []⟩ outLength).1.written ↔
      position ≤ (radixText baseParam number.toNat).length := by
  rw [radixText, List.length_reverse] at fits ⊢
  rw [(parts_of_eq (tostring256In_of_le several most some fits)).1]
  have written : position ∈
      (((⟨before, []⟩ : Output).writeAll 0
        (digitChars baseParam number.toNat)).write
          (digitChars baseParam number.toNat).length 0).written ↔
      position ≤ (digitChars baseParam number.toNat).length := by
    rw [Output.mem_written_write, Output.mem_written_writeAll]
    simp only [List.not_mem_nil, false_or]
    omega
  have few := length_digitChars_pos baseParam number.toNat
  constructor
  · intro member
    obtain earlier | turned :=
      mem_written_reverseString _ few position member
    · exact written.mp earlier
    · omega
  · intro below
    exact written_reverseLoop (written.mpr below)

/-- With room for the digits the text of the number is in memory. -/
theorem memory_of_le
    (fits : (radixText baseParam number.toNat).length ≤ outLength.toNat)
    (index : Nat) :
    (tostring256In number baseParam ⟨before, []⟩ outLength).1.memory index =
      if index < (radixText baseParam number.toNat).length then
        (radixText baseParam number.toNat).getD index 0
      else if index = (radixText baseParam number.toNat).length then 0
      else before index := by
  have few := length_digitChars_pos baseParam number.toNat
  rw [radixText, List.length_reverse] at fits ⊢
  rw [(parts_of_eq (tostring256In_of_le several most some fits)).1,
    memory_reverseString _ few]
  simp only [Output.memory_write, Output.memory_writeAll]
  by_cases inside : index < (digitChars baseParam number.toNat).length
  · have turned := congrFun (List.getD_reverse index inside) (0 : UInt8)
    rw [if_pos inside, if_pos inside, turned, if_neg (by omega),
      if_pos (by omega), Nat.sub_zero]
  · rw [if_neg inside, if_neg inside]
    split
    · rfl
    · rw [if_neg (by omega)]

/-- The capacity is respected unless it has room for exactly the digits. -/
theorem prints_iff_length_ne :
    Prints number baseParam outLength before ↔
      (radixText baseParam number.toNat).length ≠ outLength.toNat := by
  constructor
  · intro prints same
    have behind := prints.inside _
      ((written_of_le several most some same.le _).mpr le_rfl)
    omega
  · intro different
    by_cases fits :
        (radixText baseParam number.toNat).length ≤ outLength.toNat
    · have result := (parts_of_eq (@tostring256In_of_le number baseParam
        outLength ⟨before, []⟩ several most some
        (by rwa [radixText, List.length_reverse] at fits))).2
      rw [← List.length_reverse, ← radixText] at result
      refine ⟨?_, ?_, ?_⟩
      · intro position member
        have below := (written_of_le several most some fits _).mp member
        omega
      · rw [result]
        exact iff_of_true rfl (by omega)
      · intro realLength reported
        obtain rfl := Option.some.inj (result.symm.trans reported)
        refine ⟨rfl, ?_, ?_⟩
        · intro index inside
          rw [memory_of_le several most some fits, if_pos inside]
        · rw [memory_of_le several most some fits, if_neg (lt_irrefl _),
            if_pos rfl]
    · have exceeds :
          outLength.toNat < (digitChars baseParam number.toNat).length := by
        rwa [radixText, List.length_reverse, not_le] at fits
      obtain ⟨output, result⟩ := parts_of_eq (@tostring256In_of_lt number
        baseParam outLength ⟨before, []⟩ several most some exceeds)
      refine ⟨?_, ?_, ?_⟩
      · intro position member
        rw [output, Output.mem_written_writeAll, List.length_take] at member
        obtain none | inside := member
        · exact absurd none List.not_mem_nil
        · omega
      · rw [result]
        exact iff_of_false (by decide) (by omega)
      · intro realLength reported
        rw [result] at reported
        exact absurd reported (by simp)

end Capacity

/-! ## The scratch buffer of 78 characters -/

/-- The decimal text of a number. -/
theorem radixText_ten (value : Nat) : radixText 10 value = decimalDigits value := by
  induction value using decimal_induction with
  | single value small =>
      rw [radixText, digitChars_of_lt small, decimalDigits_of_lt small,
        List.reverse_singleton]
      congr 1
      interval_cases value <;> rfl
  | several value large inductionHypothesis =>
      have small := Nat.mod_lt value (show 0 < 10 by decide)
      rw [radixText, digitChars_of_le (by decide) large, List.reverse_cons,
        ← radixText, inductionHypothesis, decimalDigits_of_le large]
      congr 2
      generalize value % 10 = digit at small
      interval_cases digit <;> rfl

theorem length_decimalDigits_le_iff {value count : Nat} (some : 0 < count) :
    (decimalDigits value).length ≤ count ↔ value < 10 ^ count := by
  rw [← radixText_ten, radixText, List.length_reverse, digitChars,
    List.length_map, length_radixDigits_le_iff (by decide) some]

/-- The output of the decimal text in memory is the one without it. -/
theorem tostring256In_ten (number : Uint256) (out : Output) :
    (tostring256In number 10 out 78).2 =
      (tostring256 number 10 78).map List.length := by
  have short := length_decimalDigits_toNat number
  have counted := congrArg List.length (radixText_ten number.toNat)
  rw [radixText, List.length_reverse] at counted
  have result := (parts_of_eq (@tostring256In_of_le number 10 78 out
    (by decide) (by decide) (by decide)
    (show (digitChars 10 number.toNat).length ≤ 78 by omega))).2
  rw [result, tostring256_eq, Option.map_some, counted]

/-- A number that `convertNumericDecimalToString` prints has room for its NUL
when it is short of 78 digits. -/
theorem convertNumericDecimalToString_overruns_iff {int : TxInt256}
    (short : int.length.toNat ≤ 32) :
    convertNumericDecimalToString int = .error .scratchOverrun ↔
      10 ^ 77 ≤ beNat (int.value.read 0 int.length.toNat) := by
  obtain ⟨numberBuf, padded, whole, value⟩ := padNumber_eq short
  have number := toNat_readu256BE whole
  have few := @length_decimalDigits_le_iff (beNat numberBuf) 77 (by decide)
  unfold convertNumericDecimalToString
  rw [if_neg (not_lt.mpr short), padded, bind_ok, tostring78, tostring256_eq,
    number, ← value, ← not_lt, ← few]
  dsimp only
  split
  · next room => exact iff_of_false (fun same => by cases same) (by omega)
  · next none => exact iff_of_true rfl (by omega)

/-- `tostring256` respects its capacity unless that is exactly the number of
digits, and the buffer of 78 characters is safe for numbers below `10 ^ 77`
only. -/
theorem tostring256_prints_iff {baseParam : Nat} {outLength : UInt32}
    (several : 2 ≤ baseParam) (most : baseParam ≤ 16)
    (some : 1 ≤ outLength.toNat) (number : Uint256) (before : Nat -> UInt8) :
    (Prints number baseParam outLength before ↔
      (radixText baseParam number.toNat).length ≠ outLength.toNat) ∧
    ∀ int : TxInt256, int.length.toNat ≤ 32 ->
      (convertNumericDecimalToString int ≠ .error .scratchOverrun ↔
        beNat (int.value.read 0 int.length.toNat) < 10 ^ 77) := by
  refine ⟨prints_iff_length_ne several most some, fun int short => ?_⟩
  rw [Ne, convertNumericDecimalToString_overruns_iff short, not_le]

/-- The number 7 in a buffer of two characters. -/
theorem tostring256_prints_iff_seven :
    (Prints (.ofUInt64 7) 10 2 (fun _ => 0) ↔
      (radixText 10 (Uint256.ofUInt64 7).toNat).length ≠ 2) ∧
    ∀ int : TxInt256, int.length.toNat ≤ 32 ->
      (convertNumericDecimalToString int ≠ .error .scratchOverrun ↔
        beNat (int.value.read 0 int.length.toNat) < 10 ^ 77) :=
  tostring256_prints_iff (show 2 ≤ 10 by decide) (by decide)
    (show 1 ≤ (2 : UInt32).toNat by decide) (.ofUInt64 7) _

/-- The greatest number has 78 digits, and its NUL is written behind a buffer
of 78 characters. -/
theorem not_prints_greatest :
    ¬Prints ⟨⟨0xffffffffffffffff, 0xffffffffffffffff⟩,
      ⟨0xffffffffffffffff, 0xffffffffffffffff⟩⟩ 10 78 (fun _ => 0) := by
  rw [prints_iff_length_ne (by decide) (by decide) (by decide), not_not,
    radixText_ten]
  generalize greatest : Uint256.toNat _ = value
  have power : value = 2 ^ 256 - 1 := greatest.symm.trans (by decide +kernel)
  have more := mt (@length_decimalDigits_le_iff value 77 (by decide)).mp
    (by rw [power]; norm_num)
  have enough := (@length_decimalDigits_le_iff value 78 (by decide)).mpr
    (by rw [power]; norm_num)
  show (decimalDigits value).length = 78
  omega

end LedgerOne
