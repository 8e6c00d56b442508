import LedgerOne.Lib.Ensures
import LedgerOne.Lib.Strings
import LedgerOne.Texts.Number

/-!
# The text of an amount

`convertU256ToString` writes an amount of atto as a decimal number of ONE, cut
after the ninth digit.
-/

namespace LedgerOne

/-- The digits after the point, for so many nano. -/
def fractionText (nano : Nat) : List UInt8 :=
  if nano = 0 then []
  else ascii "." ++ (fixedDigits 9 nano).rdropWhile fun digit => digit = 48

/-- The canonical decimal of an amount, in steps of a nano. -/
def amountText (value : Nat) : List UInt8 :=
  decimalDigits (value / 10 ^ 18) ++ fractionText (value / 10 ^ 9 % 10 ^ 9)

/-- The digits of a nano amount, padded and trimmed as
`convertU256ToString` does. -/
theorem padded_trimZeros {nano : Nat} (positive : 0 < nano)
    (small : nano < 10 ^ 9) :
    List.replicate (9 - (decimalDigits nano).length) 48 ++
        trimZeros (decimalDigits nano) =
      (fixedDigits 9 nano).rdropWhile fun digit => digit = 48 := by
  obtain ⟨digit, member, other⟩ := exists_mem_decimalDigits positive
  rw [← replicate_append_decimalDigits (by decide) small,
    rdropWhile_append_of_mem _ member (by simpa using other)]
  rfl

/-! ## Lengths -/

theorem length_fractionText (nano : Nat) : (fractionText nano).length ≤ 10 := by
  have kept := List.rdropWhile_prefix (fun digit => decide (digit = 48))
    (fixedDigits 9 nano)
  have short := kept.length_le
  rw [length_fixedDigits] at short
  unfold fractionText
  split
  · exact Nat.zero_le _
  · rw [List.length_append, show (ascii ".").length = 1 from rfl]
    omega

/-- A 256-bit amount has at most 60 digits before the point. -/
theorem length_wholeAmount {value : Nat} (small : value < 2 ^ 256) :
    (decimalDigits (value / 10 ^ 18)).length ≤ 60 :=
  length_decimalDigits_le (by decide) <|
    lt_of_le_of_lt (Nat.div_le_div_right small.le) (by norm_num)

theorem length_amountText {value : Nat} (small : value < 2 ^ 256) :
    (amountText value).length ≤ 70 := by
  have front := length_wholeAmount small
  have back := length_fractionText (value / 10 ^ 9 % 10 ^ 9)
  rw [amountText, List.length_append]
  omega

/-! ## The conversion -/

/-- Runs of bytes, each at the position where the one before it ends. -/
def placed : Nat -> List (List UInt8) -> List (Nat × List UInt8)
  | _, [] => []
  | position, bytes :: rest =>
      (position, bytes) :: placed (position + bytes.length) rest

/-- The parts that `convertU256ToString` puts a text together from. -/
def amountParts (value : Nat) : List (List UInt8) :=
  let nano := value / 10 ^ 9 % 10 ^ 9
  let digits := decimalDigits nano
  decimalDigits (value / 10 ^ 18) ::
    if nano = 0 then []
    else [ascii ".", List.replicate (9 - digits.length) 48, trimZeros digits]

theorem flatten_amountParts (value : Nat) :
    (amountParts value).flatten = amountText value := by
  unfold amountParts amountText fractionText
  dsimp only
  by_cases zero : value / 10 ^ 9 % 10 ^ 9 = 0
  · rw [if_pos zero, if_pos zero]
    rfl
  · rw [if_neg zero, if_neg zero, ← padded_trimZeros
      (Nat.pos_of_ne_zero zero) (Nat.mod_lt _ (by decide))]
    simp

/-- The bytes that `convertU256ToString` writes for an amount: it clears the
output and puts the parts in it. -/
def amountWrites (value : Nat) : List (Nat × List UInt8) :=
  (0, List.replicate 78 0) :: placed 0 (amountParts value)

theorem toNat_nano :
    (Uint256.ofUInt64 1000000000).toNat = 10 ^ 9 := by
  rw [toNat_ofUInt64]
  rfl

theorem placed_four (whole zeros trimmed : List UInt8) :
    placed 0 [whole, ascii ".", zeros, trimmed] =
      [(0, whole), (whole.length, ascii "."), (whole.length + 1, zeros),
        (whole.length + 1 + zeros.length, trimmed)] := by
  simp [placed, ascii]

theorem length_flatten_four (whole zeros trimmed : List UInt8) :
    [whole, ascii ".", zeros, trimmed].flatten.length =
      whole.length + 1 + zeros.length + trimmed.length := by
  simp [ascii, Nat.add_assoc, Nat.add_comm, Nat.add_left_comm]

/-- The two divisions of `convertU256ToString`. -/
theorem divide_twice {buffer : List UInt8} (whole : buffer.length = 32) :
    ∃ amount rMod : Uint256,
      divmod256 (divmod256 (readu256BE buffer) (.ofUInt64 1000000000)).1
        (.ofUInt64 1000000000) = (amount, rMod) ∧
      amount.toNat = beNat buffer / 10 ^ 18 ∧
      rMod.toNat = beNat buffer / 10 ^ 9 % 10 ^ 9 := by
  have positive : 0 < (Uint256.ofUInt64 1000000000).toNat := by
    rw [toNat_nano]
    decide
  obtain ⟨nanoAmount, -⟩ := divmod256_spec (readu256BE buffer) positive
  obtain ⟨amount, rMod⟩ := divmod256_spec
    (divmod256 (readu256BE buffer) (.ofUInt64 1000000000)).1 positive
  rw [toNat_readu256BE whole, toNat_nano] at nanoAmount
  rw [nanoAmount, toNat_nano] at amount rMod
  rw [Nat.div_div_eq_div_mul] at amount
  exact ⟨_, _, rfl, amount, rMod⟩

/-- `convertU256ToString` without a fraction. -/
theorem convertU256ToString_whole {buffer whole : List UInt8}
    {amount rMod : Uint256}
    (divided : divmod256 (divmod256 (readu256BE buffer)
      (.ofUInt64 1000000000)).1 (.ofUInt64 1000000000) = (amount, rMod))
    (printed : tostring78 amount = .ok (some whole))
    (zero : rMod.toNat = 0) :
    convertU256ToString buffer 78 =
      .ok ⟨[(0, List.replicate 78 0), (0, whole)], some whole.length,
        true⟩ := by
  unfold convertU256ToString
  dsimp only
  rw [divided]
  dsimp only
  rw [printed, bind_ok]
  dsimp only
  rw [if_pos ((zero256_iff rMod).mpr zero)]
  rfl

/-- `convertU256ToString` with a fraction. -/
theorem convertU256ToString_fraction {buffer whole decimals : List UInt8}
    {amount rMod : Uint256}
    (divided : divmod256 (divmod256 (readu256BE buffer)
      (.ofUInt64 1000000000)).1 (.ofUInt64 1000000000) = (amount, rMod))
    (printed : tostring78 amount = .ok (some whole))
    (fraction : tostring78 rMod = .ok (some decimals))
    (positive : rMod.toNat ≠ 0) (few : decimals.length ≤ 9)
    (short : whole.length ≤ 60) :
    convertU256ToString buffer 78 =
      .ok ⟨[(0, List.replicate 78 0), (0, whole), (whole.length, ascii "."),
          (whole.length + 1, List.replicate (9 - decimals.length) 48),
          (whole.length + 1 + 9 - decimals.length, trimZeros decimals)],
        some (whole.length + 1 + (9 - decimals.length) +
          (trimZeros decimals).length), true⟩ := by
  unfold convertU256ToString
  dsimp only
  rw [divided]
  dsimp only
  rw [printed, bind_ok]
  dsimp only
  rw [if_neg (fun zero => positive ((zero256_iff rMod).mp zero)), fraction,
    bind_ok]
  dsimp only
  rw [if_neg (by omega)]
  rfl

/-- `convertU256ToString` succeeds on every amount. -/
theorem convertU256ToString_eq {buffer : List UInt8}
    (whole : buffer.length = 32) :
    convertU256ToString buffer 78 =
      .ok ⟨amountWrites (beNat buffer),
        some (amountText (beNat buffer)).length, true⟩ := by
  have small : beNat buffer < 2 ^ 256 :=
    toNat_readu256BE whole ▸ Uint256.toNat_lt _
  have short := length_wholeAmount small
  obtain ⟨amount, rMod, divided, quotient, remainder⟩ := divide_twice whole
  have nano : rMod.toNat < 10 ^ 9 :=
    remainder ▸ Nat.mod_lt _ (by decide)
  have printed : tostring78 amount = _ := tostring78_eq <| by
    rw [quotient]
    exact lt_of_le_of_lt (Nat.div_le_div_right small.le) (by norm_num)
  have fraction : tostring78 rMod = _ := tostring78_eq <|
    lt_trans nano (by norm_num)
  have few : (decimalDigits rMod.toNat).length ≤ 9 :=
    length_decimalDigits_le (by decide) nano
  rw [← quotient] at short
  rw [← flatten_amountParts]
  unfold amountWrites amountParts
  rw [← quotient, ← remainder]
  dsimp only
  by_cases zero : rMod.toNat = 0
  · rw [if_pos zero, convertU256ToString_whole divided printed zero]
    simp [placed]
  · rw [if_neg zero, convertU256ToString_fraction divided printed fraction
      zero few short]
    rw [placed_four, length_flatten_four, List.length_replicate,
      Nat.add_sub_assoc few ((decimalDigits amount.toNat).length + 1)]

/-! ## The text that is left in the output -/

namespace Region

/-- Store the writes of a conversion from an offset on. -/
def writeAll? (region : Region size) (offset : Nat)
    (writes : List (Nat × List UInt8)) : Option (Region size) :=
  writes.foldlM
    (fun region (position, bytes) => region.write? (offset + position) bytes)
    region

theorem writeAll?_cons (region : Region size) {offset position : Nat}
    {bytes : List UInt8} (rest : List (Nat × List UInt8))
    (fits : offset + position + bytes.length ≤ size) :
    region.writeAll? offset ((position, bytes) :: rest) =
      (region.splice (offset + position) bytes).writeAll? offset rest := by
  rw [writeAll?, List.foldlM_cons]
  dsimp only
  rw [write?_eq_some _ _ _ fits]
  rfl

/-- Writing on at the end of a text that NULs follow. -/
theorem splice_padded (region : Region size) (offset : Nat) {count : Nat}
    {front back : List UInt8} (fits : front.length + back.length ≤ count) :
    (region.splice offset (padded count front)).splice
        (offset + front.length) back =
      region.splice offset (padded count (front ++ back)) := by
  have shorter : back.length ≤
      (List.replicate (count - front.length) (0 : UInt8)).length := by
    rw [List.length_replicate]
    omega
  unfold padded
  rw [← splice_append, splice_splice _ _ shorter, splice_append,
    List.drop_replicate, List.length_append, List.append_assoc,
    Nat.sub_sub]

/-- Several writes, one behind the other. -/
theorem writeAll?_placed (region : Region size) {offset count : Nat}
    (inside : offset + count ≤ size) {front : List UInt8}
    {parts : List (List UInt8)}
    (fits : front.length + parts.flatten.length ≤ count) :
    (region.splice offset (padded count front)).writeAll? offset
        (placed front.length parts) =
      some (region.splice offset (padded count (front ++ parts.flatten))) := by
  induction parts generalizing front with
  | nil =>
      rw [List.flatten_nil, List.append_nil]
      rfl
  | cons bytes rest inductionHypothesis =>
      rw [List.flatten_cons, List.length_append] at fits
      rw [placed, writeAll?_cons _ _ (by omega),
        splice_padded _ _ (by omega), ← List.length_append,
        inductionHypothesis (by rw [List.length_append]; omega),
        List.flatten_cons, List.append_assoc]

end Region

/-- The writes for an amount leave its text and NULs in the 78 bytes that they
clear first. -/
theorem writeAll?_amountWrites {value : Nat} (small : value < 2 ^ 256)
    (region : Region size) {offset : Nat} (inside : offset + 78 ≤ size) :
    region.writeAll? offset (amountWrites value) =
      some (region.splice offset (padded 78 (amountText value))) := by
  have short := length_amountText small
  have room : offset + 0 + (List.replicate 78 (0 : UInt8)).length ≤ size := by
    rw [List.length_replicate]
    omega
  have fits : ([] : List UInt8).length +
      (amountParts value).flatten.length ≤ 78 := by
    rw [flatten_amountParts, List.length_nil]
    omega
  have stored := region.writeAll?_placed inside fits
  rw [flatten_amountParts, List.nil_append] at stored
  rw [amountWrites, Region.writeAll?_cons _ _ room]
  exact stored

/-- No character of an amount is NUL. -/
theorem ne_zero_of_mem_amountText {value : Nat} {character : UInt8}
    (member : character ∈ amountText value) : character ≠ 0 := by
  obtain whole | fraction := List.mem_append.mp member
  · obtain ⟨digit, small, rfl⟩ := digit_of_mem_decimalDigits whole
    exact digitChar_ne_zero small
  unfold fractionText at fraction
  split at fraction
  · cases fraction
  obtain point | digits := List.mem_append.mp fraction
  · have named : character = 46 := by simpa [ascii] using point
    rw [named]
    decide
  · have kept := (List.rdropWhile_prefix _ _).mem digits
    obtain ⟨digit, small, rfl⟩ := digit_of_mem_fixedDigits kept
    exact digitChar_ne_zero small

/-- On every buffer of 32 bytes `convertU256ToString` succeeds, and whatever
its output of 78 bytes held it holds the decimal of the amount, cut after nine
digits, and NULs; the length that it reports is the text's.  No write leaves
the output or the local buffer. -/
theorem convertU256ToString_exact (buffer : Region 32)
    (output : Region 78) :
    ∃ conversion, convertU256ToString buffer.toList 78 = .ok conversion ∧
      conversion.succeeds = true ∧
      conversion.outLength =
        some (amountText (beNat buffer.toList)).length ∧
      (amountText (beNat buffer.toList)).length < 78 ∧
      0 ∉ amountText (beNat buffer.toList) ∧
      output.writeAll? 0 conversion.writes =
        some (.ofList (amountText (beNat buffer.toList))) := by
  have whole := Region.length_toList buffer
  have small : beNat buffer.toList < 2 ^ 256 :=
    toNat_readu256BE whole ▸ Uint256.toNat_lt _
  have short := length_amountText small
  have full : (padded 78 (amountText (beNat buffer.toList))).length = 78 :=
    length_padded (by omega)
  refine ⟨_, convertU256ToString_eq whole, rfl, rfl, by omega, ?_, ?_⟩
  · intro member
    exact ne_zero_of_mem_amountText member rfl
  · rw [writeAll?_amountWrites small output (Nat.le_refl 78),
      Region.splice_eq_ofList _ full]
    exact congrArg some (ofList_padded 78 _)

end LedgerOne
