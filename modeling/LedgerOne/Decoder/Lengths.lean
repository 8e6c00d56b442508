import LedgerOne.Decoder.Visits

/-!
# The lengths of the decoded integers

An integer that a parser has read is at most 32 bytes long, so that what is
shown of an accepted message never fails for the length of a number.
-/

namespace LedgerOne

open Layout

/-- The integers of a message. -/
def TxContent.integers (content : TxContent) : List TxInt256 :=
  [content.gasprice, content.startgas, content.value, content.rate,
    content.maxRate, content.maxChangeRate, content.minSelfDelegation,
    content.maxTotalDelegation]

/-- No integer is longer than the scratch buffers of the texts. -/
def TxContent.Short (content : TxContent) : Prop :=
  ∀ int ∈ content.integers, int.length.toNat ≤ 32

theorem short_zero : TxContent.zero.Short := by
  intro int member
  simp only [TxContent.integers, TxContent.zero, List.mem_cons,
    List.not_mem_nil, or_false, or_self] at member
  subst member
  exact Nat.zero_le 32

/-- A slot for one of the integers. -/
structure Slot.IsInteger (slot : Slot TxInt256) : Prop where
  get_mem : ∀ content, slot.get content ∈ content.integers
  of_mem : ∀ int content, ∀ other ∈ (slot.set int content).integers,
    other = int ∨ other ∈ content.integers

theorem isInteger_value : Slot.value.IsInteger where
  get_mem := by simp [TxContent.integers, Slot.value]
  of_mem := by simp +contextual [TxContent.integers, Slot.value]

theorem isInteger_rate : Slot.rate.IsInteger where
  get_mem := by simp [TxContent.integers, Slot.rate]
  of_mem := by simp +contextual [TxContent.integers, Slot.rate]

theorem isInteger_maxRate : Slot.maxRate.IsInteger where
  get_mem := by simp [TxContent.integers, Slot.maxRate]
  of_mem := by simp +contextual [TxContent.integers, Slot.maxRate]

theorem isInteger_maxChangeRate : Slot.maxChangeRate.IsInteger where
  get_mem := by simp [TxContent.integers, Slot.maxChangeRate]
  of_mem := by simp +contextual [TxContent.integers, Slot.maxChangeRate]

theorem isInteger_minSelfDelegation : Slot.minSelfDelegation.IsInteger where
  get_mem := by simp [TxContent.integers, Slot.minSelfDelegation]
  of_mem := by simp +contextual [TxContent.integers, Slot.minSelfDelegation]

theorem isInteger_maxTotalDelegation : Slot.maxTotalDelegation.IsInteger where
  get_mem := by simp [TxContent.integers, Slot.maxTotalDelegation]
  of_mem := by simp +contextual [TxContent.integers, Slot.maxTotalDelegation]

section Short

variable {content : TxContent} {slot : Slot TxInt256}

theorem TxContent.Short.set (short : content.Short) (isInteger : slot.IsInteger)
    {int : TxInt256} (small : int.length.toNat ≤ 32) :
    (slot.set int content).Short := by
  intro other member
  obtain rfl | kept := isInteger.of_mem int content other member
  · exact small
  · exact short other kept

/-- A whole integer that fits its array is short. -/
theorem TxContent.Short.putInt (short : content.Short)
    (isInteger : slot.IsInteger) {bytes : List UInt8}
    (fits : exceeds (some 32) bytes.length = false) :
    (slot.putInt bytes content).Short := by
  apply short.set isInteger
  simp only [exceeds_some, decide_eq_false_iff_not] at fits
  simp only [UInt8.toNat_ofNat']
  omega

/-- So is one that was cut off, whose length is not stored. -/
theorem TxContent.Short.putFinalInt (short : content.Short)
    (isInteger : slot.IsInteger) (length : Nat) {bytes : List UInt8}
    (fits : exceeds (some 32) bytes.length = false) :
    (slot.putFinalInt length bytes content).Short := by
  unfold Slot.putFinalInt
  split
  · have small := short _ (isInteger.get_mem content)
    exact short.set isInteger (by exact small)
  · exact short.putInt isInteger fits

end Short

/-! ## Staking operations -/

namespace Staking

variable {content : TxContent} (short : content.Short)

include short

theorem short_putBlsPubKey {bytes : List UInt8} :
    (Slot.blsPubKey.putBytes bytes content).Short :=
  short

theorem short_showText {offset : Nat} {bytes : List UInt8} :
    (showText offset bytes content).Short :=
  short

theorem short_showKeyAt {offset : Nat} : (showKeyAt offset content).Short :=
  short_showText short

theorem produces_amount : (amount content).Produces TxContent.Short := by
  unfold amount
  split
  · exact produces_final fun length bytes fits =>
      short.putFinalInt isInteger_value length fits
  · exact produces_field fun _ _ => produces_refuse

theorem produces_signatures (left : Nat) :
    (signatures content left).Produces TxContent.Short := by
  induction left with
  | zero => exact produces_amount short
  | succ left inductionHypothesis =>
      exact produces_field fun _ _ => inductionHypothesis

theorem produces_blssigs : (blssigs content).Produces TxContent.Short := by
  apply produces_enter
  intro length
  dsimp only [blssignature]
  split
  · exact produces_drain
  · exact produces_signatures (by exact short) _

theorem produces_keys (index left : Nat) :
    (keys content index left).Produces TxContent.Short := by
  induction left generalizing content index with
  | zero => exact produces_blssigs short
  | succ left inductionHypothesis =>
      apply produces_field
      intro bytes _
      apply inductionHypothesis
      unfold showKey
      split
      · exact short_showKeyAt (short_putBlsPubKey short)
      · exact short_putBlsPubKey short

theorem produces_slotpubkeys :
    (slotpubkeys content).Produces TxContent.Short := by
  apply produces_enter
  intro length
  dsimp only [blspubkey]
  split
  · exact produces_drain
  · exact produces_keys (by exact short) _ _

theorem produces_editactive : (editactive content).Produces TxContent.Short := by
  apply produces_final
  intro length bytes _
  unfold Slot.putShard
  split <;> exact short

theorem produces_slotkeytoremove :
    (slotkeytoremove content).Produces TxContent.Short := by
  apply produces_field
  intro removed _
  have afterRemoved : (showKeyAt 7 (Slot.blsPubKey.putBytes removed
      (showText 0 (ascii "remove:") content))).Short :=
    short_showKeyAt (short_putBlsPubKey (short_showText short))
  apply produces_field
  intro added _
  split
  · apply produces_field
    intro _ _
    apply produces_editactive
    exact short_showKeyAt (short_putBlsPubKey (short_showText afterRemoved))
  · exact produces_refuse

theorem produces_minselfdelegation :
    (minselfdelegation content).Produces TxContent.Short := by
  apply produces_field
  intro least fits
  apply produces_field
  intro most fitsToo
  have limits := (short.putInt isInteger_minSelfDelegation fits).putInt
    isInteger_maxTotalDelegation fitsToo
  split_ifs
  · exact produces_slotpubkeys limits
  · exact produces_slotkeytoremove limits
  · exact produces_refuse

theorem produces_maxrate : (maxrate content).Produces TxContent.Short := by
  apply produces_enter
  intro _
  apply produces_field
  intro most fits
  apply produces_enter
  intro _
  apply produces_field
  intro change fitsToo
  exact produces_minselfdelegation
    ((short.putInt isInteger_maxRate fits).putInt isInteger_maxChangeRate
      fitsToo)

theorem produces_rate : (rate content).Produces TxContent.Short := by
  apply produces_enter
  intro length
  split
  · exact produces_minselfdelegation short
  · apply produces_field
    intro bytes fits
    have rated := short.putInt isInteger_rate fits
    split
    · exact produces_minselfdelegation rated
    · exact produces_maxrate rated

theorem produces_details : (details content).Produces TxContent.Short := by
  apply produces_field
  intro _ _
  split
  · exact produces_rate short
  · exact produces_enter fun _ => produces_rate short

theorem produces_name : (name content).Produces TxContent.Short := by
  apply produces_field
  intro bytes _
  have named : (Slot.name.putBytes bytes (clearName content)).Short := short
  exact produces_field fun _ _ => produces_field fun _ _ =>
    produces_field fun _ _ => produces_details named

theorem produces_validatoraddr :
    (validatoraddr content).Produces TxContent.Short := by
  apply produces_field
  intro bytes _
  split
  · exact produces_amount (by exact short)
  · exact produces_enter fun _ => produces_name (by exact short)

theorem produces_delegatoraddr :
    (delegatoraddr content).Produces TxContent.Short := by
  unfold delegatoraddr
  split
  · exact produces_final fun _ _ _ => short
  · exact produces_field fun _ _ => produces_validatoraddr (by exact short)

/-- Every value of the layout of a staking operation is short. -/
theorem produces_message : (message content).Produces TxContent.Short := by
  apply produces_enter
  intro _
  apply produces_field
  intro bytes _
  have directed : (putDirective bytes.length bytes content).Short := by
    unfold putDirective
    split <;> exact short
  apply produces_enter
  intro _
  split
  · exact produces_validatoraddr directed
  · exact produces_delegatoraddr directed

end Staking

/-- The integers of an accepted staking operation are short. -/
theorem short_of_returns {buf : Region 1024} {bytes : List UInt8}
    {left : TxContext} (received : Received buf bytes)
    (returns : processStaking buf (stakingStart bytes.length) =
      .ok (0, left)) :
    left.content.Short :=
  Staking.produces_message short_zero _ _
    (stakingVisits_eq received returns).2

end LedgerOne
