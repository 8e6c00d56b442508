import LedgerOne.Messages.Staking

/-!
# The keys of an encoded operation

What `processStaking` keeps of the BLS keys of an operation, for the screen:
the first ten keys of a new validator, and behind two captions the key that a
change removes and the key that it adds.
-/

namespace LedgerOne

open Rlp

/-- The keys of a new validator are kept for the screen. -/
theorem CreateValidator.blsKeyStr_read (message : CreateValidator) :
    message.read.blsKeyStr = .ofList (keysText (message.keys.take 10)) := by
  have whole : ∀ key ∈ message.keys, key.length = 48 := by
    intro key member
    obtain ⟨bytes, -, rfl⟩ := List.mem_map.mp member
    exact bytes.property
  have shown := blsKeyStr_showKeys whole 0
    (Staking.setKeyCount message.slotPubKeys.length message.opening)
  rw [Nat.zero_mul] at shown
  unfold CreateValidator.read Slot.putFinalInt
  split
  · exact shown
  · exact shown

/-- What is kept of the keys of an encoded operation of a validator. -/
theorem stakingVerdict_shown (transaction : StakingTransaction)
    (small : (Item.encodeAll transaction.items).length < 2 ^ 32)
    {content : TxContent}
    (accepts : stakingVerdict transaction.encode = .accepted content true) :
    (∀ message, transaction.message = .createValidator message ->
      content.blsKeyStr = .ofList (keysText (message.keys.take 10))) ∧
    ∀ message, transaction.message = .editValidator message ->
      ∃ before, keyPart before = (DirectiveEditValidator, .zero, .zero, .zero) ∧
        content = message.changes.content before := by
  rw [stakingVerdict_encode transaction small] at accepts
  obtain ⟨rfl, -⟩ := Layout.Verdict.accepted.inj accepts
  constructor
  · intro message same
    rw [same]
    exact message.blsKeyStr_read
  · intro message same
    rw [same]
    exact ⟨message.opening, rfl, rfl⟩

end LedgerOne
