import LedgerOne.Decoder.Bounds
import LedgerOne.Decoder.StakingReader
import LedgerOne.Decoder.Transfer

/-!
# Fields and their destination arrays

Which array each field of a message is stored in, and when all fields of a
message stay inside theirs.  The parsers compare no announced length with the
size of the destination, so that this is a condition on the message.
-/

namespace LedgerOne

open Rlp Layout

/-- The size of the array that `processTx` stores a field in. -/
def txArray : RlpTxField -> Option Nat
  | .gasprice => some MAX_INT256
  | .gaslimit => some MAX_INT256
  | .fromshard => some MAX_INT32
  | .toshard => some MAX_INT32
  | .to => some MAX_ECC_ADDRESS
  | .amount => some MAX_INT256
  | _ => none

/-- The integer that `processTx` stores a field in. -/
def txInteger : RlpTxField -> Option (Slot TxInt256)
  | .gasprice => some Slot.gasprice
  | .gaslimit => some Slot.startgas
  | .amount => some Slot.value
  | _ => none

/-- The size of the array that `processStaking` stores a field in. -/
def stakingArray : RlpStakingField -> Option Nat
  | .directive => some MAX_INT32
  | .delegatoraddr => some MAX_ECC_ADDRESS
  | .validatoraddr => some MAX_ECC_ADDRESS
  | .amount => some MAX_INT256
  | .name => some MAX_NAME_LEN
  | .rateValue => some MAX_INT256
  | .maxrateValue => some MAX_INT256
  | .maxchangerateValue => some MAX_INT256
  | .minselfdelegation => some MAX_INT256
  | .maxtotaldelegation => some MAX_INT256
  | .blspubkey => some MAX_BLS_ADDRESS
  | .slotkeytoremove => some MAX_BLS_ADDRESS
  | .slotkeytoadd => some MAX_BLS_ADDRESS
  | .editactive => some MAX_INT32
  | _ => none

/-- The integer that `processStaking` stores a field in. -/
def stakingInteger : RlpStakingField -> Option (Slot TxInt256)
  | .amount => some Slot.value
  | .rateValue => some Slot.rate
  | .maxrateValue => some Slot.maxRate
  | .maxchangerateValue => some Slot.maxChangeRate
  | .minselfdelegation => some Slot.minSelfDelegation
  | .maxtotaldelegation => some Slot.maxTotalDelegation
  | _ => none

/-- Every round of `processTx` on a fresh context over a message stores inside
the arrays and records true lengths. -/
def TransferFieldsInside (buf : Region 1024) (bytes : List UInt8) : Prop :=
  ∀ visited,
    (processTxRound buf).Visits (transferStart bytes.length) visited ->
    StoresInside buf txDone (handleTxField buf)
        (fun context => txArray context.txCurrentField) visited ∧
      RecordsLength buf txDone (handleTxField buf)
        (fun context => txInteger context.txCurrentField) visited

/-- Every round of `processStaking` on a fresh context over a message stores
inside the arrays and records true lengths. -/
def StakingFieldsInside (buf : Region 1024) (bytes : List UInt8) : Prop :=
  ∀ visited,
    (processStakingRound buf).Visits (stakingStart bytes.length) visited ->
    StoresInside buf stakingDone (handleStakingField buf)
        (fun context => stakingArray context.stakeCurrentField) visited ∧
      RecordsLength buf stakingDone (handleStakingField buf)
        (fun context => stakingInteger context.stakeCurrentField) visited

/-! ## Transfers -/

private theorem transfer_integers {buf : Region 1024}
    {before ready : TxContext} {length : Nat} {body : List UInt8}
    {slot : Slot TxInt256} {flow : Flow TxContext (Int × TxContext)}
    (atField : Ready buf before ready length body)
    (integer : txInteger ready.txCurrentField = some slot)
    (handled : handleTxField buf ready = .ok flow)
    (finished : (contextAfter flow).processingField = false) :
    (slot.get (contextAfter flow).content).length.toNat = length ∧
      length ≤ 32 := by
  cases field : ready.txCurrentField <;> rw [field] at integer <;>
    cases integer <;> simp only [handleTxField, field] at handled
  case gasprice =>
    exact length_of_processInt256 Slot.gasprice .again (fun _ => ⟨rfl, rfl⟩)
      atField handled finished
  case gaslimit =>
    exact length_of_processInt256 Slot.startgas .again (fun _ => ⟨rfl, rfl⟩)
      atField handled finished
  case amount =>
    exact length_of_processInt256 Slot.value (.exit ⟨0, ·⟩)
      (fun _ => ⟨rfl, rfl⟩) atField handled finished

private theorem transfer_arrays (buf : Region 1024) :
    Arrays buf (handleTxField buf)
      (ExpectsTransfer Transfer.expected)
      (fun context => txArray context.txCurrentField)
      (fun context => txInteger context.txCurrentField) where
  same kept := congrArg txArray kept.txCurrentField
  array {state layout} expects := by
    obtain ⟨rfl, _⟩ := expects
    cases field : state.txCurrentField <;> rfl
  integers atField integer handled finished :=
    transfer_integers atField integer handled finished

/-- The fields of a transfer stay inside exactly when all its announced
lengths fit. -/
theorem transferFieldsInside_iff {buf : Region 1024} {bytes : List UInt8}
    (received : Received buf bytes) :
    TransferFieldsInside buf bytes ↔
      (Transfer.message .zero).Fits bytes :=
  rounds_inside_iff_fits (transfer_arrays buf) (transferReader_sound buf)
    (transferReader_at_start received)

/-! ## Staking operations -/

private theorem map_again (taken : Except Fault TxContext)
    (post : TxContext -> TxContext)
    {flow : Flow TxContext (Int × TxContext)}
    (handled : continueWith (do return post (← taken)) = .ok flow) :
    taken.map (fun context => .again (post context)) = .ok flow :=
  (continueWith_do taken post).symm.trans handled

private theorem staking_integers {buf : Region 1024}
    {before ready : TxContext} {length : Nat} {body : List UInt8}
    {slot : Slot TxInt256} {flow : Flow TxContext (Int × TxContext)}
    (atField : Ready buf before ready length body)
    (integer : stakingInteger ready.stakeCurrentField = some slot)
    (handled : handleStakingField buf ready = .ok flow)
    (finished : (contextAfter flow).processingField = false) :
    (slot.get (contextAfter flow).content).length.toNat = length ∧
      length ≤ 32 := by
  cases field : ready.stakeCurrentField <;> rw [field] at integer <;>
    cases integer <;> simp only [handleStakingField, field] at handled
  case amount =>
    refine length_of_processInt256 Slot.value _ (fun handled => ?_) atField
      handled finished
    split <;> exact ⟨rfl, rfl⟩
  case rateValue =>
    refine length_of_processInt256 Slot.rate _ (fun handled => ?_) atField
      (map_again _ _ handled) finished
    split <;> exact ⟨rfl, rfl⟩
  case maxrateValue =>
    exact length_of_processInt256 Slot.maxRate .again (fun _ => ⟨rfl, rfl⟩)
      atField handled finished
  case maxchangerateValue =>
    exact length_of_processInt256 Slot.maxChangeRate .again
      (fun _ => ⟨rfl, rfl⟩) atField handled finished
  case minselfdelegation =>
    exact length_of_processInt256 Slot.minSelfDelegation .again
      (fun _ => ⟨rfl, rfl⟩) atField handled finished
  case maxtotaldelegation =>
    refine length_of_processInt256 Slot.maxTotalDelegation _
      (fun handled => ?_) atField handled finished
    split_ifs <;> exact ⟨rfl, rfl⟩

private theorem staking_array (content : TxContent) (keyIndex : Nat)
    (field : RlpStakingField) :
    stakingArray field = (Staking.expected content keyIndex field).capacity := by
  cases field
  case amount =>
    simp only [Staking.expected, Staking.amount]
    split <;> rfl
  case delegatoraddr =>
    simp only [Staking.expected, Staking.delegatoraddr]
    split <;> rfl
  case blspubkey =>
    simp only [Staking.expected]
    cases content.blsPubKeySize - keyIndex <;> rfl
  case blssignature =>
    simp only [Staking.expected]
    cases content.blsPubKeySize - keyIndex <;> rfl
  all_goals rfl

private theorem staking_arrays (buf : Region 1024) :
    Arrays buf (handleStakingField buf) ExpectsStaking
      (fun context => stakingArray context.stakeCurrentField)
      (fun context => stakingInteger context.stakeCurrentField) where
  same kept := congrArg stakingArray kept.stakeCurrentField
  array {state layout} expects := by
    obtain ⟨rfl, _⟩ := expects
    exact staking_array _ _ _
  integers atField integer handled finished :=
    staking_integers atField integer handled finished

/-- The fields of a staking operation stay inside exactly when all its
announced lengths fit. -/
theorem stakingFieldsInside_iff {buf : Region 1024} {bytes : List UInt8}
    (received : Received buf bytes) :
    StakingFieldsInside buf bytes ↔
      (Staking.message .zero).Fits bytes :=
  rounds_inside_iff_fits (staking_arrays buf) (stakingReader_sound buf)
    (stakingReader_at_start received)

/-! ## Both parsers -/

/-- Both parsers keep the fields of a message inside their arrays exactly when
every length announced on the way fits the array of its field. -/
theorem fieldsInside_iff_lengthsFit {buf : Region 1024} {bytes : List UInt8}
    (received : Received buf bytes) :
    TransferFieldsInside buf bytes ∧ StakingFieldsInside buf bytes ↔
      (Transfer.message .zero).Fits bytes ∧
        (Staking.message .zero).Fits bytes :=
  and_congr (transferFieldsInside_iff received)
    (stakingFieldsInside_iff received)

/-- A transfer with a recipient of 21 bytes. -/
def longRecipient : List UInt8 :=
  [0xdc, 0x80, 0x80, 0x80, 0x80, 0x80, 0x95] ++ List.replicate 21 0x11 ++
    [0x80]

/-- The recipient of 21 bytes is stored past the array of 20. -/
theorem not_fieldsInside_longRecipient :
    longRecipient.length ≤ 1020 ∧
    Received (Region.ofList longRecipient) longRecipient ∧
    ¬(TransferFieldsInside (Region.ofList longRecipient) longRecipient ∧
      StakingFieldsInside (Region.ofList longRecipient) longRecipient) := by
  have received : Received (Region.ofList longRecipient) longRecipient :=
    received_ofList (by decide)
  refine ⟨by decide, received, fun inside => ?_⟩
  have fits := (transferFieldsInside_iff received).mp inside.1
  simp [longRecipient, Transfer.message, Transfer.nonce, Transfer.gasprice,
    Transfer.gaslimit, Transfer.fromshard, Transfer.toshard,
    Transfer.destination, Fits, readHeader] at fits

/-- A claim of rewards. -/
def collectRewards : List UInt8 :=
  [0xd7, 0x04, 0xd5, 0x94] ++ List.replicate 20 0x11

/-- The fields of a claim of rewards stay inside their arrays. -/
theorem fieldsInside_collectRewards :
    TransferFieldsInside (Region.ofList collectRewards) collectRewards ∧
      StakingFieldsInside (Region.ofList collectRewards) collectRewards := by
  refine (fieldsInside_iff_lengthsFit (received_ofList (by decide))).mpr
    ⟨?_, ?_⟩
  · simp [collectRewards, Transfer.message, Transfer.nonce,
      Transfer.gasprice, Transfer.gaslimit, Fits, readHeader]
  · have directive : (putDirective 1 [4] .zero).directive =
        DirectiveCollectRewards := by decide
    simp [collectRewards, Staking.message, Staking.directive,
      Staking.stakemessage, Staking.delegatoraddr, Fits, readHeader,
      directive, DirectiveCollectRewards, Staking.NamesValidatorFirst,
      DirectiveCreateValidator, DirectiveEditValidator]

end LedgerOne
