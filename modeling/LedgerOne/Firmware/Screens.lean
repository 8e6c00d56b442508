import LedgerOne.Firmware.Ui

/-!
# What the screens show

The texts of every screen: those written in the tables of the source and those
of the command context.  On the Nano X a screen is a whole flow, which the user
pages through.
-/

namespace LedgerOne

/-- The screens of a review that ends with a signature. -/
def Screen.signs : Screen -> Bool
  | .idle => false
  | .getPublicKeyApprove => false
  | .getPublicKeyCompare => false
  | .displayPublicFlow => false
  | _ => true

/-- The screens of the Nano S on which a press writes into the buffer. -/
def Screen.comparesAddress : Screen -> Bool
  | .getPublicKeyApprove => true
  | .getPublicKeyCompare => true
  | _ => false

/-- The C string at an offset of the buffer. -/
def Ctx.bufText (offset : Nat) (ctx : Ctx build) : List UInt8 :=
  (ctx.buf.toList.drop offset).takeWhile (· ≠ 0)

/-- The last two steps of a staking flow. -/
def stakingDecision : List (List UInt8) := [ascii "Approve", ascii "Reject"]

section StakingFlow

open SignStaking

variable (display : Display build)

/-- A page of a flow. -/
def Display.page (title : String) (offset : Nat) : List (List UInt8) :=
  [ascii title, display.text offset]

/-- The steps 1 and 2 of the staking flows. -/
def Display.stakingStart : List (List UInt8) :=
  [ascii "Verify", ascii "Staking"] ++
    display.page "Directive" (partialStr build)

/-- The steps 8, 4, 9, 10 and 11 of the staking flows. -/
def Display.validatorPages : List (List UInt8) :=
  display.page "Description" nameStr ++
    display.page "ValidatorAddress" validatorAddr ++
    display.page "CommissionRate" commissionRateStr ++
    display.page "Delegation" delegationStr ++
    display.page "BlsKey" fullStr

/-- `ux_staking_create_valiator_flow` and the other three flows. -/
def Display.stakingFlow : StakingFlow -> List (List UInt8)
  | .createValidator => display.stakingStart ++ display.validatorPages ++
      display.page "Amount" amountStr ++ stakingDecision
  | .editValidator => display.stakingStart ++ display.validatorPages ++
      display.page "EposStatus" statusStr ++ stakingDecision
  | .delegate => display.stakingStart ++
      display.page "DelegatorAddress" delegatorAddr ++
      display.page "ValidatorAddress" validatorAddr ++
      display.page "Amount" amountStr ++ stakingDecision
  | .collectRewards => display.stakingStart ++
      display.page "DelegatorAddress" delegatorAddr ++ stakingDecision

/-- `ux_approval_tx_flow`. -/
def Display.approvalTxFlow : List (List UInt8) :=
  [ascii "Review", ascii "Transaction"] ++
    display.page "Amount" SignTxn.amountStr ++
    display.page "Address" SignTxn.toAddr ++
    display.page "Shard" SignTxn.shardStr ++
    [ascii "Accept", ascii "and send", ascii "Reject"]

end StakingFlow

/-- The texts of a screen; none on the main menu, which shows nothing of a
command. -/
def Ctx.shown (ctx : Ctx build) : Screen -> List (List UInt8)
  | .idle => []
  | .getPublicKeyApprove => [ctx.bufText GetPublicKey.typeStr]
  | .getPublicKeyCompare =>
      [ascii "Compare:", ctx.bufText GetPublicKey.partialStr]
  | .displayPublicFlow => [ascii "Verify", ascii "address", ascii "Address",
      ctx.bufText GetPublicKey.fullStr, ascii "Approve", ascii "Reject"]
  | .signTxApprove => [ctx.display.text SignTxn.typeStr]
  | .addressCompare =>
      ctx.display.page "Send to Addr:" SignTxn.partialAddrStr
  | .amountCompareLarge | .amountCompare =>
      ctx.display.page "Amount:" SignTxn.partialAmountStr
  | .fromshardApprove => ctx.display.page "Shard:" SignTxn.shardStr
  | .txApprove => [ascii "Sign Transaction?"]
  | .approvalTxFlow => ctx.display.approvalTxFlow
  | .signStakingApprove =>
      [ctx.display.text (SignStaking.partialStr build),
        ctx.display.text SignStaking.fullStr]
  | .delegatorAddressCompare =>
      ctx.display.page "Delegator Address:" (SignStaking.partialStr build)
  | .validatorAddressCompare =>
      ctx.display.page "Validator Address:" (SignStaking.partialStr build)
  | .stakingAmountCompareLarge | .stakingAmountCompare =>
      ctx.display.page "Amount:" (SignStaking.partialStr build)
  | .descriptionCompare =>
      ctx.display.page "Name" (SignStaking.partialStr build)
  | .commissionRate =>
      ctx.display.page "Commission" (SignStaking.partialStr build)
  | .delegationRate =>
      ctx.display.page "Delegation" (SignStaking.partialStr build)
  | .blsKeys => ctx.display.page "BLS Keys" (SignStaking.partialStr build)
  | .confirmSigning => [ascii "Sign Stake?"]
  | .stakingFlow flow => ctx.display.stakingFlow flow

/-- What the screen shows. -/
def Device.shown (device : Device build) : List (List UInt8) :=
  device.ctx.shown device.screen

end LedgerOne
