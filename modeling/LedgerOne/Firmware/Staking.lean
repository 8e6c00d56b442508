import LedgerOne.Firmware.Ui

/-!
# Signing staking operations (`staking.c`)

The packets of a staking operation, the review on both builds and the
signature.
-/

namespace LedgerOne

/-- The number of bytes before the first zero byte, in `name` and the memory
behind it; `none` when there is no zero byte in the context. -/
def nameLength (content : TxContent) (display : Display build) :
    Except Fault Nat :=
  match (content.name.toList ++ display.strings.toList).findIdx? (· = 0) with
  | none => .error .contextOverrun
  | some length => .ok length

/-- `os_memmove` of `strlen(name)` bytes from `name`. -/
def copyName (target : Nat) (content : TxContent) (display : Display build) :
    Except Fault (Display build × Nat) := do
  let length ← nameLength content display
  let display ← display.write target
    ((content.name.toList ++ display.strings.toList).take length)
  return (display, length)

/-- A number in the scratch buffer that is shared with `hash`. -/
def writeNumberBuf (int : TxInt256) (display : Display build) :
    Except Fault (Display build) := do
  let numberBuf ← padNumber int
  display.write SignStaking.hash numberBuf

/-- `convertU256ToString` by way of the shared scratch buffer. -/
def writeStakingAmount (offset : Nat) (lengthAt : Option Nat)
    (int : TxInt256) (display : Display build) :
    Except Fault (Display build × Conversion) := do
  let display ← writeNumberBuf int display
  display.writeAmount offset lengthAt int

/-- The steps of composing a text: what is written so far and where the text
goes on, or none after an exception. -/
abbrev Composed (build : Build) := Display build × Option Nat

/-- Append a fixed text. -/
def appendText (start : Nat) (text : List UInt8) (composed : Composed build) :
    Except Fault (Composed build) :=
  match composed with
  | (display, none) => .ok (display, none)
  | (display, some offset) => do
      let display ← display.write (start + offset) text
      return (display, some (offset + text.length))

/-- Append a rate. -/
def appendRate (start : Nat) (int : TxInt256) (composed : Composed build) :
    Except Fault (Composed build) :=
  match composed with
  | (display, none) => .ok (display, none)
  | (display, some offset) => do
      match ← convertNumericDecimalToString int with
      | none => return (display, none)
      | some output =>
          let display ← display.write (start + offset) output
          return (display, some (offset + output.length))

/-- Append an amount. -/
def appendAmount (start : Nat) (int : TxInt256) (composed : Composed build) :
    Except Fault (Composed build) :=
  match composed with
  | (display, none) => .ok (display, none)
  | (display, some offset) => do
      let (display, conversion) ← writeStakingAmount (start + offset) none int
        display
      if conversion.succeeds then
        return (display, conversion.outLength.map (offset + ·))
      else return (display, none)

/-- The text of the commission rates, from `start` on. -/
def composeCommission (start : Nat) (content : TxContent)
    (display : Display build) : Except Fault (Composed build) := do
  let composed ← appendText start (ascii "rate:") (display, some 0)
  let composed ← appendRate start content.rate composed
  if content.directive = DirectiveCreateValidator then
    let composed ← appendText start (ascii ",max:") composed
    let composed ← appendRate start content.maxRate composed
    let composed ← appendText start (ascii ",change:") composed
    appendRate start content.maxChangeRate composed
  else return composed

/-- The BLS keys that are shown: at most ten, of 13 characters each. -/
def shownKeys (content : TxContent) : List UInt8 :=
  let keys := if content.blsPubKeySize > 10 then 10 else content.blsPubKeySize
  content.blsKeyStr.read 0
    (if content.directive = DirectiveCreateValidator then 13 * keys else 38)

theorem length_shownKeys (content : TxContent) :
    (shownKeys content).length ≤ 130 := by
  unfold shownKeys
  dsimp only
  rw [Region.length_read]
  split_ifs <;> omega

/-- The text of the directive, with its NUL; none for any other number. -/
def directiveText (directive : Nat) : Option (List UInt8) :=
  if directive = DirectiveCreateValidator then
    some (ascii "Create Validator" ++ [0])
  else if directive = DirectiveEditValidator then
    some (ascii "Edit Validator" ++ [0])
  else if directive = DirectiveDelegate then some (ascii "Delegate" ++ [0])
  else if directive = DirectiveUndelegate then
    some (ascii "Undelegate" ++ [0])
  else if directive = DirectiveCollectRewards then
    some (ascii "Collect Rewards" ++ [0])
  else none

/-- Whether a review names the validator first. -/
abbrev IsValidatorOperation (directive : Nat) : Prop :=
  directive = DirectiveCreateValidator ∨ directive = DirectiveEditValidator

/-- `processStaking` on the context of the device. -/
def Ctx.processStaking (ctx : Ctx build) : Except Fault (Int × Ctx build) := do
  let (code, txContext) ← LedgerOne.processStaking ctx.buf ctx.txContext
  return (code, { ctx with txContext := txContext })

section NanoS

open SignStaking

variable (env : Env) (device : Device .nanoS) (press : Press)

/-- Show an address and the window on its start. -/
def showAddress (address : Region 20) (display : Display .nanoS) :
    Except Fault (Display .nanoS) := do
  let display ← display.writeAddress fullStr address
  let display ← display.copy (partialStr .nanoS) fullStr 12
  let display ← display.write (partialStr .nanoS + 12) [0]
  return { display with displayIndex := 0 }

/-- The screens that scroll through `fullStr`, and what proceeding does. -/
def scrollFullStr (proceed : Except Fault (Outcome .nanoS)) :
    Except Fault (Outcome .nanoS) :=
  let ctx := device.ctx
  match press with
  | .seekLeft => do
      let display ← ctx.display.seekLeft (partialStr .nanoS) fullStr 12
      return device.proceed { ctx with display := display } device.screen
  | .seekRight => do
      let display ← ctx.display.seekRight
        (minusUint32 (ctx.display.getUint32 (fullStrLength .nanoS)) 12)
        (partialStr .nanoS) fullStr 12
      return device.proceed { ctx with display := display } device.screen
  | .releasedBoth => proceed
  | _ => .ok { device := device }

/-- The end of a composed text: its length and the window on its start. -/
def finishText (composed : Composed .nanoS) (screen : Screen) :
    Except Fault (Outcome .nanoS) :=
  match composed with
  | (display, none) => .ok (device.throw { device.ctx with display := display }
      env.exceptionOverflow)
  | (display, some offset) => do
      let display ← display.putUint32 (fullStrLength .nanoS) offset
      let display ← display.copy (partialStr .nanoS) fullStr 12
      return device.proceed { device.ctx with display := display } screen

/-- `ui_confirm_signing_button`. -/
def confirmSigningButton : Except Fault (Outcome .nanoS) :=
  match press with
  | .releasedLeft => .ok device.reject
  | .releasedRight => device.sign env hash
  | _ => .ok { device := device }

/-- `ui_bls_keys_button`. -/
def blsKeysButton : Except Fault (Outcome .nanoS) :=
  scrollFullStr device press (.ok (device.proceed device.ctx .confirmSigning))

/-- `ui_delegation_rate_button`. -/
def delegationRateButton : Except Fault (Outcome .nanoS) :=
  scrollFullStr device press do
    let content := device.ctx.txContent
    let display ← device.ctx.display.clear fullStr 132
    let composed ← appendText fullStr (shownKeys content) (display, some 0)
    finishText env device composed .blsKeys

/-- The start of the delegation text on the Nano S: the amount of a new
validator. -/
def composeOwnAmount (content : TxContent) (display : Display .nanoS) :
    Except Fault (Composed .nanoS) :=
  if content.directive = DirectiveCreateValidator then do
    let composed ← appendText fullStr (ascii "amount:") (display, some 0)
    let composed ← appendAmount fullStr content.value composed
    appendText fullStr (ascii ",min:") composed
  else appendText fullStr (ascii "min:") (display, some 0)

/-- The delegation text on the Nano S. -/
def composeDelegation (content : TxContent) (display : Display .nanoS) :
    Except Fault (Composed .nanoS) := do
  let composed ← composeOwnAmount content display
  let composed ← appendAmount fullStr content.minSelfDelegation composed
  let composed ← appendText fullStr (ascii ",max:") composed
  appendAmount fullStr content.maxTotalDelegation composed

/-- `ui_commission_rate_button`. -/
def commissionRateButton : Except Fault (Outcome .nanoS) :=
  scrollFullStr device press do
    let content := device.ctx.txContent
    if IsValidatorOperation content.directive then
      let display ← device.ctx.display.clear fullStr 132
      let composed ← composeDelegation content display
      finishText env device composed .delegationRate
    else return { device := device }

/-- `ui_description_compare_button`. -/
def descriptionCompareButton : Except Fault (Outcome .nanoS) :=
  scrollFullStr device press do
    let content := device.ctx.txContent
    if IsValidatorOperation content.directive then
      let display ← device.ctx.display.clear fullStr 132
      let composed ← composeCommission fullStr content display
      finishText env device composed .commissionRate
    else return { device := device }

/-- `ui_amount_compare_large_button` of `staking.c`. -/
def stakingAmountCompareLargeButton : Except Fault (Outcome .nanoS) :=
  let ctx := device.ctx
  let length := ctx.display.getUint32 (fullStrLength .nanoS)
  let count := if 12 < length then 12 else length
  match press with
  | .seekLeft => do
      let display ← ctx.display.seekLeft (partialStr .nanoS) fullStr count
      return device.proceed { ctx with display := display } device.screen
  | .seekRight => do
      let display ← ctx.display.seekRight (minusUint32 length 12)
        (partialStr .nanoS) fullStr count
      return device.proceed { ctx with display := display } device.screen
  | .releasedBoth => .ok (device.proceed ctx .confirmSigning)
  | _ => .ok { device := device }

/-- `ui_amount_compare_button` of `staking.c`. -/
def stakingAmountCompareButton : Except Fault (Outcome .nanoS) :=
  match press with
  | .releasedLeft => .ok device.reject
  | .releasedRight => .ok (device.proceed device.ctx .confirmSigning)
  | _ => .ok { device := device }

/-- `ui_validator_address_compare_button`. -/
def validatorAddressCompareButton : Except Fault (Outcome .nanoS) :=
  scrollFullStr device press do
    let ctx := device.ctx
    let content := ctx.txContent
    let display ← ctx.display.clear fullStr 132
    if IsValidatorOperation content.directive then
      let (display, length) ← copyName fullStr content display
      finishText env device (display, some length) .descriptionCompare
    else
      let (display, conversion) ← writeStakingAmount fullStr
        (some (fullStrLength .nanoS)) content.value display
      if !conversion.succeeds then
        return device.throw { ctx with display := display }
          env.exceptionOverflow
      let display := { display with displayIndex := 0 }
      let length := display.getUint32 (fullStrLength .nanoS)
      if 12 < length then
        let display ← display.copy (partialStr .nanoS) fullStr 12
        let display ← display.write (partialStr .nanoS + 12) [0]
        return device.proceed { ctx with display := display }
          .stakingAmountCompareLarge
      else
        let display ← display.copy (partialStr .nanoS) fullStr length
        let display ← display.write (partialStr .nanoS + length) [0]
        return device.proceed { ctx with display := display }
          .stakingAmountCompare

/-- `ui_delegator_address_compare_button`. -/
def delegatorAddressCompareButton : Except Fault (Outcome .nanoS) :=
  scrollFullStr device press do
    let ctx := device.ctx
    let display ← ctx.display.clear fullStr 132
    if ctx.txContent.directive = DirectiveCollectRewards then
      return device.proceed { ctx with display := display } .confirmSigning
    else
      let display ← showAddress ctx.txContent.validatorAddress display
      return device.proceed { ctx with display := display }
        .validatorAddressCompare

/-- `ui_signStaking_approve_button`. -/
def signStakingApproveButton : Except Fault (Outcome .nanoS) :=
  match press with
  | .releasedLeft => .ok device.reject
  | .releasedRight => do
      let ctx := device.ctx
      let content := ctx.txContent
      let display ← ctx.display.clear fullStr 132
      let display ← display.putUint32 (fullStrLength .nanoS) MAX_ONE_ADDRESS
      if IsValidatorOperation content.directive then
        let display ← showAddress content.validatorAddress display
        return device.proceed { ctx with display := display }
          .validatorAddressCompare
      else
        let display ← showAddress content.destination display
        return device.proceed { ctx with display := display }
          .delegatorAddressCompare
  | _ => .ok { device := device }

/-- The line below the directive on the Nano S; 15 is the size of
"Status:Inactive". -/
def showStatusNanoS (content : TxContent) (display : Display .nanoS) :
    Except Fault (Display .nanoS) :=
  if content.directive = DirectiveEditValidator then
    display.write fullStr (content.destination.read 0 15)
  else display.clear fullStr 132

/-- The end of `handleSignStaking` on the Nano S. -/
def reviewStakingNanoS (ctx : Ctx .nanoS) : Except Fault (Outcome .nanoS) := do
  let display ← showStatusNanoS ctx.txContent ctx.display
  return device.proceed { ctx with display := display } .signStakingApprove

end NanoS

section NanoX

open SignStaking

/-- The callbacks of the staking flows. -/
def stakingFlowStep (env : Env) (device : Device .nanoX) (press : Press) :
    Except Fault (Outcome .nanoX) :=
  match press with
  | .accept => device.sign env hash
  | .cancel => .ok device.reject
  | _ => .ok { device := device }

/-- The amount of a new validator. -/
def showOwnAmount (content : TxContent) (display : Display .nanoX) :
    Except Fault (Composed .nanoX) :=
  if content.directive = DirectiveCreateValidator then do
    let (display, conversion) ← writeStakingAmount amountStr
      (some (fullStrLength .nanoX)) content.value display
    return (display, if conversion.succeeds then some 0 else none)
  else .ok (display, some 0)

/-- The strings of an operation on a validator; none after an exception. -/
def composeValidatorNanoX (content : TxContent) (display : Display .nanoX) :
    Except Fault (Composed .nanoX) := do
  let display ← display.writeAddress validatorAddr content.validatorAddress
  let display ← display.clear commissionRateStr 132
  let (display, commission) ←
    composeCommission commissionRateStr content display
  if commission = none then return (display, none)
  let (display, amount) ← showOwnAmount content display
  if amount = none then return (display, none)
  let composed ← appendText delegationStr (ascii "min:") (display, some 0)
  let composed ← appendAmount delegationStr content.minSelfDelegation composed
  let composed ← appendText delegationStr (ascii ",max:") composed
  let (display, delegation) ←
    appendAmount delegationStr content.maxTotalDelegation composed
  if delegation = none then return (display, none)
  let display ← display.clear fullStr 132
  let display ← display.write fullStr (shownKeys content)
  return (display, some 0)

/-- The strings of an operation on a delegation; none after an exception. -/
def composeDelegatorNanoX (content : TxContent) (display : Display .nanoX) :
    Except Fault (Composed .nanoX) := do
  let display ← display.writeAddress delegatorAddr content.destination
  if content.directive = DirectiveCollectRewards then
    return (display, some 0)
  let display ← display.writeAddress validatorAddr content.validatorAddress
  let (display, conversion) ← writeStakingAmount amountStr
    (some (fullStrLength .nanoX)) content.value display
  return (display, if conversion.succeeds then some 0 else none)

/-- The strings of either kind of operation. -/
def composeNanoX (content : TxContent) (display : Display .nanoX) :
    Except Fault (Composed .nanoX) :=
  if IsValidatorOperation content.directive then
    composeValidatorNanoX content display
  else composeDelegatorNanoX content display

/-- The name, or "null" for the empty one. -/
def showName (content : TxContent) (display : Display .nanoX) :
    Except Fault (Display .nanoX) := do
  let length ← nameLength content display
  if length = 0 then display.write nameStr (ascii "null")
  else
    let (display, _) ← copyName nameStr content display
    return display

/-- The text of the EPoS status on the Nano X. -/
def statusStrText (status : Nat) : List UInt8 :=
  if status = 0 then ascii "Same"
  else if status = 1 then ascii "Active"
  else ascii "Inactive"

/-- The EPoS status. -/
def showStatusNanoX (content : TxContent) (display : Display .nanoX) :
    Except Fault (Display .nanoX) :=
  if content.directive = DirectiveEditValidator then
    display.write statusStr (statusStrText content.fromShard)
  else .ok display

/-- The flow of a directive. -/
def flowOf (directive : Nat) : StakingFlow :=
  if directive = DirectiveCreateValidator then .createValidator
  else if directive = DirectiveEditValidator then .editValidator
  else if directive = DirectiveCollectRewards then .collectRewards
  else .delegate

/-- The end of `handleSignStaking` on the Nano X. -/
def reviewStakingNanoX (env : Env) (device : Device .nanoX)
    (ctx : Ctx .nanoX) : Except Fault (Outcome .nanoX) := do
  let content := ctx.txContent
  let display ← ctx.display.clear fullStr 132
  let (display, composed) ← composeNanoX content display
  if composed = none then
    return device.throw { ctx with display := display } env.exceptionOverflow
  let display ← showName content display
  let display ← showStatusNanoX content display
  return device.proceed { ctx with display := display }
    (.stakingFlow (flowOf content.directive))

end NanoX

/-- The end of `handleSignStaking`. -/
def reviewStaking (env : Env) :
    (build : Build) -> Device build -> Ctx build ->
      Except Fault (Outcome build)
  | .nanoS, device, ctx => reviewStakingNanoS device ctx
  | .nanoX, device, ctx => reviewStakingNanoX env device ctx

/-- What `handleSignStaking` does with a finished message. -/
def parseStaking (env : Env) (device : Device build) (ctx : Ctx build) :
    Except Fault (Outcome build) := do
  let (code, ctx) ← ctx.processStaking
  if code ≠ 0 then return device.throw ctx env.invalidParameter
  match directiveText ctx.txContent.directive with
  | none => return device.throw ctx env.invalidParameter
  | some text =>
      let display ← ctx.display.write (SignStaking.partialStr build) text
      reviewStaking env build device { ctx with display := display }

/-- `handleSignStaking`. -/
def handleSignStaking (env : Env) (p1 p2 : UInt8) (data : List UInt8)
    (device : Device build) : Except Fault (Outcome build) :=
  match collectPacket env (SignStaking.size build)
      (SignStaking.initialized build) p1 p2 data device.ctx with
  | .thrown ctx code => .ok (device.throw ctx code)
  | .finished ctx => parseStaking env device { ctx with
      txContext := { ctx.txContext with stakeCurrentField := .content } }

end LedgerOne
