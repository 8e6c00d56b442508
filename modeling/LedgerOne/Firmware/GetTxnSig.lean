import LedgerOne.Firmware.Ui

/-!
# Signing transfers (`getTxnSig.c`)

The packets of a transfer, the review on both builds and the signature.
-/

namespace LedgerOne

/-- The text of `printf`'s `%d` for a `uint32_t`. -/
def decimalText (value : Nat) : List UInt8 :=
  if value < 2 ^ 31 then decimalDigits value
  else ascii "-" ++ decimalDigits (2 ^ 32 - value)

/-- `assign_shard_string`. -/
def assignShardString (content : TxContent) (display : Display build) :
    Except Fault (Display build) :=
  let text := ascii "from:" ++ decimalText content.fromShard ++ ascii " to:" ++
    decimalText content.toShard
  display.write SignTxn.shardStr (text.take 63 ++ [0])

/-- `processTx` on the context of the device. -/
def Ctx.processTx (ctx : Ctx build) : Except Fault (Int × Ctx build) := do
  let (code, txContext) ← LedgerOne.processTx ctx.buf ctx.txContext
  return (code, { ctx with txContext := txContext })

section NanoS

variable (env : Env) (device : Device .nanoS) (press : Press)

/-- `ui_signTx_approve_button`; the result of `processTx` is not looked at. -/
def signTxApproveButton : Except Fault (Outcome .nanoS) :=
  match press with
  | .releasedLeft => .ok device.reject
  | .releasedRight => do
      let (_, ctx) ← device.ctx.processTx
      let display ← ctx.display.writeAddress SignTxn.toAddr
        ctx.txContent.destination
      let display ← display.copy SignTxn.partialAddrStr SignTxn.toAddr 12
      let display ← display.write (SignTxn.partialAddrStr + 12) [0]
      return device.proceed
        { ctx with display := { display with displayIndex := 0 } }
        .addressCompare
  | _ => .ok { device := device }

/-- The scrolling of the address. -/
def addressCompareButton : Except Fault (Outcome .nanoS) :=
  let ctx := device.ctx
  match press with
  | .seekLeft => do
      let display ← ctx.display.seekLeft SignTxn.partialAddrStr
        SignTxn.toAddr 12
      return device.proceed { ctx with display := display } device.screen
  | .seekRight => do
      let display ← ctx.display.seekRight (MAX_ONE_ADDRESS - 12)
        SignTxn.partialAddrStr SignTxn.toAddr 12
      return device.proceed { ctx with display := display } device.screen
  | .releasedBoth => do
      let (display, conversion) ← ctx.display.writeAmount SignTxn.amountStr
        (some SignTxn.amountLength) ctx.txContent.value
      if !conversion.succeeds then
        return device.throw { ctx with display := display }
          env.exceptionOverflow
      let display := { display with displayIndex := 0 }
      let amountLength := display.getUint32 SignTxn.amountLength
      if 12 < amountLength then
        let display ← display.copy SignTxn.partialAmountStr SignTxn.amountStr
          12
        let display ← display.write (SignTxn.partialAmountStr + 12) [0]
        return device.proceed { ctx with display := display }
          .amountCompareLarge
      else
        let display ← display.copy SignTxn.partialAmountStr SignTxn.amountStr
          amountLength
        let display ← display.write (SignTxn.partialAmountStr + amountLength)
          [0]
        return device.proceed { ctx with display := display } .amountCompare
  | _ => .ok { device := device }

/-- `ui_amount_compare_large_button`. -/
def amountCompareLargeButton : Except Fault (Outcome .nanoS) :=
  let ctx := device.ctx
  let amountLength := ctx.display.getUint32 SignTxn.amountLength
  let count := if 12 < amountLength then 12 else amountLength
  match press with
  | .seekLeft => do
      let display ← ctx.display.seekLeft SignTxn.partialAmountStr
        SignTxn.amountStr count
      return device.proceed { ctx with display := display } device.screen
  | .seekRight => do
      let display ← ctx.display.seekRight (minusUint32 amountLength 12)
        SignTxn.partialAmountStr SignTxn.amountStr count
      return device.proceed { ctx with display := display } device.screen
  | .releasedBoth => do
      let display ← assignShardString ctx.txContent ctx.display
      return device.proceed { ctx with display := display } .fromshardApprove
  | _ => .ok { device := device }

/-- `ui_amount_compare_button`. -/
def amountCompareButton : Except Fault (Outcome .nanoS) :=
  match press with
  | .releasedLeft => .ok device.reject
  | .releasedRight => do
      let display ← assignShardString device.ctx.txContent device.ctx.display
      return device.proceed { device.ctx with display := display }
        .fromshardApprove
  | _ => .ok { device := device }

/-- `ui_fromshard_approve_button`. -/
def fromshardApproveButton : Except Fault (Outcome .nanoS) :=
  match press with
  | .releasedLeft => .ok device.reject
  | .releasedRight => .ok (device.proceed device.ctx .txApprove)
  | _ => .ok { device := device }

/-- `ui_tx_approve_button`. -/
def txApproveButton : Except Fault (Outcome .nanoS) :=
  match press with
  | .releasedLeft => .ok device.reject
  | .releasedRight => device.sign env SignTxn.hash
  | _ => .ok { device := device }

end NanoS

/-- The callbacks of `ux_approval_tx_flow`. -/
def approvalTxFlowStep (env : Env) (device : Device .nanoX) (press : Press) :
    Except Fault (Outcome .nanoX) :=
  match press with
  | .accept => device.sign env SignTxn.hash
  | .cancel => .ok device.reject
  | _ => .ok { device := device }

/-- What `handleSignTx` does with a finished message on the Nano X; the result
of `processTx` is not looked at. -/
def reviewTxNanoX (env : Env) (device : Device .nanoX) (ctx : Ctx .nanoX) :
    Except Fault (Outcome .nanoX) := do
  let (_, ctx) ← ctx.processTx
  let display ← ctx.display.writeAddress SignTxn.toAddr
    ctx.txContent.destination
  let (display, conversion) ← display.writeAmount SignTxn.amountStr
    (some SignTxn.amountLength) ctx.txContent.value
  if !conversion.succeeds then
    return device.throw { ctx with display := display } env.exceptionOverflow
  let display ← assignShardString ctx.txContent display
  return device.proceed { ctx with display := display } .approvalTxFlow

/-- What `handleSignTx` does with a finished message. -/
def reviewTx (env : Env) :
    (build : Build) -> Device build -> Ctx build ->
      Except Fault (Outcome build)
  | .nanoS, device, ctx => do
      let display ← ctx.display.write SignTxn.typeStr
        (ascii "Review Transaction?")
      return device.proceed { ctx with display := display } .signTxApprove
  | .nanoX, device, ctx => reviewTxNanoX env device ctx

/-- `handleSignTx`. -/
def handleSignTx (env : Env) (p1 p2 : UInt8) (data : List UInt8)
    (device : Device build) : Except Fault (Outcome build) :=
  match collectPacket env SignTxn.size SignTxn.initialized p1 p2 data
      device.ctx with
  | .thrown ctx code => .ok (device.throw ctx code)
  | .finished ctx => reviewTx env build device { ctx with
      txContext := { ctx.txContext with txCurrentField := .content } }

end LedgerOne
