import LedgerOne.Lib.Loop
import LedgerOne.Firmware.Memory
import LedgerOne.Firmware.Uint256

/-!
# The streaming RLP parsers (`rlp.c`)

The field handlers and the two main loops, `processTx` and `processStaking`,
as the source computes them.  `buf` is the receive buffer behind
`workBuffer`.  A handler that stores names the address of its destination in
the content; the `Memory` decides what becomes of bytes past an array.
-/

namespace LedgerOne

/-- `rlpCanDecode`: `none` while more header bytes are needed, otherwise
whether the header is valid. -/
def rlpCanDecode (buffer : Region 5) (bufferLength : Nat) : Option Bool :=
  let first := (buffer.get 0).toNat
  if first ≤ 0x7f then some true
  else if first ≤ 0xb7 then some true
  else if first ≤ 0xbf then
    if bufferLength < 1 + (first - 0xb7) then none
    else if 0xbb < first then some false
    else some true
  else if first ≤ 0xf7 then some true
  else if bufferLength < 1 + (first - 0xf7) then none
  else if 0xfb < first then some false
  else some true

/-- A decoded header: `fieldLength`, `offset` and `list`. -/
structure DecodedLength where
  fieldLength : Nat
  offset : Nat
  list : Bool

/-- `rlpDecodeLength`.  The shifts are done on `int` and stored in a
`uint32_t`. -/
def rlpDecodeLength (buffer : Region 5) : Option DecodedLength :=
  let byte := fun index => (buffer.get index).toNat
  let first := byte 0
  let two := (byte 1 * 2 ^ 8 + byte 2) % 2 ^ 32
  let three := (byte 1 * 2 ^ 16 + byte 2 * 2 ^ 8 + byte 3) % 2 ^ 32
  let four :=
    (byte 1 * 2 ^ 24 + byte 2 * 2 ^ 16 + byte 3 * 2 ^ 8 + byte 4) % 2 ^ 32
  if first ≤ 0x7f then some ⟨1, 0, false⟩
  else if first ≤ 0xb7 then some ⟨first - 0x80, 1, false⟩
  else if first ≤ 0xbf then
    match first with
    | 0xb8 => some ⟨byte 1, 1 + (first - 0xb7), false⟩
    | 0xb9 => some ⟨two, 1 + (first - 0xb7), false⟩
    | 0xba => some ⟨three, 1 + (first - 0xb7), false⟩
    | 0xbb => some ⟨four, 1 + (first - 0xb7), false⟩
    | _ => none
  else if first ≤ 0xf7 then some ⟨first - 0xc0, 1, true⟩
  else
    match first with
    | 0xf8 => some ⟨byte 1, 1 + (first - 0xf7), true⟩
    | 0xf9 => some ⟨two, 1 + (first - 0xf7), true⟩
    | 0xfa => some ⟨three, 1 + (first - 0xf7), true⟩
    | 0xfb => some ⟨four, 1 + (first - 0xf7), true⟩
    | _ => none

/-- `readTxByte`. -/
def readTxByte (buf : Region 1024) (context : TxContext) :
    Except Fault (UInt8 × TxContext) :=
  match context.workBuffer with
  | none => .error .nullRead
  | some position =>
      if position < 1024 then
        .ok (buf.get position,
          { context with
            workBuffer := some (position + 1)
            commandLength := context.commandLength - 1
            currentFieldPos :=
              if context.processingField then context.currentFieldPos + 1
              else context.currentFieldPos })
      else .error .readPastBuffer

/-- How a field handler stores a run of bytes in the content; `none` stands
for a store that leaves the memory it may write to. -/
abbrev Store := List UInt8 -> TxContent -> Option TxContent

/-- Store at an address of the content: in the array that starts there, or in
the whole of its memory. -/
def storeAt [memory : Memory] (address : Nat) (array : Store) : Store :=
  match memory.behind with
  | none => array
  | some behind => TxContent.poke? behind address

/-- `copyTxData`; no store is the null `out` pointer. -/
def copyTxData (buf : Region 1024) (context : TxContext)
    (out : Option Store) (length : Nat) : Except Fault TxContext :=
  match context.workBuffer with
  | none => .error .nullRead
  | some position =>
      let moved := { context with
        workBuffer := some (position + length)
        commandLength := context.commandLength - length
        currentFieldPos :=
          if context.processingField then context.currentFieldPos + length
          else context.currentFieldPos }
      match out with
      | none => .ok moved
      | some store =>
          match buf.read? position length with
          | none => .error .readPastBuffer
          | some bytes =>
              match store bytes context.content with
              | none => .error .fieldOverrun
              | some content => .ok { moved with content := content }

/-- The number of bytes a handler copies in one go. -/
def TxContext.copySize (context : TxContext) : Nat :=
  if context.commandLength <
      context.currentFieldLength - context.currentFieldPos then
    context.commandLength
  else context.currentFieldLength - context.currentFieldPos

/-- The first half of every field handler: copy what there is of the field. -/
def copyField (buf : Region 1024) (out : Option Store)
    (context : TxContext) : Except Fault TxContext :=
  if context.currentFieldPos < context.currentFieldLength then
    copyTxData buf context out context.copySize
  else .ok context

/-- The second half: when the field is complete, record it and advance. -/
def finishField (record : TxContext -> TxContext) (context : TxContext) :
    TxContext :=
  if context.currentFieldPos = context.currentFieldLength then
    { record context with processingField := false }
  else context

/-- Advance both field enumerations. -/
def advanceBoth (context : TxContext) : TxContext :=
  { context with
    txCurrentField := context.txCurrentField.next
    stakeCurrentField := context.stakeCurrentField.next }

/-- `processContent`. -/
def processContent (context : TxContext) : TxContext :=
  { advanceBoth context with
    dataLength := context.currentFieldLength
    processingField := false }

/-- `processNonce`. -/
def processNonce (buf : Region 1024) (context : TxContext) :
    Except Fault TxContext := do
  let copied ← copyField buf none context
  return finishField advanceBoth copied

/-- Store bytes in one of the `txInt256_t` fields of the content. -/
def storeInt256 [Memory] (address : Nat) (get : TxContent -> TxInt256)
    (set : TxInt256 -> TxContent -> TxContent) (position : Nat) : Store :=
  storeAt (address + position) fun bytes content =>
    ((get content).value.write? position bytes).map fun value =>
      set { get content with value := value } content

/-- `processGas` and `processValue`, which are the same code: a 32-byte
integer with its length.  The length is stored in a `uint8_t`. -/
def processInt256 [Memory] (buf : Region 1024) (address : Nat)
    (get : TxContent -> TxInt256) (set : TxInt256 -> TxContent -> TxContent)
    (context : TxContext) : Except Fault TxContext := do
  let copied ← copyField buf
    (some (storeInt256 address get set context.currentFieldPos)) context
  return finishField (fun complete =>
    advanceBoth { complete with
      content := set { get complete.content with
        length := UInt8.ofNat complete.currentFieldLength } complete.content })
    copied

/-- `processGas` on `gasprice`. -/
def processGasPrice [Memory] (buf : Region 1024) :
    TxContext -> Except Fault TxContext :=
  processInt256 buf 0 TxContent.gasprice
    fun int content => { content with gasprice := int }

/-- `processGas` on `startgas`. -/
def processStartGas [Memory] (buf : Region 1024) :
    TxContext -> Except Fault TxContext :=
  processInt256 buf 33 TxContent.startgas
    fun int content => { content with startgas := int }

/-- `processValue` on `value`. -/
def processValue [Memory] (buf : Region 1024) :
    TxContext -> Except Fault TxContext :=
  processInt256 buf 66 TxContent.value
    fun int content => { content with value := int }

/-- `processValue` on `rate`. -/
def processRate [Memory] (buf : Region 1024) :
    TxContext -> Except Fault TxContext :=
  processInt256 buf 99 TxContent.rate
    fun int content => { content with rate := int }

/-- `processValue` on `maxRate`. -/
def processMaxRate [Memory] (buf : Region 1024) :
    TxContext -> Except Fault TxContext :=
  processInt256 buf 132 TxContent.maxRate
    fun int content => { content with maxRate := int }

/-- `processValue` on `maxChangeRate`. -/
def processMaxChangeRate [Memory] (buf : Region 1024) :
    TxContext -> Except Fault TxContext :=
  processInt256 buf 165 TxContent.maxChangeRate
    fun int content => { content with maxChangeRate := int }

/-- `processValue` on `minSelfDelegation`. -/
def processMinSelfDelegation [Memory] (buf : Region 1024) :
    TxContext -> Except Fault TxContext :=
  processInt256 buf 198 TxContent.minSelfDelegation
    fun int content => { content with minSelfDelegation := int }

/-- `processValue` on `maxTotalDelegation`. -/
def processMaxTotalDelegation [Memory] (buf : Region 1024) :
    TxContext -> Except Fault TxContext :=
  processInt256 buf 231 TxContent.maxTotalDelegation
    fun int content => { content with maxTotalDelegation := int }

/-- The store of `processDirective`: the bytes of the `uint32_t`, from its
first one on. -/
def storeDirective [Memory] (position : Nat) : Store :=
  storeAt (272 + position) fun bytes content =>
    ((uint32Bytes content.directive).write? position bytes).map fun memory =>
      { content with directive := uint32OfBytes memory }

/-- `processDirective`. -/
def processDirective [Memory] (buf : Region 1024) (context : TxContext) :
    Except Fault TxContext := do
  let copied ← copyField buf
    (some (storeDirective context.currentFieldPos)) context
  return finishField (fun complete =>
    { complete with stakeCurrentField := complete.stakeCurrentField.next })
    copied

/-- `processStakingMessage`. -/
def processStakingMessage (context : TxContext) : TxContext :=
  { context with
    stakeCurrentField :=
      if context.content.directive = DirectiveCreateValidator ∨
          context.content.directive = DirectiveEditValidator then
        .validatoraddr
      else .delegatoraddr
    processingField := false }

/-- The loop of `processShard` that turns bytes around. -/
def shardFromBytes (bytes : List UInt8) : Nat :=
  bytes.foldl
    (fun shardId byte => (shardId * 2 ^ 8) % 2 ^ 32 ||| byte.toNat) 0

/-- The store of `processShard` and the conversion that follows it, of as many
bytes from the shard's first one on as were copied.  The destination is
`shard + currentFieldPos` on a `uint32_t` pointer, four bytes for each
position. -/
def storeShard [memory : Memory] (address : Nat) (get : TxContent -> Nat)
    (set : Nat -> TxContent -> TxContent) (position : Nat) : Store :=
  fun bytes content =>
    match memory.behind with
    | none =>
        ((uint32Bytes (get content)).write? (4 * position) bytes).map
          fun memory =>
            set (shardFromBytes (memory.read 0 bytes.length)) content
    | some behind =>
        -- A whole message is parsed at once, and every shard from its start.
        if position = 0 then
          (content.poke? behind address bytes).map
            (set (shardFromBytes bytes))
        else none

/-- `processShard`; it advances the transfer enumeration only. -/
def processShard [Memory] (buf : Region 1024) (address : Nat)
    (get : TxContent -> Nat) (set : Nat -> TxContent -> TxContent)
    (context : TxContext) : Except Fault TxContext := do
  let copied ← copyField buf
    (some (storeShard address get set context.currentFieldPos)) context
  return finishField (fun complete =>
    { complete with txCurrentField := complete.txCurrentField.next }) copied

/-- `processShard` on `fromShard`. -/
def processFromShard [Memory] (buf : Region 1024) :
    TxContext -> Except Fault TxContext :=
  processShard buf 264 TxContent.fromShard
    fun shard content => { content with fromShard := shard }

/-- `processShard` on `toShard`. -/
def processToShard [Memory] (buf : Region 1024) :
    TxContext -> Except Fault TxContext :=
  processShard buf 268 TxContent.toShard
    fun shard content => { content with toShard := shard }

/-- Store bytes in one of the byte arrays of the content. -/
def storeBytes [Memory] (address : Nat) (get : TxContent -> Region size)
    (set : Region size -> TxContent -> TxContent) (position : Nat) : Store :=
  storeAt (address + position) fun bytes content =>
    ((get content).write? position bytes).map fun value => set value content

/-- `processAddress` and `processString` with a destination, which are the
same code. -/
def processBytes [Memory] (buf : Region 1024) (address : Nat)
    (get : TxContent -> Region size)
    (set : Region size -> TxContent -> TxContent) (context : TxContext) :
    Except Fault TxContext := do
  let copied ← copyField buf
    (some (storeBytes address get set context.currentFieldPos)) context
  return finishField advanceBoth copied

/-- `processAddress` on `destination`. -/
def processDestination [Memory] (buf : Region 1024) :
    TxContext -> Except Fault TxContext :=
  processBytes buf 276 TxContent.destination
    fun bytes content => { content with destination := bytes }

/-- `processAddress` on `validatorAddress`. -/
def processValidatorAddress [Memory] (buf : Region 1024) :
    TxContext -> Except Fault TxContext :=
  processBytes buf 296 TxContent.validatorAddress
    fun bytes content => { content with validatorAddress := bytes }

/-- `processString` on `name`; its `length` argument is not used. -/
def processName [Memory] (buf : Region 1024) :
    TxContext -> Except Fault TxContext :=
  processBytes buf 498 TxContent.name
    fun bytes content => { content with name := bytes }

/-- `processString` without a destination. -/
def processSkippedString (buf : Region 1024) (context : TxContext) :
    Except Fault TxContext := do
  let copied ← copyField buf none context
  return finishField advanceBoth copied

/-- `processDecimal`. -/
def processDecimal (context : TxContext) : TxContext :=
  { context with
    stakeCurrentField := context.stakeCurrentField.next
    processingField := false }

/-- `processBlsData`; it advances the staking enumeration only. -/
def processBlsData (buf : Region 1024) (out : Option Store)
    (context : TxContext) : Except Fault TxContext := do
  let copied ← copyField buf out context
  return finishField (fun complete =>
    { complete with stakeCurrentField := complete.stakeCurrentField.next })
    copied

/-- The destination `content->blsPubKey`. -/
def storeBlsPubKey [Memory] (position : Nat) : Store :=
  storeBytes 316 TxContent.blsPubKey
    (fun bytes content => { content with blsPubKey := bytes }) position

/-! ## The header phase, shared by both main loops -/

/-- One round of the loop that feeds `rlpBuffer`; it leaves with a return code
or, without one, with a header that can be decoded. -/
def feedHeader (buf : Region 1024) :
    Body Fault TxContext (Option Int × TxContext) := fun context =>
  if context.commandLength = 0 then .ok (.exit (some 1, context))
  else
    match readTxByte buf context with
    | .error fault => .error fault
    | .ok (data, read) =>
        if context.rlpBufferPos < 5 then
          let fed := { read with
            rlpBuffer := read.rlpBuffer.splice context.rlpBufferPos [data]
            rlpBufferPos := context.rlpBufferPos + 1 }
          match rlpCanDecode fed.rlpBuffer fed.rlpBufferPos with
          | some valid =>
              if valid then .ok (.exit (none, fed))
              else .ok (.exit (some (-1), fed))
          | none =>
              if fed.rlpBufferPos = 5 then .ok (.exit (some (-1), fed))
              else .ok (.again fed)
        else .error .headerOverrun

/-- The part of a main loop that decodes the header of the next field. -/
def readFieldHeader (buf : Region 1024) (context : TxContext) :
    Except Fault (Option Int × TxContext) :=
  match (feedHeader buf).run (context.commandLength + 1) context with
  | none => .error .outOfRounds
  | some (.error fault) => .error fault
  | some (.ok (some code, fed)) => .ok (some code, fed)
  | some (.ok (none, fed)) =>
      match rlpDecodeLength fed.rlpBuffer with
      | none => .ok (some (-1), fed)
      | some decoded =>
          let ready := { fed with
            currentFieldLength := decoded.fieldLength
            currentFieldIsList := decoded.list
            currentFieldPos := 0
            rlpBufferPos := 0
            processingField := true }
          if decoded.offset = 0 then
            .ok (none, { ready with
              workBuffer := ready.workBuffer.map (· - 1)
              commandLength := ready.commandLength + 1
              fieldSingleByte := true })
          else .ok (none, { ready with fieldSingleByte := false })

/-- The head of both main loops, up to the `switch`: leave with a code, or
reach the `switch` with a decoded header. -/
def beforeSwitch (buf : Region 1024) (done : Bool) (context : TxContext) :
    Except Fault (Option Int × TxContext) :=
  if done then .ok (some 0, context)
  else if context.commandLength = 0 then .ok (some 1, context)
  else if context.processingField then .ok (none, context)
  else readFieldHeader buf context

/-- A main loop from its `switch`. -/
def mainLoop (buf : Region 1024) (done : TxContext -> Bool)
    (handle : Body Fault TxContext (Int × TxContext)) :
    Body Fault TxContext (Int × TxContext) := fun context =>
  match beforeSwitch buf (done context) context with
  | .error fault => .error fault
  | .ok (some code, reached) => .ok (.exit (code, reached))
  | .ok (none, ready) => handle ready

/-- Run a main loop.  The bound is larger than the number of rounds any
reachable context can take. -/
def runParser (body : Body Fault TxContext (Int × TxContext))
    (context : TxContext) : Except Fault (Int × TxContext) :=
  match body.run (context.commandLength + 64) context with
  | none => .error .outOfRounds
  | some result => result

/-! ## Transfers -/

/-- A handler after which the loop goes round again. -/
def continueWith (handled : Except Fault TxContext) :
    Except Fault (Flow TxContext (Int × TxContext)) :=
  handled.map .again

/-- The `switch` of `processTx`. -/
def handleTxField [Memory] (buf : Region 1024) :
    Body Fault TxContext (Int × TxContext) := fun context =>
  match context.txCurrentField with
  | .content => .ok (.again (processContent context))
  | .nonce => continueWith (processNonce buf context)
  | .gasprice => continueWith (processGasPrice buf context)
  | .gaslimit => continueWith (processStartGas buf context)
  | .fromshard => continueWith (processFromShard buf context)
  | .toshard => continueWith (processToShard buf context)
  | .to => continueWith (processDestination buf context)
  | .amount => (processValue buf context).map fun handled =>
      .exit (0, handled)
  | _ => .ok (.exit (-1, context))

/-- One round of `processTx`. -/
def processTxRound [Memory] (buf : Region 1024) :
    Body Fault TxContext (Int × TxContext) :=
  mainLoop buf (fun context => context.txCurrentField = .done)
    (handleTxField buf)

/-- `processTx`: the return code and the context it leaves. -/
def processTx [Memory] (buf : Region 1024) (context : TxContext) :
    Except Fault (Int × TxContext) :=
  runParser (processTxRound buf) context

/-! ## Staking operations -/

/-- Write a run of bytes into `blsKeyStr`. -/
def writeBlsKeyStr (offset : Nat) (bytes : List UInt8)
    (content : TxContent) : Except Fault TxContent :=
  match content.blsKeyStr.write? offset bytes with
  | none => .error .fieldOverrun
  | some written => .ok { content with blsKeyStr := written }

/-- Move the staking parser to a field. -/
def TxContext.goTo (field : RlpStakingField) (context : TxContext) :
    TxContext :=
  { context with stakeCurrentField := field }

/-- The case `STAKE_RLP_BLSPUBKEY`, after `processBlsData`. -/
def recordBlsPubKey (context : TxContext) : Except Fault TxContext := do
  let index := context.currentBlsKeyIndex
  let content ←
    if index * 13 < BLS_KEY_STR_LEN then
      writeBlsKeyStr (index * 13)
        (toHex context.content.blsPubKey 10 ++ ascii "...") context.content
    else .ok context.content
  return { context with
    content := content
    currentBlsKeyIndex := index + 1
    stakeCurrentField :=
      if index + 1 = context.content.blsPubKeySize then .blssigs
      else .blspubkey }

/-- The case `STAKE_RLP_SLOTKEYTOREMOVE`. -/
def processSlotKeyToRemove [Memory] (buf : Region 1024) (context : TxContext) :
    Except Fault TxContext := do
  let captioned ← writeBlsKeyStr 0 (ascii "remove:") context.content
  let handled ← processBlsData buf
    (some (storeBlsPubKey context.currentFieldPos))
    { context with content := captioned }
  let shown ← writeBlsKeyStr 7
    (toHex handled.content.blsPubKey 10 ++ ascii "...") handled.content
  return { handled with content := shown }

/-- The case `STAKE_RLP_SLOTKEYTOADD`, up to the test of the directive. -/
def processSlotKeyToAdd [Memory] (buf : Region 1024) (context : TxContext) :
    Except Fault TxContext := do
  let captioned ← writeBlsKeyStr 20 (ascii ",add:") context.content
  let handled ← processBlsData buf
    (some (storeBlsPubKey context.currentFieldPos))
    { context with content := captioned }
  let shown ← writeBlsKeyStr 25
    (toHex handled.content.blsPubKey 10 ++ ascii "...") handled.content
  return { handled with content := shown }

/-- The text of the EPoS status. -/
def statusText (shard : Nat) : List UInt8 :=
  if shard = 0 then ascii "Status:Same"
  else if shard = 1 then ascii "Status:Active"
  else ascii "Status:Inactive"

/-- The case `STAKE_RLP_EDITACTIVE`, after `processShard`. -/
def recordEditActive (context : TxContext) : Except Fault TxContext :=
  match context.content.destination.write? 0
      (statusText context.content.fromShard) with
  | none => .error .fieldOverrun
  | some written => .ok { context with
      content := { context.content with destination := written }
      stakeCurrentField := .done }

/-- The `switch` of `processStaking`. -/
def handleStakingField [Memory] (buf : Region 1024) :
    Body Fault TxContext (Int × TxContext) := fun context =>
  match context.stakeCurrentField with
  | .content => .ok (.again (processContent context))
  | .directive => continueWith (processDirective buf context)
  | .stakemessage => .ok (.again (processStakingMessage context))
  | .delegatoraddr => continueWith do
      let handled ← processDestination buf context
      return if handled.content.directive = DirectiveCollectRewards then
        handled.goTo .done else handled
  | .validatoraddr => continueWith do
      let handled ← processValidatorAddress buf context
      return if handled.content.directive = DirectiveDelegate ∨
          handled.content.directive = DirectiveUndelegate then
        handled.goTo .amount else handled.goTo .description
  | .amount => (processValue buf context).map fun handled =>
      if handled.content.directive = DirectiveDelegate ∨
          handled.content.directive = DirectiveUndelegate ∨
          handled.content.directive = DirectiveCreateValidator then
        .again (handled.goTo .done)
      else .exit (-1, handled)
  | .nonce => .ok (.again (context.goTo .done))
  | .description =>
      .ok (.again { context.goTo .name with processingField := false })
  | .name => continueWith (processName buf
      { context with content := { context.content with name := .zero } })
  | .identity => continueWith (processSkippedString buf context)
  | .website => continueWith (processSkippedString buf context)
  | .securitycontact => continueWith (processSkippedString buf context)
  | .details => continueWith do
      let handled ← processSkippedString buf context
      return if handled.content.directive = DirectiveEditValidator then
        handled.goTo .rate else handled
  | .commissionrates =>
      .ok (.again { context.goTo .rate with processingField := false })
  | .rate =>
      let handled := processDecimal context
      .ok (.again (if handled.content.directive = DirectiveEditValidator ∧
          handled.currentFieldLength = 0 then
        handled.goTo .minselfdelegation else handled))
  | .rateValue => continueWith do
      let handled ← processRate buf context
      return if handled.content.directive = DirectiveEditValidator then
        handled.goTo .minselfdelegation else handled
  | .maxrate => .ok (.again (processDecimal context))
  | .maxrateValue => continueWith (processMaxRate buf context)
  | .maxchangerate => .ok (.again (processDecimal context))
  | .maxchangerateValue => continueWith (processMaxChangeRate buf context)
  | .minselfdelegation => continueWith (processMinSelfDelegation buf context)
  | .maxtotaldelegation =>
      (processMaxTotalDelegation buf context).map fun handled =>
        if handled.content.directive = DirectiveCreateValidator then
          .again (handled.goTo .slotpubkeys)
        else if handled.content.directive = DirectiveEditValidator then
          .again (handled.goTo .slotkeytoremove)
        else .exit (-1, handled)
  | .slotpubkeys => .ok (.again { context.goTo .blspubkey with
      content := { context.content with
        blsPubKeySize := context.currentFieldLength / (MAX_BLS_ADDRESS + 1) }
      currentBlsKeyIndex := 0
      processingField := false })
  | .blspubkey => continueWith do
      let handled ← processBlsData buf
        (some (storeBlsPubKey context.currentFieldPos)) context
      recordBlsPubKey handled
  | .blssigs => .ok (.again { context.goTo .blssignature with
      content := { context.content with
        blsPubKeySize := context.currentFieldLength / (MAX_SIG_ADDRESS + 2) }
      currentBlsKeyIndex := 0
      processingField := false })
  | .blssignature => continueWith do
      let handled ← processBlsData buf none context
      return { handled with
        currentBlsKeyIndex := handled.currentBlsKeyIndex + 1
        stakeCurrentField :=
          if handled.currentBlsKeyIndex + 1 = handled.content.blsPubKeySize
          then .amount else .blssignature }
  | .slotkeytoremove => continueWith (processSlotKeyToRemove buf context)
  | .slotkeytoadd => (processSlotKeyToAdd buf context).map fun shown =>
      if shown.content.directive = DirectiveEditValidator then
        .again (shown.goTo .slotkeytoaddsignature)
      else .exit (-1, shown)
  | .slotkeytoaddsignature => continueWith do
      let handled ← processBlsData buf none context
      return handled.goTo .editactive
  | .editactive => continueWith do
      let handled ← processFromShard buf context
      recordEditActive handled
  | _ => .ok (.exit (-1, context))

/-- One round of `processStaking`. -/
def processStakingRound [Memory] (buf : Region 1024) :
    Body Fault TxContext (Int × TxContext) :=
  mainLoop buf (fun context => context.stakeCurrentField = .done)
    (handleStakingField buf)

/-- `processStaking`: the return code and the context it leaves. -/
def processStaking [Memory] (buf : Region 1024) (context : TxContext) :
    Except Fault (Int × TxContext) :=
  runParser (processStakingRound buf) context

end LedgerOne
