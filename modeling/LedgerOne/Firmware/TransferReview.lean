import LedgerOne.Firmware.Sessions
import LedgerOne.Firmware.Writes

/-!
# The review of a transfer

What the screens of a transfer hold on the Nano S, whatever the user presses,
and the writes of each press and of a finished message on both builds.
-/

namespace LedgerOne

/-! ## The arrays -/

namespace TransferArray

def toAddr : Place := ⟨SignTxn.toAddr, MAX_ONE_ADDRESS⟩
def partialAddrStr : Place := ⟨SignTxn.partialAddrStr, 13⟩
def amountStr : Place := ⟨SignTxn.amountStr, 78⟩
def amountLength : Place := ⟨SignTxn.amountLength, 4⟩
def partialAmountStr : Place := ⟨SignTxn.partialAmountStr, 13⟩
def shardStr : Place := ⟨SignTxn.shardStr, 64⟩
def hash : Place := ⟨SignTxn.hash, 32⟩
def typeStr : Place := ⟨SignTxn.typeStr, 40⟩

end TransferArray

/-- The bytes that `assign_shard_string` writes. -/
def shardText (content : TxContent) : List UInt8 :=
  (ascii "from:" ++ decimalText content.fromShard ++ ascii " to:" ++
    decimalText content.toShard).take 63 ++ [0]

theorem length_shardText (content : TxContent) :
    (shardText content).length ≤ 64 := by
  rw [shardText, List.length_append, List.length_take, List.length_singleton]
  omega

open TransferArray in
/-- The operations of a press on a screen of a transfer on the Nano S, which
leads from one context to the next. -/
def transferOperations (env : Env) (ctx : Ctx .nanoS) (screen : Screen)
    (press : Press) (next : Ctx .nanoS) : List (Operation .nanoS) :=
  match screen, press with
  | .signTxApprove, .releasedRight =>
      [.address toAddr next.txContent.destination,
        .copy partialAddrStr SignTxn.toAddr 12, .put partialAddrStr 12 [0]]
  | .addressCompare, .seekLeft | .addressCompare, .seekRight =>
      [.copy partialAddrStr
        (SignTxn.toAddr + next.display.displayIndex.toNat) 12]
  | .addressCompare, .releasedBoth =>
      [.amount amountStr 0 (some amountLength) ctx.txContent.value,
        .window partialAmountStr SignTxn.amountStr SignTxn.amountLength]
  | .amountCompareLarge, .seekLeft | .amountCompareLarge, .seekRight =>
      [.copy partialAmountStr
        (SignTxn.amountStr + next.display.displayIndex.toNat)
        (min 12 (ctx.display.getUint32 SignTxn.amountLength))]
  | .amountCompareLarge, .releasedBoth | .amountCompare, .releasedRight =>
      [.put shardStr 0 (shardText ctx.txContent)]
  | .txApprove, .releasedRight => [.put hash 0 (env.keccak ctx.message)]
  | _, _ => []

open TransferArray in
/-- The operations on a finished message. -/
def reviewTxOperations (build : Build) (content : TxContent) :
    List (Operation build) :=
  match build with
  | .nanoS => [.put typeStr 0 (ascii "Review Transaction?")]
  | .nanoX => [.address toAddr content.destination,
      .amount amountStr 0 (some amountLength) content.value,
      .put shardStr 0 (shardText content)]

/-! ## The screens of the Nano S -/

/-- The screen on which the user scrolls through the recipient. -/
structure Ctx.ComparesAddress (content : TxContent) (ctx : Ctx .nanoS) :
    Prop where
  keeps : ctx.txContent = content
  scrolls : ctx.display.Scrolls SignTxn.toAddr 42 SignTxn.partialAddrStr
    (addressText content.destination)

/-- The screen on which the user scrolls through an amount. -/
structure Ctx.ComparesAmount (content : TxContent) (ctx : Ctx .nanoS) :
    Prop where
  keeps : ctx.txContent = content
  scrolls : ctx.display.Scrolls SignTxn.amountStr 78
    SignTxn.partialAmountStr (amountText content.value.number)
  length : ctx.display.getUint32 SignTxn.amountLength =
    (amountText content.value.number).length
  long : 12 < (amountText content.value.number).length

/-- The screen that shows an amount as a whole. -/
structure Ctx.ShowsAmount (content : TxContent) (ctx : Ctx .nanoS) :
    Prop where
  keeps : ctx.txContent = content
  short : (amountText content.value.number).length ≤ 12
  shows : ctx.display.strings.Holds SignTxn.partialAmountStr
    ((amountText content.value.number).length + 1)
    (amountText content.value.number)

/-- The context of a transfer that waits to be parsed. -/
def Ctx.Parses (content : TxContent) (ctx : Ctx .nanoS) : Prop :=
  ∃ code context, LedgerOne.processTx ctx.buf ctx.txContext =
    .ok (code, context) ∧ context.content = content

/-- What holds on each screen of the review of a transfer. -/
def TransferStage (content : TxContent) (ctx : Ctx .nanoS) : Screen -> Prop
  | .signTxApprove => ctx.Parses content
  | .addressCompare => ctx.ComparesAddress content
  | .amountCompareLarge => ctx.ComparesAmount content
  | .amountCompare => ctx.ShowsAmount content
  | .fromshardApprove | .txApprove | .idle => True
  | _ => False

/-- What a press on a screen of a transfer does. -/
structure TransferStep (env : Env) (content : TxContent) (ctx : Ctx .nanoS)
    (screen : Screen) (press : Press) (outcome : Outcome .nanoS) : Prop where
  stage : TransferStage content outcome.device.ctx outcome.device.screen
  writes : outcome.device.ctx.display.strings =
    (ctx.display.performed (writesOf (transferOperations env ctx screen press
      outcome.device.ctx) ctx.display)).strings
  entered : outcome.device.screen ≠ screen ->
    outcome.device.screen = .addressCompare ∨
      outcome.device.screen = .amountCompareLarge ->
    outcome.device.ctx.display.displayIndex = 0
  waits : outcome.device.screen = .signTxApprove -> screen = .signTxApprove

/-- The line of the shards always has room. -/
theorem stores_shardText (content : TxContent) (display : Display build) :
    assignShardString content display =
      .ok (display.put SignTxn.shardStr (shardText content)) := by
  have short := length_shardText content
  have room : SignTxn.shardStr + 64 ≤ build.stringsSize := by
    cases build <;> decide
  exact display.write_eq (show
    SignTxn.shardStr + (shardText content).length ≤ _ by omega)

section Screens

variable (env : Env) {content : TxContent} {ctx : Ctx .nanoS} (io : Region 260)

/-- A press that does nothing. -/
theorem TransferStep.same {screen : Screen} {press : Press}
    (stage : TransferStage content ctx screen)
    (none : transferOperations env ctx screen press ctx = []) :
    TransferStep env content ctx screen press
      { device := ⟨ctx, screen, io⟩ } where
  stage := stage
  writes := by rw [none, performed_writesOf_nil]
  entered other := absurd rfl other
  waits := id

/-- A press that rejects the transfer. -/
theorem TransferStep.reject {screen : Screen} {press : Press}
    (none : transferOperations env ctx screen press ctx = []) :
    TransferStep env content ctx screen press
      (Device.reject ⟨ctx, screen, io⟩) where
  stage := trivial
  writes := by
    show ctx.display.strings = (ctx.display.performed (writesOf
      (transferOperations env ctx screen press ctx) ctx.display)).strings
    rw [none, performed_writesOf_nil]
  entered _ scrolls := by
    obtain compares | compares := scrolls <;> cases compares
  waits other := by cases other

/-- Taking up the review shows the recipient. -/
theorem signTxApprove_takesUp (parses : ctx.Parses content) :
    ∃ outcome, signTxApproveButton ⟨ctx, .signTxApprove, io⟩ .releasedRight =
        .ok outcome ∧
      outcome.device.screen = .addressCompare ∧
      outcome.device.ctx.txContent = content ∧
      TransferStep env content ctx .signTxApprove .releasedRight outcome := by
  obtain ⟨code, context, runs, rfl⟩ := parses
  have parsed : ctx.processTx =
      .ok (code, { ctx with txContext := context }) := by
    rw [Ctx.processTx, runs]
    rfl
  have length := length_addressText context.content.destination
  let addressed := ctx.display.put SignTxn.toAddr
    (addressText context.content.destination ++ [0])
  let shown : Ctx .nanoS := { ctx with
    display := { addressed.windowed SignTxn.partialAddrStr SignTxn.toAddr
      12 with displayIndex := 0 }
    txContext := context }
  refine ⟨Device.proceed ⟨ctx, .signTxApprove, io⟩ shown .addressCompare,
    ?_, rfl, rfl, ⟨rfl, ?_⟩, rfl, fun _ _ => rfl, fun _ => rfl⟩
  · show (ctx.processTx >>= _) = _
    rw [parsed, bind_ok]
    dsimp only [Ctx.txContent]
    rw [Display.writeAddress_eq _ _ (by decide), bind_ok,
      Display.copy_ended _ (by decide) (by decide)]
    rfl
  · have holds : addressed.strings.Holds SignTxn.toAddr 42
        (addressText context.content.destination) :=
      .overwritten _ 1 (by omega) (by omega) (by decide)
    exact Display.scrolls_windowed holds (by decide) (by decide)
      (by decide)

theorem signTxApprove_step (parses : ctx.Parses content) (press : Press) :
    ∃ outcome, signTxApproveButton ⟨ctx, .signTxApprove, io⟩ press =
        .ok outcome ∧
      TransferStep env content ctx .signTxApprove press outcome := by
  cases press with
  | releasedLeft => exact ⟨_, rfl, .reject env io rfl⟩
  | releasedRight =>
      obtain ⟨outcome, presses, _, _, step⟩ :=
        signTxApprove_takesUp env io parses
      exact ⟨outcome, presses, step⟩
  | _ => exact ⟨_, rfl, .same env io parses rfl⟩

/-- Going on from the recipient to the amount. -/
theorem addressCompare_proceeds (compares : ctx.ComparesAddress content)
    (short : content.value.length.toNat ≤ 32) :
    ∃ outcome, addressCompareButton env ⟨ctx, .addressCompare, io⟩
        .releasedBoth = .ok outcome ∧
      TransferStep env content ctx .addressCompare .releasedBoth outcome := by
  obtain rfl := compares.keeps
  let text := amountText ctx.txContent.value.number
  have few : text.length ≤ 70 := length_amountText (TxInt256.number_lt short)
  let written := ctx.display.put SignTxn.amountStr (padded 78 text)
  let counted := written.put SignTxn.amountLength
    (uint32Bytes text.length).toList
  have writes : ctx.display.writeAmount SignTxn.amountStr
      (some SignTxn.amountLength) ctx.txContent.value =
        .ok (counted, amountConversion ctx.txContent.value.number) :=
    ctx.display.writeAmount_some short (by decide) (by decide)
  have performed : ctx.display.performed (Operation.amount
      TransferArray.amountStr 0 (some TransferArray.amountLength)
      ctx.txContent.value ctx.display) = counted :=
    performed_amount _ _ _ short ctx.display (by decide)
  have length : counted.getUint32 SignTxn.amountLength = text.length :=
    written.getUint32_put (by omega) (by decide)
  have holds : counted.strings.Holds SignTxn.amountStr 78 text :=
    (Region.Holds.overwritten _ _ (by omega) (by omega) (by decide)).frame _ _
      (Or.inl (by decide))
  have strings : (ctx.display.performed (writesOf
      [.amount TransferArray.amountStr 0 (some TransferArray.amountLength)
          ctx.txContent.value,
        .window TransferArray.partialAmountStr SignTxn.amountStr
          SignTxn.amountLength] ctx.display)) =
        counted.windowed SignTxn.partialAmountStr SignTxn.amountStr
          (min 12 text.length) := by
    rw [performed_writesOf_cons, performed, performed_writesOf_cons,
      performed_window, length, performed_writesOf_nil]
    rfl
  have same : ({ counted with displayIndex := 0 } :
      Display .nanoS).getUint32 SignTxn.amountLength = text.length := length
  show ∃ outcome, (ctx.display.writeAmount _ _ _ >>= _) = .ok outcome ∧ _
  rw [writes, bind_ok]
  dsimp only [amountConversion]
  rw [if_neg (by decide), same]
  by_cases long : 12 < text.length
  · rw [if_pos long, Display.copy_ended _ (by decide) (by decide)]
    rw [Nat.min_eq_left long.le] at strings
    refine ⟨_, rfl, ⟨rfl, ?_, ?_, long⟩, (congrArg Display.strings strings).symm,
      fun _ _ => rfl, fun other => by cases other⟩
    · exact Display.scrolls_windowed holds (by decide) (by decide) (by decide)
    · exact (counted.getUint32_windowed (by decide)).trans length
  · rw [if_neg long, Display.copy_ended _ (by
      show 55 + _ ≤ 420
      omega) (by
      show 140 + _ < 420
      omega)]
    rw [Nat.min_eq_right (not_lt.mp long)] at strings
    refine ⟨_, rfl, ⟨rfl, not_lt.mp long, ?_⟩, (congrArg Display.strings strings).symm,
      fun _ _ => rfl, fun other => by cases other⟩
    have shows : (counted.windowed SignTxn.partialAmountStr SignTxn.amountStr
        text.length).strings.Holds SignTxn.partialAmountStr (text.length + 1)
          (windowOn text 0 text.length) :=
      Display.window_windowed holds holds.fits (by
        show 140 + _ < 420
        omega)
    rwa [windowOn_whole] at shows

/-- Scrolling through the recipient. -/
theorem addressCompare_step (compares : ctx.ComparesAddress content)
    (short : content.value.length.toNat ≤ 32) (press : Press) :
    ∃ outcome, addressCompareButton env ⟨ctx, .addressCompare, io⟩ press =
        .ok outcome ∧
      TransferStep env content ctx .addressCompare press outcome := by
  have length := length_addressText content.destination
  cases press with
  | seekLeft =>
      obtain ⟨index, seeks, scrolls⟩ := compares.scrolls.seekLeft
        (by decide) (by decide) (by decide) (by decide)
      refine ⟨_, congrArg (· >>= _) seeks, ⟨compares.keeps, scrolls⟩, rfl,
        fun other => absurd rfl other, id⟩
  | seekRight =>
      obtain ⟨index, seeks, scrolls⟩ := compares.scrolls.seekRight
        (by decide) (by decide) (by decide) (by decide)
        (by omega) (MAX_ONE_ADDRESS - 12) (by rw [length]; rfl)
      refine ⟨_, congrArg (· >>= _) seeks, ⟨compares.keeps, scrolls⟩, rfl,
        fun other => absurd rfl other, id⟩
  | releasedBoth => exact addressCompare_proceeds env io compares short
  | _ => exact ⟨_, rfl, .same env io compares rfl⟩

/-- Scrolling through the amount, and going on to the shards. -/
theorem amountCompareLarge_step (compares : ctx.ComparesAmount content)
    (press : Press) :
    ∃ outcome, amountCompareLargeButton ⟨ctx, .amountCompareLarge, io⟩ press =
        .ok outcome ∧
      TransferStep env content ctx .amountCompareLarge press outcome := by
  have long := compares.long
  have few := compares.scrolls.holds.fits
  have count : (if 12 < ctx.display.getUint32 SignTxn.amountLength then 12
      else ctx.display.getUint32 SignTxn.amountLength) = 12 := by
    rw [compares.length, if_pos long]
  have least : min 12 (ctx.display.getUint32 SignTxn.amountLength) = 12 := by
    rw [compares.length]
    omega
  unfold amountCompareLargeButton
  dsimp only
  rw [count]
  cases press with
  | seekLeft =>
      obtain ⟨index, seeks, scrolls⟩ := compares.scrolls.seekLeft
        (by decide) (by decide) (by decide) (by decide)
      refine ⟨_, congrArg (· >>= _) seeks, ⟨compares.keeps, scrolls,
        (ctx.display.getUint32_moved index (by decide)).trans compares.length,
        long⟩, ?_, fun other => absurd rfl other, id⟩
      dsimp only [transferOperations]
      rw [least]
      rfl
  | seekRight =>
      obtain ⟨index, seeks, scrolls⟩ := compares.scrolls.seekRight
        (by decide) (by decide) (by decide) (by decide) long.le
        (minusUint32 (ctx.display.getUint32 SignTxn.amountLength) 12)
        (by rw [compares.length, minusUint32_eq (by omega) (by omega)])
      refine ⟨_, congrArg (· >>= _) seeks, ⟨compares.keeps, scrolls,
        (ctx.display.getUint32_moved index (by decide)).trans compares.length,
        long⟩, ?_, fun other => absurd rfl other, id⟩
      dsimp only [transferOperations]
      rw [least]
      rfl
  | releasedBoth =>
      have stores : assignShardString ctx.txContent ctx.display =
          .ok (ctx.display.put SignTxn.shardStr (shardText ctx.txContent)) :=
        stores_shardText ctx.txContent ctx.display
      refine ⟨_, congrArg (· >>= _) stores, trivial, rfl, ?_,
        fun other => by cases other⟩
      rintro _ (scrolls | scrolls) <;> cases scrolls
  | _ => exact ⟨_, rfl, .same env io compares rfl⟩

theorem amountCompare_step (shows : ctx.ShowsAmount content)
    (press : Press) :
    ∃ outcome, amountCompareButton ⟨ctx, .amountCompare, io⟩ press =
        .ok outcome ∧
      TransferStep env content ctx .amountCompare press outcome := by
  cases press with
  | releasedLeft => exact ⟨_, rfl, .reject env io rfl⟩
  | releasedRight =>
      have stores := stores_shardText ctx.txContent ctx.display
      refine ⟨_, congrArg (· >>= _) stores, trivial, rfl, ?_,
        fun other => by cases other⟩
      rintro _ (scrolls | scrolls) <;> cases scrolls
  | _ => exact ⟨_, rfl, .same env io shows rfl⟩

theorem fromshardApprove_step (press : Press) :
    ∃ outcome, fromshardApproveButton ⟨ctx, .fromshardApprove, io⟩ press =
        .ok outcome ∧
      TransferStep env content ctx .fromshardApprove press outcome := by
  cases press with
  | releasedLeft => exact ⟨_, rfl, .reject env io rfl⟩
  | releasedRight =>
      refine ⟨_, rfl, trivial, rfl, ?_,
        fun other => by cases other⟩
      rintro _ (scrolls | scrolls) <;> cases scrolls
  | _ => exact ⟨_, rfl, .same env io trivial rfl⟩

theorem txApprove_step (press : Press) :
    ∃ outcome, txApproveButton env ⟨ctx, .txApprove, io⟩ press =
        .ok outcome ∧
      TransferStep env content ctx .txApprove press outcome := by
  cases press with
  | releasedLeft => exact ⟨_, rfl, .reject env io rfl⟩
  | releasedRight =>
      have stores : ctx.display.write SignTxn.hash (env.keccak ctx.message) =
          .ok (ctx.display.put SignTxn.hash (env.keccak ctx.message)) :=
        ctx.display.write_eq (by
          rw [env.length_keccak]
          decide)
      refine ⟨_, congrArg (· >>= _) stores, trivial, rfl, ?_,
        fun other => by cases other⟩
      rintro _ (scrolls | scrolls) <;> cases scrolls
  | _ => exact ⟨_, rfl, .same env io trivial rfl⟩

/-- Every press during the review of a transfer. -/
theorem pressed_transferStep (screen : Screen)
    (stage : TransferStage content ctx screen)
    (short : content.value.length.toNat ≤ 32) (press : Press) :
    ∃ outcome, pressed env .nanoS ⟨ctx, screen, io⟩ press = .ok outcome ∧
      TransferStep env content ctx screen press outcome := by
  cases screen with
  | idle => exact ⟨_, rfl, .same env io trivial rfl⟩
  | signTxApprove => exact signTxApprove_step env io stage press
  | addressCompare => exact addressCompare_step env io stage short press
  | amountCompareLarge => exact amountCompareLarge_step env io stage press
  | amountCompare => exact amountCompare_step env io stage press
  | fromshardApprove => exact fromshardApprove_step env io press
  | txApprove => exact txApprove_step env io press
  | _ => exact stage.elim

end Screens

/-! ## A finished message -/

/-- The screen with which the review of a transfer starts. -/
def firstTxScreen : Build -> Screen
  | .nanoS => .signTxApprove
  | .nanoX => .approvalTxFlow

/-- What the review of a transfer leaves among the strings of the Nano X. -/
def transferReviewed (content : TxContent) (display : Display .nanoX) :
    Display .nanoX :=
  (((display.put SignTxn.toAddr (addressText content.destination ++ [0])).put
    SignTxn.amountStr (padded 78 (amountText content.value.number))).put
      SignTxn.amountLength
      (uint32Bytes (amountText content.value.number).length).toList).put
        SignTxn.shardStr (shardText content)

theorem performed_reviewTx {content : TxContent}
    (short : content.value.length.toNat ≤ 32) (display : Display .nanoX) :
    display.performed (writesOf (reviewTxOperations .nanoX content) display) =
      transferReviewed content display := by
  let addressed := display.put SignTxn.toAddr
    (addressText content.destination ++ [0])
  have performed := performed_amount TransferArray.amountStr 0
    (some TransferArray.amountLength) short addressed (by decide)
  rw [reviewTxOperations, performed_writesOf_cons, performed_writesOf_cons,
    performed_writesOf_cons]
  show ((addressed.performed (Operation.amount TransferArray.amountStr 0
    (some TransferArray.amountLength) content.value addressed)).performed
      _).performed _ = _
  rw [performed]
  rfl

/-- On the Nano X the whole review is composed at once. -/
theorem reviewTx_raises_nanoX (env : Env) (device : Device .nanoX)
    {ctx : Ctx .nanoX} {code : Int} {context : TxContext}
    (parses : LedgerOne.processTx ctx.buf ctx.txContext = .ok (code, context))
    (short : context.content.value.length.toNat ≤ 32) :
    reviewTx env .nanoX device ctx =
      .ok (device.proceed { ctx with
          display := transferReviewed context.content ctx.display
          txContext := context } .approvalTxFlow) := by
  have parsed : ctx.processTx =
      .ok (code, { ctx with txContext := context }) := by
    rw [Ctx.processTx, parses]
    rfl
  let addressed := ctx.display.put SignTxn.toAddr
    (addressText context.content.destination ++ [0])
  let text := amountText context.content.value.number
  let counted := (addressed.put SignTxn.amountStr (padded 78 text)).put
    SignTxn.amountLength (uint32Bytes text.length).toList
  have writes : addressed.writeAmount SignTxn.amountStr
      (some SignTxn.amountLength) context.content.value =
        .ok (counted, amountConversion context.content.value.number) :=
    addressed.writeAmount_some short (by decide) (by decide)
  show (ctx.processTx >>= _) = _
  rw [parsed, bind_ok]
  dsimp only [Ctx.txContent]
  rw [Display.writeAddress_eq _ _ (by decide), bind_ok]
  rw [writes, bind_ok]
  show (assignShardString context.content counted >>= _) = _
  rw [stores_shardText, bind_ok]
  rfl

/-- The review of a transfer that the parser reads. -/
theorem reviewTx_raises (env : Env) (device : Device build) {ctx : Ctx build}
    {code : Int} {context : TxContext}
    (parses : LedgerOne.processTx ctx.buf ctx.txContext = .ok (code, context))
    (short : context.content.value.length.toNat ≤ 32) :
    ∃ outcome, reviewTx env build device ctx = .ok outcome ∧
      outcome.device.screen = firstTxScreen build ∧
      outcome.device.ctx.buf = ctx.buf ∧
      outcome.device.ctx.txContext =
        (match build with | .nanoS => ctx.txContext | .nanoX => context) ∧
      outcome.device.ctx.display.strings =
        (ctx.display.performed (writesOf (reviewTxOperations build
          context.content) ctx.display)).strings := by
  cases build with
  | nanoS =>
      have stores : ctx.display.write SignTxn.typeStr
          (ascii "Review Transaction?") = .ok (ctx.display.put SignTxn.typeStr
            (ascii "Review Transaction?")) :=
        ctx.display.write_eq (by decide)
      exact ⟨_, congrArg (· >>= _) stores, rfl, rfl, rfl, rfl⟩
  | nanoX =>
      exact ⟨_, reviewTx_raises_nanoX env device parses short, rfl, rfl, rfl,
        congrArg Display.strings (performed_reviewTx short ctx.display).symm⟩

end LedgerOne
