import LedgerOne.Firmware.Presses

/-!
# What a request changes

The two signing instructions collect their messages in the same way; what they
do differently is the review that a finished message starts.  This module
names the parts of a signing packet and says what each request changes.
-/

namespace LedgerOne

/-- The handler a request is for. -/
def Apdu.addressee (apdu : Apdu) : Option Handler :=
  if apdu.cla ≠ CLA then none else lookupHandler apdu.ins

/-- The signing instructions. -/
inductive Signing
  | tx
  | staking
  deriving DecidableEq

namespace Signing

def handler : Signing -> Handler
  | .tx => .signTx
  | .staking => .signStaking

/-- The size of the strings in the context of the instruction. -/
def size (build : Build) : Signing -> Nat
  | .tx => SignTxn.size
  | .staking => SignStaking.size build

/-- The place of `initialized`. -/
def initialized (build : Build) : Signing -> Nat
  | .tx => SignTxn.initialized
  | .staking => SignStaking.initialized build

/-- A packet of a signing instruction. -/
def packet (p1 p2 : UInt8) (data : List UInt8) (signing : Signing)
    (length_data : data.length ≤ 255 := by decide) : Apdu where
  cla := CLA
  ins := match signing with
    | .tx => INS_GET_TXN_HASH
    | .staking => INS_SIGN_STAKING
  p1 := p1
  p2 := p2
  data := data
  length_data := length_data

variable (signing : Signing) (apdu : Apdu) (ctx : Ctx build)

/-- The context to which a packet appends its data. -/
def opened : Ctx build :=
  if apdu.p1 = P1_FIRST then
    ctx.clearFor (signing.size build) (signing.initialized build)
  else ctx

/-- The data are refused when they do not fit. -/
def Refused : Prop :=
  CMD_BUFFER_SIZE * 4 < (signing.opened apdu ctx).length + apdu.data.length

instance : Decidable (signing.Refused apdu ctx) :=
  inferInstanceAs (Decidable (_ < _))

/-- The context with the data of a packet. -/
def collected : Ctx build :=
  { signing.opened apdu ctx with
    buf := (signing.opened apdu ctx).buf.splice
      (signing.opened apdu ctx).length apdu.data
    length := (signing.opened apdu ctx).length + apdu.data.length }

/-- The parser context on which the parser of the instruction is called. -/
def parserContext (context : TxContext) (length : Nat) : TxContext :=
  match signing with
  | .tx => { context with
      commandLength := length
      txCurrentField := .content }
  | .staking => { context with
      commandLength := length
      stakeCurrentField := .content }

/-- The context of a finished message. -/
def finished : Ctx build :=
  let ctx := signing.collected apdu ctx
  { ctx with
    display := { ctx.display with
      strings := ctx.display.strings.splice (signing.initialized build) [0] }
    txContext := signing.parserContext ctx.txContext ctx.length }

/-- The parser of the instruction. -/
def parse (buf : Region 1024) (context : TxContext) :
    Except Fault (Int × TxContext) :=
  match signing with
  | .tx => processTx buf context
  | .staking => processStaking buf context

/-- The parser runs when the message is finished; only the Nano S parses a
transfer later, when its review is taken up. -/
def parsesAtOnce (build : Build) : Bool :=
  !(signing = .tx && build = .nanoS)

/-- What follows on a finished message. -/
def review (env : Env) (device : Device build) (ctx : Ctx build) :
    Except Fault (Outcome build) :=
  match signing with
  | .tx => reviewTx env build device ctx
  | .staking => parseStaking env device ctx

theorem collectPacket_eq (env : Env) :
    collectPacket env (signing.size build) (signing.initialized build)
        apdu.p1 apdu.p2 apdu.data ctx =
      if signing.Refused apdu ctx then
        .thrown (signing.opened apdu ctx) env.exceptionOverflow
      else if apdu.p2 = P2_FINISH then
        .finished { signing.collected apdu ctx with
          display := (signing.finished apdu ctx).display
          txContext := { (signing.collected apdu ctx).txContext with
            commandLength := (signing.collected apdu ctx).length } }
      else .thrown (signing.collected apdu ctx) SW_OK :=
  rfl

/-- How a signing packet is handled. -/
theorem call_eq (env : Env) (device : Device build) :
    signing.handler.call env apdu.p1 apdu.p2 apdu.data device =
      if signing.Refused apdu device.ctx then
        .ok (device.throw (signing.opened apdu device.ctx)
          env.exceptionOverflow)
      else if apdu.p2 = P2_FINISH then
        signing.review env device (signing.finished apdu device.ctx)
      else .ok (device.throw (signing.collected apdu device.ctx) SW_OK) := by
  cases signing with
  | tx =>
      show handleSignTx env apdu.p1 apdu.p2 apdu.data device = _
      unfold handleSignTx
      rw [show collectPacket env SignTxn.size SignTxn.initialized apdu.p1
        apdu.p2 apdu.data device.ctx = _ from
          collectPacket_eq .tx apdu device.ctx env]
      split_ifs <;> rfl
  | staking =>
      show handleSignStaking env apdu.p1 apdu.p2 apdu.data device = _
      unfold handleSignStaking
      rw [show collectPacket env (SignStaking.size build)
        (SignStaking.initialized build) apdu.p1 apdu.p2 apdu.data
        device.ctx = _ from collectPacket_eq .staking apdu device.ctx env]
      split_ifs <;> rfl

end Signing

/-! ## Reviews -/

/-- The parser contexts that a finished message may leave. -/
def Signing.Leaves (signing : Signing) (ctx : Ctx build)
    (context : TxContext) : Prop :=
  if signing.parsesAtOnce build then
    ∃ code, signing.parse ctx.buf ctx.txContext = .ok (code, context)
  else context = ctx.txContext

/-- A finished message either starts its review or is answered with an
exception, and stays in the buffer. -/
structure Outcome.Raises (signing : Signing) (device : Device build)
    (ctx : Ctx build) (outcome : Outcome build) : Prop where
  buf : outcome.device.ctx.buf = ctx.buf
  length : outcome.device.ctx.length = ctx.length
  txContext : signing.Leaves ctx outcome.device.ctx.txContext
  screen : outcome.thrown = none ∧ outcome.device.screen.signs ∨
    (∃ code, outcome.thrown = some code) ∧
      outcome.device.screen = device.screen
  effects : outcome.effects = []

section Reviews

variable (signing : Signing) (device : Device build) {ctx parsed : Ctx build}

theorem raises_proceed {screen : Screen}
    (leaves : signing.Leaves ctx parsed.txContext)
    (buf : parsed.buf = ctx.buf) (length : parsed.length = ctx.length)
    (signs : screen.signs) :
    (device.proceed parsed screen).Raises signing device ctx where
  buf := buf
  length := length
  txContext := leaves
  screen := Or.inl ⟨rfl, signs⟩
  effects := rfl

theorem raises_throw (code : Nat)
    (leaves : signing.Leaves ctx parsed.txContext)
    (buf : parsed.buf = ctx.buf) (length : parsed.length = ctx.length) :
    (device.throw parsed code).Raises signing device ctx where
  buf := buf
  length := length
  txContext := leaves
  screen := Or.inr ⟨⟨code, rfl⟩, rfl⟩
  effects := rfl

/-- What `processTx` and `processStaking` leave of the command context. -/
structure Parsed (signing : Signing) (ctx : Ctx build)
    (result : Int × Ctx build) : Prop where
  buf : result.2.buf = ctx.buf
  length : result.2.length = ctx.length
  display : result.2.display = ctx.display
  parse : signing.parse ctx.buf ctx.txContext =
    .ok (result.1, result.2.txContext)

theorem Parsed.leaves {result : Int × Ctx build}
    (parsed : Parsed signing ctx result)
    (atOnce : signing.parsesAtOnce build) :
    signing.Leaves ctx result.2.txContext := by
  rw [Signing.Leaves, if_pos atOnce]
  exact ⟨result.1, parsed.parse⟩

theorem parsed_processTx : Ensures ctx.processTx (Parsed .tx ctx) := by
  unfold Ctx.processTx
  cases parse : processTx ctx.buf ctx.txContext with
  | error fault => exact Ensures.error trivial
  | ok result => exact Ensures.pure ⟨rfl, rfl, rfl, parse⟩

theorem parsed_processStaking :
    Ensures ctx.processStaking (Parsed .staking ctx) := by
  unfold Ctx.processStaking
  cases parse : processStaking ctx.buf ctx.txContext with
  | error fault => exact Ensures.error trivial
  | ok result => exact Ensures.pure ⟨rfl, rfl, rfl, parse⟩

end Reviews

theorem raises_reviewTxNanoX (env : Env) (device : Device .nanoX)
    (ctx : Ctx .nanoX) :
    Ensures (reviewTxNanoX env device ctx)
      (Outcome.Raises .tx device ctx) := by
  apply Ensures.bind parsed_processTx
  rintro ⟨code, after⟩ parsed
  have leaves : Signing.tx.Leaves ctx after.txContext :=
    parsed.leaves .tx rfl
  apply Ensures.bind_any
  intro addressed
  apply Ensures.bind_any
  rintro ⟨display, conversion⟩
  apply Ensures.ite
  · intro _
    exact Ensures.pure (raises_throw .tx device _ leaves parsed.buf
      parsed.length)
  · intro _
    apply Ensures.bind_any
    intro display
    exact Ensures.pure (raises_proceed .tx device leaves parsed.buf
      parsed.length rfl)

theorem raises_reviewTx (env : Env) (device : Device build)
    (ctx : Ctx build) :
    Ensures (reviewTx env build device ctx)
      (Outcome.Raises .tx device ctx) := by
  cases build with
  | nanoS =>
      apply Ensures.bind_any
      intro display
      exact Ensures.pure (raises_proceed .tx device rfl rfl rfl rfl)
  | nanoX => exact raises_reviewTxNanoX env device ctx

section Staking

variable {original : Ctx build}

theorem raises_reviewStakingNanoX (env : Env) (device : Device .nanoX)
    {original ctx : Ctx .nanoX}
    (leaves : Signing.staking.Leaves original ctx.txContext)
    (buf : ctx.buf = original.buf) (length : ctx.length = original.length) :
    Ensures (reviewStakingNanoX env device ctx)
      (Outcome.Raises .staking device original) := by
  apply Ensures.bind_any
  intro cleared
  apply Ensures.bind_any
  rintro ⟨display, composed⟩
  apply Ensures.ite
  · intro _
    exact Ensures.pure (raises_throw .staking device _ leaves buf length)
  · intro _
    apply Ensures.bind_any
    intro named
    apply Ensures.bind_any
    intro display
    exact Ensures.pure (raises_proceed .staking device leaves buf length rfl)

theorem raises_reviewStaking (env : Env) (device : Device build)
    {ctx : Ctx build}
    (leaves : Signing.staking.Leaves original ctx.txContext)
    (buf : ctx.buf = original.buf) (length : ctx.length = original.length) :
    Ensures (reviewStaking env build device ctx)
      (Outcome.Raises .staking device original) := by
  cases build with
  | nanoS =>
      unfold reviewStaking reviewStakingNanoS
      apply Ensures.bind_any
      intro display
      exact Ensures.pure (raises_proceed .staking device leaves buf length rfl)
  | nanoX => exact raises_reviewStakingNanoX env device leaves buf length

theorem raises_parseStaking (env : Env) (device : Device build)
    (ctx : Ctx build) :
    Ensures (parseStaking env device ctx)
      (Outcome.Raises .staking device ctx) := by
  apply Ensures.bind parsed_processStaking
  rintro ⟨code, after⟩ parsed
  have leaves : Signing.staking.Leaves ctx after.txContext :=
    parsed.leaves .staking rfl
  dsimp only
  apply Ensures.ite
  · intro _
    exact Ensures.pure (raises_throw .staking device _ leaves parsed.buf
      parsed.length)
  · intro _
    split
    · exact Ensures.pure (raises_throw .staking device _ leaves parsed.buf
        parsed.length)
    · apply Ensures.bind_any
      intro display
      exact raises_reviewStaking env device leaves parsed.buf parsed.length

end Staking

theorem Signing.raises_review (signing : Signing) (env : Env)
    (device : Device build) (ctx : Ctx build) :
    Ensures (signing.review env device ctx)
      (Outcome.Raises signing device ctx) := by
  cases signing with
  | tx => exact raises_reviewTx env device ctx
  | staking => exact raises_parseStaking env device ctx

/-! ## Steps -/

/-- How the application answers a signing packet. -/
inductive Signing.Answers (env : Env) (signing : Signing) (apdu : Apdu)
    (device : Device build) (next : Device build) (outputs : List Effect) :
    Prop
  /-- The data do not fit. -/
  | refused
    (tooLong : signing.Refused apdu device.ctx)
    (ctx : next.ctx = signing.opened apdu device.ctx)
    (screen : next.screen = device.screen)
    (replies : outputs = [.respond [] (statusOf env.exceptionOverflow)])
  /-- More packets are to come. -/
  | collected
    (fits : ¬signing.Refused apdu device.ctx)
    (more : apdu.p2 ≠ P2_FINISH)
    (ctx : next.ctx = signing.collected apdu device.ctx)
    (screen : next.screen = device.screen)
    (replies : outputs = [.respond [] SW_OK])
  /-- The message is finished. -/
  | finished
    (fits : ¬signing.Refused apdu device.ctx)
    (last : apdu.p2 = P2_FINISH)
    (outcome : Outcome build)
    (reviewed : signing.review env (device.received apdu)
      (signing.finished apdu device.ctx) = .ok outcome)
    (raises : outcome.Raises signing (device.received apdu)
      (signing.finished apdu device.ctx))
    (ctx : next.ctx = outcome.device.ctx)
    (screen : next.screen = outcome.device.screen)
    (replies : outputs = outcome.caught.2)

/-- What a request does that no signing instruction is for. -/
structure Serves (device next : Device build) (outputs : List Effect) :
    Prop where
  length : next.ctx.length = device.ctx.length
  txContext : next.ctx.txContext = device.ctx.txContext
  screen : next.screen = device.screen ∨ next.screen.signs = false
  hashed : ∀ bytes, .hash bytes ∉ outputs

/-- The signing instruction a request is for. -/
def Apdu.signing (apdu : Apdu) : Option Signing :=
  match apdu.addressee with
  | some .signTx => some .tx
  | some .signStaking => some .staking
  | _ => none

section Steps

variable (env : Env) (apdu : Apdu) (device : Device build)

@[simp] theorem received_ctx : (device.received apdu).ctx = device.ctx :=
  rfl

@[simp] theorem received_screen :
    (device.received apdu).screen = device.screen :=
  rfl

/-- A request reaches its addressee as it was sent. -/
theorem dispatch_addressee :
    dispatch env (device.received apdu) =
      match apdu.addressee with
      | none => .ok ((device.received apdu).throw device.ctx
          (if apdu.cla ≠ CLA then 0x6E00 else 0x6D00))
      | some handler => handler.call env apdu.p1 apdu.p2 apdu.data
          (device.received apdu) := by
  rw [dispatch_received, Apdu.addressee]
  by_cases cla : apdu.cla = CLA
  · cases lookupHandler apdu.ins <;>
      simp only [cla, ne_eq, not_true_eq_false, if_false]
  · simp only [cla, ne_eq, not_false_eq_true, if_true]

theorem step_apdu :
    (firmware env build).step device (.apdu apdu) =
      (dispatch env (device.received apdu)).map Outcome.caught :=
  rfl

theorem Apdu.addressee_of_signing {signing : Signing} {apdu : Apdu}
    (addressed : apdu.signing = some signing) :
    apdu.addressee = some signing.handler := by
  unfold Apdu.signing at addressed
  split at addressed
  next handler => cases addressed; exact handler
  next handler => cases addressed; exact handler
  next => cases addressed

section Signing

variable {env apdu device} {signing : Signing}
  (addressed : apdu.signing = some signing)

include addressed

theorem step_refused (tooLong : signing.Refused apdu device.ctx) :
    (firmware env build).step device (.apdu apdu) =
      .ok ((device.received apdu).throw (signing.opened apdu device.ctx)
        env.exceptionOverflow).caught := by
  rw [step_apdu, dispatch_addressee, apdu.addressee_of_signing addressed]
  dsimp only
  rw [signing.call_eq, received_ctx, if_pos tooLong]
  rfl

variable (env) in
theorem step_collected (fits : ¬signing.Refused apdu device.ctx)
    (more : apdu.p2 ≠ P2_FINISH) :
    (firmware env build).step device (.apdu apdu) =
      .ok ((device.received apdu).throw (signing.collected apdu device.ctx)
        SW_OK).caught := by
  rw [step_apdu, dispatch_addressee, apdu.addressee_of_signing addressed]
  dsimp only
  rw [signing.call_eq, received_ctx, if_neg fits, if_neg more]
  rfl

theorem step_finished (fits : ¬signing.Refused apdu device.ctx)
    (last : apdu.p2 = P2_FINISH) :
    (firmware env build).step device (.apdu apdu) =
      (signing.review env (device.received apdu)
        (signing.finished apdu device.ctx)).map Outcome.caught := by
  rw [step_apdu, dispatch_addressee, apdu.addressee_of_signing addressed]
  dsimp only
  rw [signing.call_eq, received_ctx, if_neg fits, if_pos last]

end Signing

/-- A signing packet. -/
theorem step_signing {signing : Signing}
    (addressed : apdu.signing = some signing) :
    Ensures ((firmware env build).step device (.apdu apdu)) fun result =>
      signing.Answers env apdu device result.1 result.2 := by
  by_cases tooLong : signing.Refused apdu device.ctx
  · rw [step_refused addressed tooLong]
    apply Ensures.ok
    apply Signing.Answers.refused tooLong
    · simp [Device.throw]
    · simp [Device.throw]
    · simp [Device.throw, Outcome.caught]
  · by_cases last : apdu.p2 = P2_FINISH
    · rw [step_finished addressed tooLong last]
      apply Ensures.map
      constructor
      · intro outcome reviewed
        have raises := (signing.raises_review env (device.received apdu)
          (signing.finished apdu device.ctx)).value outcome reviewed
        exact .finished tooLong last outcome reviewed raises (by simp)
          (by simp) rfl
      · exact fun _ _ => trivial
    · rw [step_collected env addressed tooLong last]
      apply Ensures.ok
      apply Signing.Answers.collected tooLong last
      · simp [Device.throw]
      · simp [Device.throw]
      · simp [Device.throw, Outcome.caught, statusOf, SW_OK]

theorem serves_throw (received : Device build) (code : Nat)
    (screen : received.screen = device.screen) :
    Serves device (received.throw device.ctx code).caught.1
      (received.throw device.ctx code).caught.2 where
  length := by simp [Device.throw]
  txContext := by simp [Device.throw]
  screen := Or.inl (by simp [Device.throw, screen])
  hashed := by simp [Device.throw]

theorem serves_getPublicKey (p2 : UInt8) :
    Serves device (handleGetPublicKey env p2 device).caught.1
      (handleGetPublicKey env p2 device).caught.2 := by
  unfold handleGetPublicKey
  split_ifs
  · cases build with
    | nanoS =>
        exact {
          length := rfl
          txContext := rfl
          screen := Or.inr rfl
          hashed := by simp [displayAddress, Device.proceed] }
    | nanoX =>
        exact {
          length := by
            simp [displayAddress, Device.proceed, getOneAddress_ctx,
              Ctx.clearForPublicKey]
          txContext := by
            simp [displayAddress, Device.proceed, getOneAddress_ctx,
              Ctx.clearForPublicKey]
          screen := Or.inr rfl
          hashed := by simp [displayAddress, Device.proceed] }
  · exact {
      length := by
        simp [getPublicKey, Device.respond, getOneAddress_ctx,
          Ctx.clearForPublicKey]
      txContext := by
        simp [getPublicKey, Device.respond, getOneAddress_ctx,
          Ctx.clearForPublicKey]
      screen := Or.inl (by
        simp [getPublicKey, Device.respond, getOneAddress_screen])
      hashed := by simp [getPublicKey, Device.respond] }
  · exact {
      length := by simp [Device.throw, Ctx.clearForPublicKey]
      txContext := by simp [Device.throw, Ctx.clearForPublicKey]
      screen := Or.inl (by simp [Device.throw])
      hashed := by simp [Device.throw] }

/-- Any other request. -/
theorem step_other (other : apdu.signing = none) :
    Ensures ((firmware env build).step device (.apdu apdu)) fun result =>
      Serves device result.1 result.2 := by
  rw [step_apdu, dispatch_addressee]
  apply Ensures.map
  unfold Apdu.signing at other
  cases addressed : apdu.addressee with
  | none => exact Ensures.ok (serves_throw device _ _ rfl)
  | some handler =>
      cases handler with
      | getVersion =>
          apply Ensures.ok
          exact {
            length := rfl
            txContext := rfl
            screen := Or.inl rfl
            hashed := by simp [handleGetVersion, Device.respond] }
      | getPublicKey =>
          apply Ensures.ok
          have serves := serves_getPublicKey env (device.received apdu) apdu.p2
          exact ⟨serves.length, serves.txContext, serves.screen,
            serves.hashed⟩
      | signStaking => simp_all
      | signTx => simp_all

/-- A request that is neither for a signing instruction nor for the address
leaves the context alone. -/
theorem step_aside (other : apdu.signing = none)
    (aside : apdu.addressee ≠ some .getPublicKey) :
    Ensures ((firmware env build).step device (.apdu apdu)) fun result =>
      result.1.ctx = device.ctx ∧ result.1.screen = device.screen := by
  rw [step_apdu, dispatch_addressee]
  apply Ensures.map
  unfold Apdu.signing at other
  cases addressed : apdu.addressee with
  | none => exact Ensures.ok (by simp [Device.throw])
  | some handler =>
      cases handler with
      | getVersion =>
          exact Ensures.ok (by simp [handleGetVersion, Device.respond])
      | getPublicKey => exact absurd addressed aside
      | signStaking => simp_all
      | signTx => simp_all

variable (press : Press)

theorem step_press :
    (firmware env build).step device (.press press) =
      (pressed env build device press).map Outcome.caught :=
  rfl

/-- A press outside the reviews. -/
theorem step_press_outside (silent : device.screen.signs = false) :
    Ensures ((firmware env build).step device (.press press)) fun result =>
      result.1.screen.signs = false ∧ Serves device result.1 result.2 := by
  rw [step_press]
  apply Ensures.map
  apply (idles_pressed env device press silent).mono
  · intro outcome idles
    have quiet : outcome.caught.1.screen.signs = false := by
      simp [idles.screen]
    exact ⟨quiet, by simp [idles.length], by simp [idles.txContext],
      Or.inr quiet, by simp [idles.hashed]⟩
  · exact fun _ _ => trivial

/-- A press outside the reviews and the comparison of the address. -/
theorem step_press_aside (silent : device.screen.signs = false)
    (elsewhere : device.screen.comparesAddress = false) :
    Ensures ((firmware env build).step device (.press press)) fun result =>
      result.1.ctx = device.ctx := by
  rw [step_press]
  apply Ensures.map
  apply (ctx_pressed env device press silent elsewhere).mono
  · intro outcome same
    rw [caught_ctx, same]
  · exact fun _ _ => trivial

/-- The press that takes up the review of a transfer on the Nano S, which is
when the transfer is parsed. -/
def Device.TakesUp (device : Device build) (press : Press) : Prop :=
  build = .nanoS ∧ device.screen = .signTxApprove ∧ press = .releasedRight

instance (device : Device build) (press : Press) :
    Decidable (device.TakesUp press) :=
  inferInstanceAs (Decidable (_ ∧ _))

/-- A press of a review. -/
structure Reviews (device : Device build) (press : Press)
    (next : Device build) (outputs : List Effect) : Prop where
  buf : next.ctx.buf = device.ctx.buf
  length : next.ctx.length = device.ctx.length
  screen : next.screen.signs ∨ next.screen = .idle
  hashed : ∀ bytes, .hash bytes ∈ outputs -> bytes = device.ctx.message
  parsed : device.TakesUp press ->
    ∃ code, processTx device.ctx.buf device.ctx.txContext =
      .ok (code, next.ctx.txContext)
  txContext : ¬device.TakesUp press ->
    next.ctx.txContext = device.ctx.txContext

theorem Outcome.Continues.reviews {device : Device build}
    {outcome : Outcome build} {press : Press}
    (continues : outcome.Continues device)
    (leaves : ¬device.TakesUp press) :
    Reviews device press outcome.caught.1 outcome.caught.2 := by
  obtain ⟨display, ctx⟩ := continues.display
  exact {
    buf := by simp [ctx]
    length := by simp [ctx]
    screen := by simpa using continues.screen
    hashed := by simpa using continues.hashed
    parsed := fun takesUp => absurd takesUp leaves
    txContext := fun _ => by simp [ctx] }

theorem reviews_signTxApprove (device : Device .nanoS) (press : Press)
    (screen : device.screen = .signTxApprove) :
    Ensures (signTxApproveButton device press) fun outcome =>
      Reviews device press outcome.caught.1 outcome.caught.2 := by
  have signs : device.screen.signs := by rw [screen]; rfl
  have other : press ≠ .releasedRight -> ¬device.TakesUp press :=
    fun other takesUp => other takesUp.2.2
  unfold signTxApproveButton
  cases press with
  | releasedLeft =>
      exact Ensures.ok ((continues_reject device).reviews (other (by simp)))
  | releasedRight =>
      apply Ensures.bind parsed_processTx
      rintro ⟨code, after⟩ parsed
      apply Ensures.bind_any
      intro addressed
      apply Ensures.bind_any
      intro copied
      apply Ensures.bind_any
      intro display
      apply Ensures.pure
      exact {
        buf := parsed.buf
        length := parsed.length
        screen := Or.inl rfl
        hashed := by simp [Outcome.caught, Device.proceed]
        parsed := fun _ => ⟨code, parsed.parse⟩
        txContext := fun leaves => absurd ⟨rfl, screen, rfl⟩ leaves }
  | _ =>
      exact Ensures.ok ((continues_same device signs).reviews
        (other (by simp)))

/-- A press of a review keeps the message and hashes nothing else. -/
theorem step_press_review (signs : device.screen.signs) :
    Ensures ((firmware env build).step device (.press press)) fun result =>
      Reviews device press result.1 result.2 := by
  rw [step_press]
  apply Ensures.map
  by_cases screen : device.screen = .signTxApprove
  · cases build with
    | nanoS =>
        show Ensures (pressNanoS env device press) _
        unfold pressNanoS
        simp only [screen]
        exact reviews_signTxApprove device press screen
    | nanoX =>
        show Ensures (pressNanoX env device press) _
        unfold pressNanoX
        simp only [screen]
        exact Ensures.ok ((continues_same device signs).reviews
          fun takesUp => by cases takesUp.1)
  · apply (continues_pressed env device press signs screen).mono
    · exact fun outcome continues =>
        continues.reviews fun takesUp => screen takesUp.2.1
    · exact fun _ _ => trivial

end Steps

end LedgerOne
