import LedgerOne.Decoder.Inside
import LedgerOne.Firmware.Requests

/-!
# The cursor of the parsers inside the received bytes

The parsers go on from wherever their cursor was left.  Only a first packet
puts the cursor back to the start of the buffer, so that every call of a parser
on a message that was parsed before, or for which there was no first packet,
starts outside of the bytes it is told to read.
-/

namespace LedgerOne

/-! ## Parser calls -/

namespace Signing

variable (signing : Signing)

/-- The end of the fields of an instruction. -/
def done (context : TxContext) : Bool :=
  match signing with
  | .tx => context.txCurrentField = .done
  | .staking => context.stakeCurrentField = .done

/-- The `switch` of the parser. -/
def handle (buf : Region 1024) : Body Fault TxContext (Int × TxContext) :=
  match signing with
  | .tx => handleTxField buf
  | .staking => handleStakingField buf

theorem parse_eq (buf : Region 1024) (context : TxContext) :
    signing.parse buf context =
      runParser (mainLoop buf signing.done (signing.handle buf)) context := by
  cases signing <;> rfl

theorem moves_handle (buf : Region 1024) (context : TxContext) :
    Ensures (signing.handle buf context)
      (fun flow => Moves context (contextAfter flow))
      (HandlerFault context) := by
  cases signing with
  | tx => exact moves_handleTxField buf context
  | staking => exact moves_handleStakingField buf context

/-- At every step of the parser the cursor and the remaining length add up to
the length of the message, header bytes stay in the header buffer, and no byte
is read outside of the buffer. -/
def StaysInside (ctx : Ctx build) : Prop :=
  RunInside ctx.buf signing.done (signing.handle ctx.buf) ctx.length
    ctx.txContext

end Signing

/-- The parser call that an event makes, and the context on which it is
made. -/
def Device.parserCall (device : Device build) :
    Event -> Option (Signing × Ctx build)
  | .apdu apdu =>
      match apdu.signing with
      | none => none
      | some signing =>
          if signing.parsesAtOnce build ∧
              ¬signing.Refused apdu device.ctx ∧ apdu.p2 = P2_FINISH then
            some (signing, signing.finished apdu device.ctx)
          else none
  | .press press =>
      if device.TakesUp press then some (.tx, device.ctx) else none

/-- The parser is called on a message from its start: a packet that finishes a
message is the first one of its session or finds the cursor at the start of
the buffer, and a transfer that the Nano S parses when its review is taken up
has been finished, and nothing was collected since. -/
def Device.StartsWhole (device : Device build) : Event -> Prop
  | .apdu apdu => apdu.signing ≠ none -> apdu.p2 = P2_FINISH ->
      apdu.p1 = P1_FIRST ∨ device.ctx.txContext.workBuffer = some 0
  | .press press => device.TakesUp press ->
      device.ctx.txContext.workBuffer = some 0 ∧
        device.ctx.txContext.commandLength = device.ctx.length

/-! ## What every run keeps -/

section Runs

variable {env : Env} {device : Device build}

theorem length_opened_le (signing : Signing) (apdu : Apdu) {ctx : Ctx build}
    (small : ctx.length ≤ 1020) :
    (signing.opened apdu ctx).length ≤ 1020 := by
  unfold Signing.opened
  split
  · simp [Ctx.clearFor]
  · exact small

theorem length_collected_le {signing : Signing} {apdu : Apdu}
    {ctx : Ctx build} (fits : ¬signing.Refused apdu ctx) :
    (signing.collected apdu ctx).length ≤ 1020 := by
  have bound : ¬255 * 4 <
      (signing.opened apdu ctx).length + apdu.data.length := fits
  show (signing.opened apdu ctx).length + apdu.data.length ≤ 1020
  omega

theorem atStart_opened (signing : Signing) (apdu : Apdu) {ctx : Ctx build}
    (start : AtStart ctx.txContext) :
    AtStart (signing.opened apdu ctx).txContext := by
  unfold Signing.opened
  split
  · exact fun _ => rfl
  · exact start

theorem atStart_parserContext (signing : Signing) (length : Nat)
    {context : TxContext} (start : AtStart context) :
    AtStart (signing.parserContext context length) := by
  cases signing <;> exact start

theorem atStart_parse (signing : Signing) {buf : Region 1024}
    {before after : TxContext} {code : Int} (start : AtStart before)
    (parsed : signing.parse buf before = .ok (code, after)) :
    AtStart after := by
  rw [signing.parse_eq] at parsed
  exact (runParser_atStart (signing.moves_handle buf) start).value _ parsed

theorem atStart_leaves {signing : Signing} {ctx : Ctx build}
    {context : TxContext} (start : AtStart ctx.txContext)
    (leaves : signing.Leaves ctx context) : AtStart context := by
  unfold Signing.Leaves at leaves
  split at leaves
  · obtain ⟨code, parsed⟩ := leaves
    exact atStart_parse signing start parsed
  · rw [leaves]
    exact start

/-- The length and the parser context of a device that runs. -/
structure Sane (device : Device build) : Prop where
  length : device.ctx.length ≤ 1020
  atStart : AtStart device.ctx.txContext

theorem sane_signing (sane : Sane device) {signing : Signing} {apdu : Apdu}
    {next : Device build} {outputs : List Effect}
    (answers : signing.Answers env apdu device next outputs) : Sane next := by
  have opened := atStart_opened signing apdu sane.atStart
  cases answers with
  | refused _ ctx =>
      constructor
      · rw [ctx]
        exact length_opened_le signing apdu sane.length
      · rw [ctx]
        exact opened
  | collected fits _ ctx =>
      constructor
      · rw [ctx]
        exact length_collected_le fits
      · rw [ctx]
        exact opened
  | finished fits _ outcome _ raises ctx =>
      constructor
      · rw [ctx, raises.length]
        exact length_collected_le fits
      · rw [ctx]
        exact atStart_leaves (atStart_parserContext signing _ opened)
          raises.txContext

theorem sane_step (event : Event) (sane : Sane device) :
    Ensures ((firmware env build).step device event) fun result =>
      Sane result.1 := by
  have same : ∀ next : Device build, next.ctx.length = device.ctx.length ->
      next.ctx.txContext = device.ctx.txContext -> Sane next := by
    intro next length txContext
    exact ⟨length ▸ sane.length, txContext ▸ sane.atStart⟩
  cases event with
  | apdu apdu =>
      cases addressed : apdu.signing with
      | none =>
          exact (step_other env apdu device addressed).mono
            (fun result serves => same _ serves.length serves.txContext)
            fun _ _ => trivial
      | some signing =>
          exact (step_signing env apdu device addressed).mono
            (fun result answers => sane_signing sane answers)
            fun _ _ => trivial
  | press press =>
      cases signs : device.screen.signs with
      | false =>
          exact (step_press_outside env device press signs).mono
            (fun result serves => same _ serves.2.length serves.2.txContext)
            fun _ _ => trivial
      | true =>
          apply (step_press_review env device press signs).mono
          · intro result reviews
            by_cases takesUp : device.TakesUp press
            · obtain ⟨code, parsed⟩ := reviews.parsed takesUp
              exact ⟨reviews.length ▸ sane.length,
                atStart_parse .tx sane.atStart parsed⟩
            · exact same _ reviews.length (reviews.txContext takesUp)
          · exact fun _ _ => trivial

/-- The parser call of a step is the one that leaves its parser context. -/
theorem parserCall_parses (event : Event) {signing : Signing}
    {ctx : Ctx build}
    (call : device.parserCall event = some (signing, ctx)) :
    Ensures ((firmware env build).step device event) fun result =>
      ∃ code, signing.parse ctx.buf ctx.txContext =
        .ok (code, result.1.ctx.txContext) := by
  cases event with
  | apdu apdu =>
      unfold Device.parserCall at call
      dsimp only at call
      split at call
      next => cases call
      next other addressed =>
        split at call
        next conditions =>
          cases call
          obtain ⟨atOnce, fits, last⟩ := conditions
          apply (step_signing env apdu device addressed).mono
          · intro result answers
            cases answers with
            | refused tooLong => exact absurd tooLong fits
            | collected _ more => exact absurd last more
            | finished _ _ outcome _ raises ctx =>
                have leaves := raises.txContext
                rw [Signing.Leaves, if_pos atOnce] at leaves
                rwa [ctx]
          · exact fun _ _ => trivial
        next => cases call
  | press press =>
      unfold Device.parserCall at call
      dsimp only at call
      split at call
      next takesUp =>
        cases call
        have signs : device.screen.signs := by rw [takesUp.2.1]; rfl
        exact (step_press_review env device press signs).mono
          (fun result reviews => reviews.parsed takesUp) fun _ _ => trivial
      next => cases call

/-- A parser that is called on a message from its start stays inside. -/
theorem staysInside_of_startsWhole (sane : Sane device) {event : Event}
    (whole : device.StartsWhole event) {signing : Signing} {ctx : Ctx build}
    (call : device.parserCall event = some (signing, ctx)) :
    signing.StaysInside ctx := by
  have inside : ctx.length ≤ 1020 -> ctx.txContext.workBuffer = some 0 ->
      ctx.txContext.commandLength = ctx.length -> AtStart ctx.txContext ->
      signing.StaysInside ctx := by
    intro small cursor commandLength start
    apply runInside_of_head (by omega) (signing.moves_handle ctx.buf)
    constructor
    · exact ⟨0, cursor, by omega⟩
    · rw [start cursor]
      decide
  cases event with
  | apdu apdu =>
      unfold Device.parserCall at call
      dsimp only at call
      split at call
      next => cases call
      next other addressed =>
        split at call
        next conditions =>
          cases call
          obtain ⟨_, fits, last⟩ := conditions
          have cursor : (signing.opened apdu device.ctx).txContext.workBuffer =
              some 0 := by
            unfold Signing.opened
            split
            · rfl
            · next later => exact (whole (by simp [addressed]) last).resolve_left later
          have start := atStart_parserContext signing
            (signing.collected apdu device.ctx).length
            (atStart_opened signing apdu sane.atStart)
          apply inside (length_collected_le fits) _ _ start
          · cases signing <;> exact cursor
          · cases signing <;> rfl
        next => cases call
  | press press =>
      unfold Device.parserCall at call
      dsimp only at call
      split at call
      next takesUp =>
        cases call
        obtain ⟨cursor, commandLength⟩ := whole takesUp
        exact inside sane.length cursor commandLength sane.atStart
      next => cases call

/-- For a packet the condition is also necessary. -/
theorem startsWhole_of_staysInside {apdu : Apdu} {signing : Signing}
    {ctx : Ctx build}
    (call : device.parserCall (.apdu apdu) = some (signing, ctx))
    (inside : signing.StaysInside ctx) : device.StartsWhole (.apdu apdu) := by
  unfold Device.parserCall at call
  dsimp only at call
  split at call
  next => cases call
  next other addressed =>
    split at call
    next conditions =>
      cases call
      intro _ _
      obtain ⟨position, cursor, total⟩ :=
        (inside _ Relation.ReflTransGen.refl).before
      have whole : (signing.finished apdu device.ctx).txContext.commandLength =
          (signing.finished apdu device.ctx).length := by
        cases signing <;> rfl
      obtain rfl : position = 0 := by omega
      have opened : (signing.opened apdu device.ctx).txContext.workBuffer =
          some 0 := by
        cases signing <;> exact cursor
      unfold Signing.opened at opened
      split at opened
      · exact Or.inl ‹_›
      · exact Or.inr opened
    next => cases call

end Runs

/-- In every run in which each parser call is made on a message from its
start, every parser stays inside the received bytes. -/
theorem parser_staysInside {env : Env} {device : Device build}
    {events : List Event}
    (reached : (firmware env build).Reaches Device.StartsWhole
      (Device.boot build) events device)
    {event : Event} (whole : device.StartsWhole event)
    {signing : Signing} {ctx : Ctx build}
    (call : device.parserCall event = some (signing, ctx)) :
    signing.StaysInside ctx := by
  have booted : Sane (Device.boot build) := by
    constructor
    · exact Nat.zero_le _
    · exact fun _ => rfl
  have sane : Sane device :=
    reached.invariant Sane booted fun _ event sane _ => sane_step event sane
  exact staysInside_of_startsWhole sane whole call

/-- A message of one byte, in a first packet with more to come. -/
def openedList : Apdu := Signing.tx.packet P1_FIRST 0 [0xc0]

/-- The last packet of a message, without data. -/
def lastPacket : Apdu := Signing.tx.packet P1_MORE P2_FINISH []

/-- The last packet calls the parser of a Nano X. -/
theorem parserCall_lastPacket (device : Device .nanoX)
    (small : device.ctx.length ≤ 1020) :
    device.parserCall (.apdu lastPacket) =
      some (.tx, Signing.tx.finished lastPacket device.ctx) := by
  have fits : ¬Signing.tx.Refused lastPacket device.ctx := by
    show ¬255 * 4 < device.ctx.length + 0
    omega
  unfold Device.parserCall
  dsimp only
  rw [show lastPacket.signing = some .tx from rfl]
  exact if_pos ⟨rfl, fits, rfl⟩

/-- On the Nano X the parser of a message in two packets stays inside. -/
theorem parser_staysInside_twoPackets :
    ∃ device : Device .nanoX, ∃ ctx,
      device.parserCall (.apdu lastPacket) = some (.tx, ctx) ∧
        Signing.tx.StaysInside ctx := by
  obtain ⟨⟨device, outputs⟩, opens, seen⟩ := exists_of_view
    (fun result => (result.1.ctx.txContext.workBuffer, result.1.ctx.length))
    (show ((firmware (.ofTables [] []) .nanoX).step (.boot .nanoX)
      (.apdu openedList)).toOption.map _ = some (some 0, 1) by decide +kernel)
  have cursor : device.ctx.txContext.workBuffer = some 0 :=
    congrArg Prod.fst seen
  have length : device.ctx.length = 1 := congrArg Prod.snd seen
  have reached := Machine.Reaches.step Machine.Reaches.start
    (show Device.StartsWhole _ (.apdu openedList) from
      fun _ last => absurd last (by decide)) opens
  have whole : device.StartsWhole (.apdu lastPacket) :=
    fun _ _ => Or.inr cursor
  have call := parserCall_lastPacket device (by omega)
  exact ⟨device, _, call, parser_staysInside reached whole call⟩

/-! ## A message finished twice -/

/-- A finished message of one byte, the header of an empty list. -/
def emptyList : Apdu := Signing.tx.packet P1_FIRST P2_FINISH [0xc0]

/-- On the Nano X a message that is finished twice is read past its end. -/
theorem not_staysInside_secondFinish :
    ∃ device, (firmware (.ofTables [] []) .nanoX).Reaches (fun _ _ => True)
        (Device.boot .nanoX) [.apdu emptyList] device ∧
      ∃ signing ctx, device.parserCall (.apdu lastPacket) =
          some (signing, ctx) ∧
        ¬signing.StaysInside ctx := by
  obtain ⟨⟨device, outputs⟩, finishes, seen⟩ := exists_of_view
    (fun result => (result.1.ctx.txContext.workBuffer, result.1.ctx.length))
    (show ((firmware (.ofTables [] []) .nanoX).step (.boot .nanoX)
      (.apdu emptyList)).toOption.map _ = some (some 1, 1) by decide +kernel)
  have cursor : device.ctx.txContext.workBuffer = some 1 :=
    congrArg Prod.fst seen
  have length : device.ctx.length = 1 := congrArg Prod.snd seen
  have call := parserCall_lastPacket device (by omega)
  refine ⟨device, .step .start trivial finishes, .tx, _, call, ?_⟩
  intro inside
  obtain first | atStart :=
    startsWhole_of_staysInside call inside (by decide) rfl
  · exact absurd first (by decide)
  · rw [cursor] at atStart
    cases atStart

end LedgerOne
