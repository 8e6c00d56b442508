import LedgerOne.Decoder.Progress
import LedgerOne.Decoder.StakingReader
import LedgerOne.Decoder.Transfer

/-!
# The rounds of the main loops

Every round of a main loop that goes on has consumed bytes for good or moved
to a later field, whatever the lengths and the counts that the headers claim.
The remaining bytes and the remaining fields therefore bound the rounds.
-/

namespace LedgerOne

open Rlp

/-! ## The orders of the fields -/

/-- The fields of a transfer, in their order; behind them comes the end. -/
def transferOrder : List RlpTxField :=
  [.content, .nonce, .gasprice, .gaslimit, .fromshard, .toshard, .to, .amount]

/-- The fields of the staking messages in one order that agrees with the order
of each directive, and the field that no directive has but the `switch` handles;
behind them comes the end. -/
def stakingOrder : List RlpStakingField :=
  [.content, .directive, .stakemessage, .delegatoraddr, .validatoraddr,
    .description, .name, .identity, .website, .securitycontact, .details,
    .commissionrates, .rate, .rateValue, .maxrate, .maxrateValue,
    .maxchangerate, .maxchangerateValue, .minselfdelegation,
    .maxtotaldelegation, .slotpubkeys, .blspubkey, .slotkeytoremove,
    .slotkeytoadd, .blssigs, .blssignature, .slotkeytoaddsignature,
    .editactive, .amount, .nonce]

/-- The place of the current field of a transfer. -/
def transferPlace (context : TxContext) : Nat :=
  transferOrder.idxOf context.txCurrentField

/-- The place of a field in the order. -/
def RlpStakingField.place (field : RlpStakingField) : Nat :=
  stakingOrder.idxOf field

/-- The place of the current field of a staking message. -/
def stakingPlace (context : TxContext) : Nat :=
  context.stakeCurrentField.place

/-- Bytes are consumed for good, or the field is a later one, and neither is
undone. -/
structure Later (place : TxContext -> Nat) (before after : TxContext) :
    Prop where
  remaining : after.commandLength ≤ before.commandLength
  forward : place before ≤ place after
  strict : after.commandLength < before.commandLength ∨
    place before < place after

/-- There are no bytes left, or no field is half read, or the last one has
been read. -/
def Settled (done : TxContext -> Bool) (context : TxContext) : Prop :=
  context.commandLength = 0 ∨ context.processingField = false ∨
    done context = true

/-- A context in which a round may begin. -/
structure Between (done : TxContext -> Bool) (context : TxContext) : Prop where
  readable : Readable context
  rlpBufferPos : context.rlpBufferPos = 0
  settled : Settled done context

/-- What a field handler does with a header before it. -/
structure Steps (done : TxContext -> Bool) (place : TxContext -> Nat)
    (ready after : TxContext) : Prop where
  forward : place ready ≤ place after
  strict : 0 < ready.copySize ->
    after.commandLength < ready.commandLength ∨ place ready < place after
  settled : Settled done after

/-! ## One round -/

section Round

variable {buf : Region 1024} {done : TxContext -> Bool}
  {handle : Body Fault TxContext (Int × TxContext)}
  {place : TxContext -> Nat}

theorem Moves.readable {before after : TxContext}
    (moves : Moves before after) (readable : Readable before) :
    Readable after := by
  obtain ⟨position, cursor, inside⟩ := readable
  obtain ⟨count, within, moved, rest⟩ := moves.cursor
  refine ⟨position + count, ?_, ?_⟩
  · rw [moved, cursor]
    rfl
  · omega

/-- A header takes a byte of the stream, unless it is the byte of its own
payload. -/
theorem length_body_lt_or {stream body : List UInt8} {isList : Bool}
    {length : Nat} (decoded : readHeader stream = .header isList length body) :
    body.length < stream.length ∨ 0 < length ∧ 0 < body.length := by
  cases stream with
  | nil => simp at decoded
  | cons first bytes =>
      simp only [readHeader, readLength] at decoded
      split_ifs at decoded <;>
        simp only [HeaderRead.header.injEq] at decoded <;>
        obtain ⟨-, rfl, rfl⟩ := decoded <;>
        simp only [List.length_drop, List.length_cons] <;>
        omega

/-- With bytes left a header is read next. -/
theorem Between.exists_clean {context : TxContext}
    (between : Between done context) (buf : Region 1024)
    (goesOn : done context = false) (available : context.commandLength ≠ 0) :
    ∃ stream, Clean buf context stream := by
  obtain ⟨position, cursor, inside⟩ := between.readable
  have idle : context.processingField = false :=
    (between.settled.resolve_left available).resolve_right (by simp [goesOn])
  exact ⟨buf.read position context.commandLength,
    ⟨position, cursor, by rwa [Region.length_read],
      (Region.length_read ..).symm, by rw [Region.length_read]⟩,
    idle, between.rlpBufferPos⟩

/-- A round that goes on leaves a later context, and the only fault is a field
that overruns its array. -/
theorem ensures_round
    (keeps : ∀ before after, SameProgress before after ->
      place after = place before)
    (moves : ∀ ready, Ensures (handle ready)
      (fun flow => Moves ready (contextAfter flow)) (HandlerFault ready))
    (steps : ∀ ready, ready.processingField = true ->
      ready.currentFieldPos ≤ ready.currentFieldLength ->
      Ensures (handle ready)
        (Body.after (Steps done place ready) fun _ => True))
    {context : TxContext} (between : Between done context) :
    Ensures (mainLoop buf done handle context)
      (Body.after (fun next => Between done next ∧ Later place context next)
        fun _ => True)
      fun fault => fault = .fieldOverrun := by
  by_cases finished : done context = true
  · rw [mainLoop_of_done finished]
    exact Ensures.ok True.intro
  have goesOn : done context = false := by simpa using finished
  by_cases exhausted : context.commandLength = 0
  · rw [mainLoop_of_exhausted goesOn exhausted]
    exact Ensures.ok True.intro
  obtain ⟨stream, clean⟩ := between.exists_clean buf goesOn exhausted
  have whole := clean.holds.commandLength_eq
  cases decoded : readHeader stream with
  | header isList length body =>
      obtain ⟨ready, atField, round⟩ :=
        mainLoop_of_header handle clean goesOn decoded
      have readable : Readable ready := by
        obtain ⟨start, at_, within, rest, _⟩ := atField.holds
        exact ⟨start, at_, by omega⟩
      have moved := moves ready
      have stepped := steps ready atField.processing
        (by rw [atField.currentFieldPos]; exact Nat.zero_le _)
      have samePlace := keeps _ _ atField.same
      have remaining := atField.holds.commandLength_eq
      have copied := atField.copySize_eq
      rw [round]
      refine ⟨fun flow ends => ?_, fun fault faults => ?_⟩
      · cases flow with
        | exit result => exact True.intro
        | again next =>
            have steps : Steps done place ready next := stepped.value _ ends
            have moves : Moves ready next := moved.value _ ends
            obtain ⟨count, within, _, rest⟩ := moves.cursor
            refine ⟨⟨moves.readable readable,
              moves.rlpBufferPos.trans atField.rlpBufferPos, steps.settled⟩,
              ?_⟩
            have shorter := length_body_le decoded
            refine ⟨by omega, samePlace ▸ steps.forward, ?_⟩
            obtain consumed | ⟨announced, available⟩ :=
              length_body_lt_or decoded
            · exact Or.inl (by omega)
            · obtain taken | later := steps.strict (by omega)
              · exact Or.inl (by omega)
              · exact Or.inr (samePlace ▸ later)
      · exact (moved.fault _ faults).resolve_right (not_not.mpr readable)
  | _ =>
      obtain ⟨code, left, _, round⟩ : ∃ code left, code ≠ 0 ∧
          mainLoop buf done handle context = .ok (.exit (code, left)) :=
        mainLoop_of_undecoded clean goesOn (by rw [decoded]; simp)
      rw [round]
      exact Ensures.ok True.intro

/-- What a later context has left to do. -/
theorem Later.measure_lt {before after : TxContext} {limit : Nat}
    (later : Later place before after) (bound : place after ≤ limit) :
    after.commandLength + (limit - place after) <
      before.commandLength + (limit - place before) := by
  obtain ⟨remaining, forward, consumed | further⟩ := later
  · omega
  · omega

/-- The loop ends within the remaining bytes and the places that are left. -/
theorem loop_ends {body : Body Fault TxContext (Int × TxContext)}
    {limit : Nat} (bound : ∀ context, place context ≤ limit)
    (round : ∀ context, Between done context -> Ensures (body context)
      (Body.after (fun next => Between done next ∧ Later place context next)
        fun _ => True) fun fault => fault = .fieldOverrun)
    {start : TxContext} (between : Between done start) :
    (∀ visited next, body.Visits start visited -> body.Round visited next ->
      Later place visited next) ∧
    ∃ result, body.run
        (start.commandLength + (limit - place start) + 1) start =
          some result ∧
      Ensures result (fun _ => True) fun fault => fault = .fieldOverrun := by
  constructor
  · intro visited next visits goes
    have good : Between done visited := visits.invariant
      (fun state next holds goes => ((round state holds).value _ goes).1)
      between
    exact ((round visited good).value _ goes).2
  · have ends := Body.run_isSome_of_measure (Between done)
      (fun context => context.commandLength + (limit - place context))
      (fun state next holds goes =>
        have after := (round state holds).value _ goes
        ⟨after.1, after.2.measure_lt (bound next)⟩)
      _ start between (Nat.lt_succ_self _)
    obtain ⟨result, run⟩ := Option.isSome_iff_exists.mp ends
    have kept : ∀ state, Between done state -> Ensures (body state)
        (Body.after (Between done) fun _ => True)
        fun fault => fault = .fieldOverrun := by
      intro state holds
      apply (round state holds).mono
      · intro flow
        cases flow with
        | again next => exact And.left
        | exit result => exact id
      · exact fun _ => id
    exact ⟨result, run, Body.ensures_run kept between run⟩

end Round

/-! ## The field handlers -/

/-- What a handler that takes bytes leaves: the field is the same one or, when
it is complete, the next. -/
structure Taken (ready after : TxContext) (stake : RlpStakingField)
    (tx : RlpTxField) : Prop where
  consumes : 0 < ready.copySize ->
    after.commandLength < ready.commandLength
  settled : after.commandLength = 0 ∨ after.processingField = false
  stakeCurrentField : after.stakeCurrentField = ready.stakeCurrentField ∨
    after.stakeCurrentField = stake
  txCurrentField : after.txCurrentField = ready.txCurrentField ∨
    after.txCurrentField = tx

section Handlers

variable (buf : Region 1024) {ready : TxContext} {stake : RlpStakingField}
  {tx : RlpTxField}

/-- Copying a field takes what there is of it. -/
theorem ensures_copyField (out : Option Store)
    (processing : ready.processingField = true) :
    Ensures (copyField buf out ready) fun copied =>
      copied.commandLength = ready.commandLength - ready.copySize ∧
      copied.currentFieldPos = ready.currentFieldPos + ready.copySize ∧
      copied.currentFieldLength = ready.currentFieldLength ∧
      copied.stakeCurrentField = ready.stakeCurrentField ∧
      copied.txCurrentField = ready.txCurrentField := by
  unfold copyField
  apply Ensures.ite
  · intro _
    have moved : (if ready.processingField then
        ready.currentFieldPos + ready.copySize else ready.currentFieldPos) =
          ready.currentFieldPos + ready.copySize := if_pos processing
    unfold copyTxData
    split
    · exact Ensures.error True.intro
    · dsimp only
      split
      · exact Ensures.ok ⟨rfl, moved, rfl, rfl, rfl⟩
      · split
        · exact Ensures.error True.intro
        · split
          · exact Ensures.error True.intro
          · exact Ensures.ok ⟨rfl, moved, rfl, rfl, rfl⟩
  · intro complete
    have none : ready.copySize = 0 := by
      unfold TxContext.copySize
      split <;> omega
    rw [none]
    exact Ensures.ok ⟨rfl, rfl, rfl, rfl, rfl⟩

/-- A handler that takes bytes takes the field or all there is of it. -/
theorem taken_takeField (out : Option Store)
    {record : TxContext -> TxContext}
    (processing : ready.processingField = true)
    (inside : ready.currentFieldPos ≤ ready.currentFieldLength)
    (keeps : ∀ complete,
      (record complete).commandLength = complete.commandLength)
    (stakes : ∀ complete,
      complete.stakeCurrentField = ready.stakeCurrentField ->
        (record complete).stakeCurrentField = stake)
    (txs : ∀ complete, complete.txCurrentField = ready.txCurrentField ->
      (record complete).txCurrentField = tx) :
    Ensures (takeField buf out record ready) fun after =>
      Taken ready after stake tx := by
  apply Ensures.bind (ensures_copyField buf out processing)
  rintro copied ⟨rest, position, length, sameStake, sameTx⟩
  apply Ensures.pure
  have within := ready.copySize_le
  unfold finishField
  split
  · next complete =>
    exact ⟨fun some => by dsimp only; rw [keeps]; omega, Or.inr rfl,
      Or.inr (stakes _ sameStake), Or.inr (txs _ sameTx)⟩
  · next cutOff =>
    have all : ready.copySize = ready.commandLength := by
      unfold TxContext.copySize at position ⊢
      split at position
      · next short => rw [if_pos short]
      · omega
    exact ⟨fun some => by omega, Or.inl (by omega), Or.inl sameStake,
      Or.inl sameTx⟩

variable (processing : ready.processingField = true)
  (inside : ready.currentFieldPos ≤ ready.currentFieldLength)

include processing inside

/-- The handlers that advance both enumerations. -/
theorem taken_advanceBoth (out : Option Store)
    (set : TxContext -> TxContent) :
    Ensures (takeField buf out
        (fun complete => advanceBoth { complete with content := set complete })
        ready) fun after =>
      Taken ready after ready.stakeCurrentField.next
        ready.txCurrentField.next :=
  taken_takeField buf out processing inside (fun _ => rfl)
    (fun _ same => congrArg RlpStakingField.next same)
    fun _ same => congrArg RlpTxField.next same

theorem taken_processInt256 (address : Nat) (get : TxContent -> TxInt256)
    (set : TxInt256 -> TxContent -> TxContent) :
    Ensures (processInt256 buf address get set ready) fun after =>
      Taken ready after ready.stakeCurrentField.next
        ready.txCurrentField.next :=
  taken_advanceBoth buf processing inside _ _

theorem taken_processBytes (address : Nat) (get : TxContent -> Region size)
    (set : Region size -> TxContent -> TxContent) :
    Ensures (processBytes buf address get set ready) fun after =>
      Taken ready after ready.stakeCurrentField.next
        ready.txCurrentField.next :=
  taken_advanceBoth buf processing inside _ TxContext.content

theorem taken_processSkippedString :
    Ensures (processSkippedString buf ready) fun after =>
      Taken ready after ready.stakeCurrentField.next
        ready.txCurrentField.next :=
  taken_advanceBoth buf processing inside none TxContext.content

theorem taken_processDirective :
    Ensures (processDirective buf ready) fun after =>
      Taken ready after ready.stakeCurrentField.next ready.txCurrentField :=
  taken_takeField buf _ processing inside (fun _ => rfl)
    (fun _ same => congrArg RlpStakingField.next same) fun _ same => same

theorem taken_processBlsData (out : Option Store) :
    Ensures (processBlsData buf out ready) fun after =>
      Taken ready after ready.stakeCurrentField.next ready.txCurrentField :=
  taken_takeField buf out processing inside (fun _ => rfl)
    (fun _ same => congrArg RlpStakingField.next same) fun _ same => same

theorem taken_processShard (address : Nat) (get : TxContent -> Nat)
    (set : Nat -> TxContent -> TxContent) :
    Ensures (processShard buf address get set ready) fun after =>
      Taken ready after ready.stakeCurrentField ready.txCurrentField.next :=
  taken_takeField buf _ processing inside (fun _ => rfl)
    (fun _ same => same) fun _ same => congrArg RlpTxField.next same

end Handlers

/-! ## Transfers -/

section Steps

variable {done : TxContext -> Bool} {ready after : TxContext}
  {stake : RlpStakingField} {tx : RlpTxField}

theorem transferPlace_le (context : TxContext) : transferPlace context ≤ 8 :=
  List.idxOf_le_length

theorem stakingPlace_le (context : TxContext) : stakingPlace context ≤ 30 :=
  List.idxOf_le_length

theorem Taken.settled_or (taken : Taken ready after stake tx) :
    Settled done after :=
  taken.settled.imp_right Or.inl

/-- Taking bytes of the current field of a transfer. -/
theorem Taken.steps_transfer (taken : Taken ready after stake tx)
    (forward : transferPlace ready ≤ transferOrder.idxOf tx) :
    Steps done transferPlace ready after where
  forward := by
    obtain same | next := taken.txCurrentField
    · rw [transferPlace, transferPlace, same]
    · rw [← next] at forward
      exact forward
  strict some := Or.inl (taken.consumes some)
  settled := taken.settled_or

/-- Taking bytes of the current field of a staking message. -/
theorem Taken.steps_staking (taken : Taken ready after stake tx)
    (forward : stakingPlace ready ≤ stake.place) :
    Steps done stakingPlace ready after where
  forward := by
    obtain same | next := taken.stakeCurrentField
    · rw [stakingPlace, stakingPlace, same]
    · rw [← next] at forward
      exact forward
  strict some := Or.inl (taken.consumes some)
  settled := taken.settled_or

/-- The same before a jump to another field. -/
theorem Taken.steps_set (taken : Taken ready after stake tx)
    {next : TxContext} (remaining : next.commandLength = after.commandLength)
    (processing : next.processingField = after.processingField)
    (forward : stakingPlace ready ≤ stakingPlace next) :
    Steps done stakingPlace ready next where
  forward := forward
  strict some := Or.inl (remaining ▸ taken.consumes some)
  settled := taken.settled.imp remaining.trans
    fun finished => Or.inl (processing.trans finished)

theorem Taken.steps_goTo (taken : Taken ready after stake tx)
    {field : RlpStakingField} (forward : stakingPlace ready ≤ field.place) :
    Steps done stakingPlace ready (after.goTo field) :=
  taken.steps_set rfl rfl forward

/-- Entering what a header announces. -/
theorem steps_enter {place : TxContext -> Nat}
    (later : place ready < place after)
    (finished : after.processingField = false) :
    Steps done place ready after where
  forward := later.le
  strict _ := Or.inr later
  settled := Or.inr (Or.inl finished)

end Steps

section Switches

variable (buf : Region 1024) {ready : TxContext}
  (processing : ready.processingField = true)
  (inside : ready.currentFieldPos ≤ ready.currentFieldLength)

include processing inside

/-- The `switch` of `processTx`. -/
theorem steps_handleTxField {done : TxContext -> Bool} :
    Ensures (handleTxField buf ready)
      (Body.after (Steps done transferPlace ready) fun _ => True) := by
  have int256 := taken_processInt256 buf processing inside
  have shard := taken_processShard buf processing inside
  have skipped := taken_advanceBoth buf processing inside none
    TxContext.content
  have again : ∀ {handled : Except Fault TxContext} {stake tx},
      Ensures handled (fun after => Taken ready after stake tx) ->
      transferPlace ready ≤ transferOrder.idxOf tx ->
      Ensures (continueWith handled)
        (Body.after (Steps done transferPlace ready) fun _ => True) :=
    fun taken forward => Ensures.map (taken.mono
      (fun after taken => taken.steps_transfer forward) fun _ _ => trivial)
  unfold handleTxField
  cases field : ready.txCurrentField with
  | content =>
      apply Ensures.ok
      apply steps_enter
      · simp only [transferPlace, processContent, advanceBoth, field]
        decide
      · rfl
  | nonce => exact again skipped (by rw [transferPlace, field]; decide)
  | gasprice => exact again (int256 _ _ _) (by rw [transferPlace, field]; decide)
  | gaslimit => exact again (int256 _ _ _) (by rw [transferPlace, field]; decide)
  | fromshard => exact again (shard _ _ _) (by rw [transferPlace, field]; decide)
  | toshard => exact again (shard _ _ _) (by rw [transferPlace, field]; decide)
  | «to» =>
      exact again (taken_processBytes buf processing inside _ _ _)
        (by rw [transferPlace, field]; decide)
  | amount =>
      apply Ensures.map
      exact Ensures.trivial
  | _ => exact Ensures.ok True.intro

omit processing inside in
/-- The content plays no part in this. -/
theorem Taken.of_content {content : TxContent} {after : TxContext}
    {stake : RlpStakingField} {tx : RlpTxField}
    (taken : Taken { ready with content := content } after stake tx) :
    Taken ready after stake tx :=
  ⟨taken.consumes, taken.settled, taken.stakeCurrentField,
    taken.txCurrentField⟩

theorem taken_processName (content : TxContent) :
    Ensures (processName buf { ready with content := content }) fun after =>
      Taken ready after ready.stakeCurrentField.next
        ready.txCurrentField.next :=
  (@taken_processBytes buf { ready with content := content } processing
    inside _ _ _ _).mono (fun _ => Taken.of_content) fun _ => id

/-- A key of an edited validator, between its two captions. -/
theorem taken_captioned (offset : Nat) (caption : List UInt8)
    (shownAt : Nat) (text : Region 48 -> List UInt8) :
    Ensures (do
        let captioned ← writeBlsKeyStr offset caption ready.content
        let handled ← processBlsData buf
          (some (storeBlsPubKey ready.currentFieldPos))
          { ready with content := captioned }
        let shown ← writeBlsKeyStr shownAt (text handled.content.blsPubKey)
          handled.content
        return { handled with content := shown }) fun after =>
      Taken ready after ready.stakeCurrentField.next
        ready.txCurrentField := by
  apply Ensures.bind_any
  intro captioned
  apply Ensures.bind (@taken_processBlsData buf
    { ready with content := captioned } processing inside _)
  intro handled taken
  apply Ensures.bind_any
  intro shown
  exact Ensures.pure ⟨taken.consumes, taken.settled, taken.stakeCurrentField,
    taken.txCurrentField⟩

theorem taken_processSlotKeyToRemove :
    Ensures (processSlotKeyToRemove buf ready) fun after =>
      Taken ready after ready.stakeCurrentField.next ready.txCurrentField :=
  taken_captioned buf processing inside 0 (ascii "remove:") 7
    fun key => toHex key 10 ++ ascii "..."

theorem taken_processSlotKeyToAdd :
    Ensures (processSlotKeyToAdd buf ready) fun after =>
      Taken ready after ready.stakeCurrentField.next ready.txCurrentField :=
  taken_captioned buf processing inside 20 (ascii ",add:") 25
    fun key => toHex key 10 ++ ascii "..."

omit processing inside in
/-- Recording a key leaves the field or moves on to the signatures. -/
theorem steps_recordBlsPubKey {handled : TxContext}
    (taken : Taken ready handled .slotkeytoremove ready.txCurrentField)
    (field : ready.stakeCurrentField = .blspubkey) :
    Ensures (recordBlsPubKey handled)
      (Steps stakingDone stakingPlace ready) := by
  have steps : ∀ content, Steps stakingDone stakingPlace ready { handled with
      content := content
      currentBlsKeyIndex := handled.currentBlsKeyIndex + 1
      stakeCurrentField :=
        if handled.currentBlsKeyIndex + 1 = handled.content.blsPubKeySize
        then .blssigs else .blspubkey } := by
    intro content
    apply taken.steps_set
    · rfl
    · rfl
    · rw [stakingPlace, stakingPlace, field]
      dsimp only
      split
      · decide
      · decide
  unfold recordBlsPubKey
  apply Ensures.ite
  · intro _
    apply Ensures.bind_any
    intro content
    exact Ensures.pure (steps content)
  · intro _
    exact Ensures.ok (steps _)

/-- The `switch` of `processStaking`. -/
theorem steps_handleStakingField :
    Ensures (handleStakingField buf ready)
      (Body.after (Steps stakingDone stakingPlace ready) fun _ => True) := by
  have int256 := taken_processInt256 buf processing inside
  have skipped := taken_processSkippedString buf processing inside
  have blsData := taken_processBlsData buf processing inside
  have again : ∀ {handled : Except Fault TxContext} {stake tx},
      Ensures handled (fun after => Taken ready after stake tx) ->
      stakingPlace ready ≤ stake.place ->
      Ensures (continueWith handled)
        (Body.after (Steps stakingDone stakingPlace ready) fun _ => True) :=
    fun taken forward => Ensures.map (taken.mono
      (fun after taken => taken.steps_staking forward) fun _ _ => trivial)
  have jump : ∀ {handled : Except Fault TxContext} {stake tx}
      {convert : TxContext -> TxContext},
      Ensures handled (fun after => Taken ready after stake tx) ->
      (∀ after, Taken ready after stake tx ->
        Steps stakingDone stakingPlace ready (convert after)) ->
      Ensures (continueWith (do
        let after ← handled
        return convert after))
          (Body.after (Steps stakingDone stakingPlace ready) fun _ => True) :=
    fun taken steps => Ensures.map (Ensures.bind taken fun after taken =>
      Ensures.pure (steps after taken))
  have enter : ∀ (next : TxContext) {field : RlpStakingField}
      (following : RlpStakingField), ready.stakeCurrentField = field ->
      next.stakeCurrentField = following -> field.place < following.place ->
      next.processingField = false ->
      Ensures (.ok (.again next) :
        Except Fault (Flow TxContext (Int × TxContext)))
          (Body.after (Steps stakingDone stakingPlace ready) fun _ => True) := by
    rintro next _ _ rfl rfl later finished
    exact Ensures.ok (steps_enter later finished)
  unfold handleStakingField
  cases field : ready.stakeCurrentField with
  | content =>
      exact enter (processContent ready) .directive field
        (congrArg RlpStakingField.next field) (by decide) rfl
  | directive =>
      exact again (taken_processDirective buf processing inside)
        (by rw [stakingPlace, field]; decide)
  | stakemessage =>
      apply Ensures.ok
      apply steps_enter
      · rw [stakingPlace, stakingPlace, field, processStakingMessage]
        dsimp only
        split
        · decide
        · decide
      · rfl
  | delegatoraddr =>
      apply jump (taken_processBytes buf processing inside _ _ _)
      intro after taken
      split
      · exact taken.steps_goTo (by rw [stakingPlace, field]; decide)
      · exact taken.steps_staking (by rw [stakingPlace, field]; decide)
  | validatoraddr =>
      apply jump (taken_processBytes buf processing inside _ _ _)
      intro after taken
      split
      · exact taken.steps_goTo (by rw [stakingPlace, field]; decide)
      · exact taken.steps_goTo (by rw [stakingPlace, field]; decide)
  | amount =>
      apply Ensures.map
      apply (int256 _ _ _).mono _ fun _ _ => trivial
      intro after taken
      split
      · exact taken.steps_goTo (by rw [stakingPlace, field]; decide)
      · exact True.intro
  | nonce =>
      apply Ensures.ok
      -- The field stays half read, but the loop is at its end.
      exact {
        forward := stakingPlace_le ready
        strict := fun _ => Or.inr (by
          rw [stakingPlace, field]
          show RlpStakingField.nonce.place < RlpStakingField.done.place
          decide)
        settled := Or.inr (Or.inr (decide_eq_true rfl)) }
  | description => exact enter _ .name field rfl (by decide) rfl
  | name =>
      show Ensures (continueWith (processName buf { ready with
        stakeCurrentField := .name
        content := { ready.content with name := .zero } })) _
      rw [← field]
      exact again (taken_processName buf processing inside _)
        (by rw [stakingPlace, field]; decide)
  | identity | website | securitycontact =>
      exact again skipped (by rw [stakingPlace, field]; decide)
  | details =>
      apply jump skipped
      intro after taken
      split
      · exact taken.steps_goTo (by rw [stakingPlace, field]; decide)
      · exact taken.steps_staking (by rw [stakingPlace, field]; decide)
  | commissionrates => exact enter _ .rate field rfl (by decide) rfl
  | rate =>
      apply Ensures.ok
      split
      · apply steps_enter
        · rw [stakingPlace, field]
          show RlpStakingField.rate.place <
            RlpStakingField.minselfdelegation.place
          decide
        · rfl
      · apply steps_enter
        · rw [stakingPlace, stakingPlace, processDecimal, field]
          show RlpStakingField.rate.place < RlpStakingField.rateValue.place
          decide
        · rfl
  | rateValue =>
      apply jump (int256 _ _ _)
      intro after taken
      split
      · exact taken.steps_goTo (by rw [stakingPlace, field]; decide)
      · exact taken.steps_staking (by rw [stakingPlace, field]; decide)
  | maxrate =>
      exact enter (processDecimal ready) .maxrateValue field
        (congrArg RlpStakingField.next field) (by decide) rfl
  | maxchangerate =>
      exact enter (processDecimal ready) .maxchangerateValue field
        (congrArg RlpStakingField.next field) (by decide) rfl
  | maxrateValue | maxchangerateValue | minselfdelegation =>
      exact again (int256 _ _ _) (by rw [stakingPlace, field]; decide)
  | maxtotaldelegation =>
      apply Ensures.map
      apply (int256 _ _ _).mono _ fun _ _ => trivial
      intro after taken
      split_ifs
      · exact taken.steps_goTo (by rw [stakingPlace, field]; decide)
      · exact taken.steps_goTo (by rw [stakingPlace, field]; decide)
      · exact True.intro
  | slotpubkeys => exact enter _ .blspubkey field rfl (by decide) rfl
  | blssigs => exact enter _ .blssignature field rfl (by decide) rfl
  | blspubkey =>
      apply Ensures.map
      apply Ensures.bind (blsData _)
      intro handled taken
      rw [field] at taken
      exact steps_recordBlsPubKey taken field
  | blssignature =>
      apply jump (blsData none)
      intro after taken
      apply taken.steps_set
      · rfl
      · rfl
      · rw [stakingPlace, stakingPlace, field]
        dsimp only
        split
        · decide
        · decide
  | slotkeytoremove =>
      exact again (taken_processSlotKeyToRemove buf processing inside)
        (by rw [stakingPlace, field]; decide)
  | slotkeytoadd =>
      apply Ensures.map
      apply (taken_processSlotKeyToAdd buf processing inside).mono _
        fun _ _ => trivial
      intro after taken
      split
      · exact taken.steps_goTo (by rw [stakingPlace, field]; decide)
      · exact True.intro
  | slotkeytoaddsignature =>
      apply jump (blsData none)
      intro after taken
      exact taken.steps_goTo (by rw [stakingPlace, field]; decide)
  | editactive =>
      apply Ensures.map
      apply Ensures.bind (taken_processShard buf processing inside _ _ _)
      intro handled taken
      unfold recordEditActive
      split
      · exact Ensures.error trivial
      · apply Ensures.ok
        apply taken.steps_set
        · rfl
        · rfl
        · rw [stakingPlace, field]
          show RlpStakingField.editactive.place ≤ RlpStakingField.done.place
          decide
  | _ => exact Ensures.ok True.intro

end Switches

/-! ## Whole runs -/

/-- The number of fields of `rlpStakingField_e`, between the first one and the
end. -/
def stakingFields : Nat := 32

example : RlpStakingField.next^[stakingFields] .content = .done := rfl

/-- A main loop goes from each round to a later context and ends, with a bound
on its rounds, in the result of the parser. -/
structure EndsWithin (body : Body Fault TxContext (Int × TxContext))
    (place : TxContext -> Nat) (start : TxContext) (rounds : Nat) : Prop where
  later : ∀ visited next, body.Visits start visited ->
    body.Round visited next -> Later place visited next
  ends : ∃ result, body.run rounds start = some result ∧
    runParser body start = result ∧
    ∀ fault, result = .error fault -> fault = .fieldOverrun

theorem endsWithin_of_round {done : TxContext -> Bool}
    {body : Body Fault TxContext (Int × TxContext)}
    {place : TxContext -> Nat} {limit rounds : Nat}
    (bound : ∀ context, place context ≤ limit)
    (round : ∀ context, Between done context -> Ensures (body context)
      (Body.after (fun next => Between done next ∧ Later place context next)
        fun _ => True) fun fault => fault = .fieldOverrun)
    {start : TxContext} (between : Between done start)
    (enough : start.commandLength + (limit - place start) + 1 ≤ rounds)
    (few : rounds ≤ start.commandLength + 64) :
    EndsWithin body place start rounds := by
  obtain ⟨later, result, run, ensures⟩ := loop_ends bound round between
  have ends := Body.run_mono run enough
  refine ⟨later, result, ends, ?_, ensures.fault⟩
  rw [runParser, Body.run_mono ends few]

theorem Clean.between {buf : Region 1024} {context : TxContext}
    {bytes : List UInt8} (clean : Clean buf context bytes)
    (done : TxContext -> Bool) : Between done context where
  readable := by
    obtain ⟨position, cursor, inside, rest, _⟩ := clean.holds
    exact ⟨position, cursor, by omega⟩
  rlpBufferPos := clean.rlpBufferPos
  settled := Or.inr (Or.inl clean.idle)

/-- A round of `processTx`. -/
theorem ensures_processTxRound {buf : Region 1024} {context : TxContext}
    (between : Between txDone context) :
    Ensures (processTxRound buf context)
      (Body.after (fun next => Between txDone next ∧
        Later transferPlace context next) fun _ => True)
      fun fault => fault = .fieldOverrun :=
  ensures_round
    (fun _ _ same => by rw [transferPlace, same.txCurrentField]; rfl)
    (moves_handleTxField buf)
    (fun _ processing inside => steps_handleTxField buf processing inside)
    between

/-- A round of `processStaking`. -/
theorem ensures_processStakingRound {buf : Region 1024} {context : TxContext}
    (between : Between stakingDone context) :
    Ensures (processStakingRound buf context)
      (Body.after (fun next => Between stakingDone next ∧
        Later stakingPlace context next) fun _ => True)
      fun fault => fault = .fieldOverrun :=
  ensures_round
    (fun _ _ same => by rw [stakingPlace, same.stakeCurrentField]; rfl)
    (moves_handleStakingField buf)
    (fun _ processing inside => steps_handleStakingField buf processing inside)
    between

/-- Parsing always ends.  A round that goes on consumes a byte for good or
moves to a later field, so there are no more rounds than bytes and fields. -/
theorem parsing_ends {buf : Region 1024} {bytes : List UInt8}
    (received : Received buf bytes) :
    EndsWithin (processTxRound buf) transferPlace (transferStart bytes.length)
        (bytes.length + transferOrder.length + 1) ∧
      EndsWithin (processStakingRound buf) stakingPlace
        (stakingStart bytes.length) (bytes.length + stakingFields) := by
  constructor
  · apply endsWithin_of_round transferPlace_le
    · exact fun context => ensures_processTxRound
    · exact (clean_transferStart received).between _
    · show bytes.length + (8 - 0) + 1 ≤ bytes.length + 8 + 1
      omega
    · show bytes.length + 8 + 1 ≤ bytes.length + 64
      omega
  · apply endsWithin_of_round stakingPlace_le
    · exact fun context => ensures_processStakingRound
    · exact (clean_stakingStart received).between _
    · show bytes.length + (30 - 0) + 1 ≤ bytes.length + 32
      omega
    · show bytes.length + 32 ≤ bytes.length + 64
      omega

/-- A new validator whose lists of keys and signatures are empty. -/
def keylessValidator : List UInt8 :=
  [0xec, 0x80, 0xe7, 0x94] ++ List.replicate 20 0x5b ++
    [0xc5, 0x80, 0x80, 0x80, 0x80, 0x80, 0xc6, 0xc1, 0x80, 0xc1, 0x80, 0xc1,
     0x80, 0x80, 0x80, 0xc0, 0xc0, 0x80, 0x80, 0x80, 0x80]

theorem length_keylessValidator : keylessValidator.length = 45 := rfl

/-- Both parsers end on it. -/
theorem parsing_ends_keyless :
    EndsWithin (processTxRound (Region.ofList keylessValidator)) transferPlace
        (transferStart 45) 54 ∧
      EndsWithin (processStakingRound (Region.ofList keylessValidator))
        stakingPlace (stakingStart 45) 77 :=
  parsing_ends (received_ofList (by
    rw [length_keylessValidator]
    decide : keylessValidator.length ≤ 1024))

end LedgerOne
