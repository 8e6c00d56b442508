import LedgerOne.Decoder.Field
import LedgerOne.Lib.Ensures

/-!
# How the handlers move the cursor

Whatever the context, a field handler moves the cursor forward over bytes that
are still to be read, and leaves the header buffer alone.  Unlike the facts
about fresh sessions these hold in every state, also after a failed parse.
-/

namespace LedgerOne

/-- The cursor and the header buffer are the same. -/
structure SameCursor (before after : TxContext) : Prop where
  workBuffer : after.workBuffer = before.workBuffer
  commandLength : after.commandLength = before.commandLength
  rlpBufferPos : after.rlpBufferPos = before.rlpBufferPos

/-- The cursor has moved over some of the remaining bytes. -/
structure Moves (before after : TxContext) : Prop where
  cursor : ∃ count ≤ before.commandLength,
    after.workBuffer = before.workBuffer.map (· + count) ∧
      after.commandLength = before.commandLength - count
  rlpBufferPos : after.rlpBufferPos = before.rlpBufferPos

section Moves

variable {before middle after : TxContext}

theorem SameCursor.rfl' : SameCursor before before := ⟨rfl, rfl, rfl⟩

theorem SameCursor.moves (same : SameCursor before after) :
    Moves before after where
  cursor := ⟨0, Nat.zero_le _, by simp [same.workBuffer], by
    simp [same.commandLength]⟩
  rlpBufferPos := same.rlpBufferPos

theorem Moves.same (moves : Moves before middle)
    (same : SameCursor middle after) : Moves before after where
  cursor := by
    obtain ⟨count, within, workBuffer, commandLength⟩ := moves.cursor
    exact ⟨count, within, same.workBuffer.trans workBuffer,
      same.commandLength.trans commandLength⟩
  rlpBufferPos := same.rlpBufferPos.trans moves.rlpBufferPos

theorem SameCursor.then_moves (same : SameCursor before middle)
    (moves : Moves middle after) : Moves before after where
  cursor := by
    obtain ⟨count, within, workBuffer, commandLength⟩ := moves.cursor
    rw [same.commandLength] at within commandLength
    rw [same.workBuffer] at workBuffer
    exact ⟨count, within, workBuffer, commandLength⟩
  rlpBufferPos := moves.rlpBufferPos.trans same.rlpBufferPos

end Moves

/-- The remaining bytes lie inside the receive buffer. -/
def Readable (context : TxContext) : Prop :=
  ∃ position, context.workBuffer = some position ∧
    position + context.commandLength ≤ 1024

/-- The faults of a handler: a field that does not fit or, when the cursor is
not where it should be, a read through it. -/
def HandlerFault (context : TxContext) (fault : Fault) : Prop :=
  fault = .fieldOverrun ∨ ¬Readable context

theorem SameCursor.handlerFault {before after : TxContext}
    (same : SameCursor before after) {fault : Fault}
    (faults : HandlerFault after fault) : HandlerFault before fault := by
  rwa [HandlerFault, Readable, same.workBuffer, same.commandLength] at faults

section Handlers

variable (buf : Region 1024) (context : TxContext)

theorem TxContext.copySize_le : context.copySize ≤ context.commandLength := by
  unfold TxContext.copySize
  split <;> omega

/-- Copying a field moves the cursor. -/
theorem moves_copyField (out : Option Store) :
    Ensures (copyField buf out context) (Moves context)
      (HandlerFault context) := by
  unfold copyField
  apply Ensures.ite
  · intro _
    unfold copyTxData
    cases cursor : context.workBuffer with
    | none =>
        apply Ensures.error
        right
        rintro ⟨position, other, _⟩
        rw [cursor] at other
        cases other
    | some position =>
        have moved : ∀ content, Moves context { context with
            workBuffer := some (position + context.copySize)
            commandLength := context.commandLength - context.copySize
            currentFieldPos :=
              if context.processingField then
                context.currentFieldPos + context.copySize
              else context.currentFieldPos
            content := content } := by
          intro content
          exact {
            cursor := ⟨_, context.copySize_le, by simp [cursor], rfl⟩
            rlpBufferPos := rfl }
        cases out with
        | none => exact Ensures.ok (moved _)
        | some store =>
            dsimp only
            split
            next outside =>
              apply Ensures.error
              right
              rintro ⟨other, same, inside⟩
              rw [cursor] at same
              cases same
              have within := context.copySize_le
              rw [Region.read?, if_pos (by omega)] at outside
              cases outside
            next =>
              split
              · exact Ensures.error (Or.inl rfl)
              · exact Ensures.ok (moved _)
  · intro _
    exact Ensures.ok SameCursor.rfl'.moves

variable {record : TxContext -> TxContext}

theorem sameCursor_finishField
    (keeps : ∀ complete, SameCursor complete (record complete)) :
    SameCursor context (finishField record context) := by
  unfold finishField
  split
  · have kept := keeps context
    exact ⟨kept.workBuffer, kept.commandLength, kept.rlpBufferPos⟩
  · exact SameCursor.rfl'

theorem moves_takeField (out : Option Store)
    (keeps : ∀ complete, SameCursor complete (record complete)) :
    Ensures (takeField buf out record context) (Moves context)
      (HandlerFault context) := by
  apply Ensures.bind (moves_copyField buf context out)
  intro copied moves
  exact Ensures.pure (moves.same (sameCursor_finishField copied keeps))

theorem moves_processInt256 (address : Nat) (get : TxContent -> TxInt256)
    (set : TxInt256 -> TxContent -> TxContent) :
    Ensures (processInt256 buf address get set context) (Moves context)
      (HandlerFault context) :=
  moves_takeField buf context _ fun _ => ⟨rfl, rfl, rfl⟩

theorem moves_processShard (address : Nat) (get : TxContent -> Nat)
    (set : Nat -> TxContent -> TxContent) :
    Ensures (processShard buf address get set context) (Moves context)
      (HandlerFault context) :=
  moves_takeField buf context _ fun _ => ⟨rfl, rfl, rfl⟩

theorem moves_processBytes (address : Nat) (get : TxContent -> Region size)
    (set : Region size -> TxContent -> TxContent) :
    Ensures (processBytes buf address get set context) (Moves context)
      (HandlerFault context) :=
  moves_takeField buf context _ fun _ => ⟨rfl, rfl, rfl⟩

theorem moves_processSkippedString :
    Ensures (processSkippedString buf context) (Moves context)
      (HandlerFault context) :=
  moves_takeField buf context _ fun _ => ⟨rfl, rfl, rfl⟩

theorem moves_processBlsData (out : Option Store) :
    Ensures (processBlsData buf out context) (Moves context)
      (HandlerFault context) :=
  moves_takeField buf context _ fun _ => ⟨rfl, rfl, rfl⟩

variable {buf context}

/-- A handler after which the loop goes round again. -/
theorem moves_continueWith {handled : Except Fault TxContext}
    (moves : Ensures handled (Moves context) (HandlerFault context)) :
    Ensures (continueWith handled)
      (fun flow => Moves context (contextAfter flow))
      (HandlerFault context) :=
  Ensures.map moves

/-- A handler that only looks at the content before the loop goes on. -/
theorem moves_map {handled : Except Fault TxContext}
    {convert : TxContext -> Flow TxContext (Int × TxContext)}
    (moves : Ensures handled (Moves context) (HandlerFault context))
    (keeps : ∀ after, SameCursor after (contextAfter (convert after))) :
    Ensures (handled.map convert)
      (fun flow => Moves context (contextAfter flow))
      (HandlerFault context) :=
  Ensures.map (moves.mono (fun after moves => moves.same (keeps after))
    fun _ faults => faults)

theorem moves_do {handled : Except Fault TxContext}
    {convert : TxContext -> TxContext}
    (moves : Ensures handled (Moves context) (HandlerFault context))
    (keeps : ∀ after, SameCursor after (convert after)) :
    Ensures (continueWith (do
      let after ← handled
      return convert after))
      (fun flow => Moves context (contextAfter flow))
      (HandlerFault context) := by
  apply moves_continueWith
  apply Ensures.bind moves
  intro after moves
  exact Ensures.pure (moves.same (keeps after))

end Handlers

theorem sameCursor_goTo (context : TxContext) (field : RlpStakingField) :
    SameCursor context (context.goTo field) :=
  ⟨rfl, rfl, rfl⟩

/-- A conditional step to another field. -/
theorem sameCursor_ite {condition : Prop} [Decidable condition]
    {context left right : TxContext}
    (whenTrue : SameCursor context left)
    (whenFalse : SameCursor context right) :
    SameCursor context (if condition then left else right) := by
  split
  · exact whenTrue
  · exact whenFalse

/-- The `switch` of `processTx` moves the cursor. -/
theorem moves_handleTxField (buf : Region 1024) (context : TxContext) :
    Ensures (handleTxField buf context)
      (fun flow => Moves context (contextAfter flow))
      (HandlerFault context) := by
  have same : SameCursor context (processContent context) := ⟨rfl, rfl, rfl⟩
  unfold handleTxField
  cases context.txCurrentField with
  | content => exact Ensures.ok same.moves
  | nonce =>
      exact moves_continueWith (moves_takeField buf context _
        fun _ => ⟨rfl, rfl, rfl⟩)
  | gasprice => exact moves_continueWith (moves_processInt256 buf context _ _ _)
  | gaslimit => exact moves_continueWith (moves_processInt256 buf context _ _ _)
  | fromshard => exact moves_continueWith (moves_processShard buf context _ _ _)
  | toshard => exact moves_continueWith (moves_processShard buf context _ _ _)
  | «to» => exact moves_continueWith (moves_processBytes buf context _ _ _)
  | amount =>
      exact moves_map (moves_processInt256 buf context _ _ _)
        fun _ => ⟨rfl, rfl, rfl⟩
  | _ => exact Ensures.ok SameCursor.rfl'.moves

/-- Writing the summary of the keys does not touch the context. -/
theorem writes_blsKeyStr (context : TxContext) (offset : Nat)
    (bytes : List UInt8) (content : TxContent) :
    Ensures (writeBlsKeyStr offset bytes content) (fun _ => True)
      (HandlerFault context) := by
  unfold writeBlsKeyStr
  split
  · exact Ensures.error (Or.inl rfl)
  · exact Ensures.ok trivial

theorem moves_recordBlsPubKey {before context : TxContext}
    (moves : Moves before context) :
    Ensures (recordBlsPubKey context) (Moves before)
      (HandlerFault before) := by
  unfold recordBlsPubKey
  apply Ensures.ite
  · intro _
    apply Ensures.bind (writes_blsKeyStr before _ _ _)
    intro content _
    exact Ensures.pure (moves.same ⟨rfl, rfl, rfl⟩)
  · intro _
    exact Ensures.ok (moves.same ⟨rfl, rfl, rfl⟩)

theorem moves_recordEditActive {before context : TxContext}
    (moves : Moves before context) :
    Ensures (recordEditActive context) (Moves before)
      (HandlerFault before) := by
  unfold recordEditActive
  split
  · exact Ensures.error (Or.inl rfl)
  · exact Ensures.ok (moves.same ⟨rfl, rfl, rfl⟩)

section Slots

variable (buf : Region 1024) (context : TxContext)

/-- A key of an edited validator is taken between two captions. -/
theorem moves_captioned (captioned : TxContent) :
    Ensures (processBlsData buf
        (some (storeBlsPubKey context.currentFieldPos))
        { context with content := captioned })
      (Moves context) (HandlerFault context) := by
  have same : SameCursor context { context with content := captioned } :=
    ⟨rfl, rfl, rfl⟩
  exact (moves_processBlsData buf _ _).mono (fun _ => same.then_moves)
    fun _ => same.handlerFault

theorem moves_processSlotKeyToRemove :
    Ensures (processSlotKeyToRemove buf context) (Moves context)
      (HandlerFault context) := by
  apply Ensures.bind (writes_blsKeyStr context _ _ _)
  intro captioned _
  apply Ensures.bind (moves_captioned buf context captioned)
  intro handled moves
  apply Ensures.bind (writes_blsKeyStr context _ _ _)
  intro shown _
  exact Ensures.pure (moves.same ⟨rfl, rfl, rfl⟩)

theorem moves_processSlotKeyToAdd :
    Ensures (processSlotKeyToAdd buf context) (Moves context)
      (HandlerFault context) := by
  apply Ensures.bind (writes_blsKeyStr context _ _ _)
  intro captioned _
  apply Ensures.bind (moves_captioned buf context captioned)
  intro handled moves
  apply Ensures.bind (writes_blsKeyStr context _ _ _)
  intro shown _
  exact Ensures.pure (moves.same ⟨rfl, rfl, rfl⟩)

end Slots

/-- The `switch` of `processStaking` moves the cursor. -/
theorem moves_handleStakingField (buf : Region 1024) (context : TxContext) :
    Ensures (handleStakingField buf context)
      (fun flow => Moves context (contextAfter flow))
      (HandlerFault context) := by
  have jump : ∀ next, SameCursor context next ->
      Ensures (.ok (.again next) :
        Except Fault (Flow TxContext (Int × TxContext)))
          (fun flow => Moves context (contextAfter flow))
          (HandlerFault context) :=
    fun next same => Ensures.ok same.moves
  have goTo := sameCursor_goTo
  unfold handleStakingField
  cases context.stakeCurrentField with
  | content => exact jump _ ⟨rfl, rfl, rfl⟩
  | directive =>
      exact moves_continueWith (moves_takeField buf context _
        fun _ => ⟨rfl, rfl, rfl⟩)
  | stakemessage => exact jump _ ⟨rfl, rfl, rfl⟩
  | delegatoraddr =>
      exact moves_do (moves_processBytes buf context _ _ _) fun after =>
        sameCursor_ite (goTo after _) SameCursor.rfl'
  | validatoraddr =>
      exact moves_do (moves_processBytes buf context _ _ _) fun after =>
        sameCursor_ite (goTo after _) (goTo after _)
  | amount =>
      apply moves_map (moves_processInt256 buf context _ _ _)
      intro after
      split <;> exact ⟨rfl, rfl, rfl⟩
  | nonce => exact jump _ ⟨rfl, rfl, rfl⟩
  | description => exact jump _ ⟨rfl, rfl, rfl⟩
  | name =>
      apply moves_continueWith
      apply (moves_processBytes buf _ _ _ _).mono
      · intro after
        exact SameCursor.then_moves ⟨rfl, rfl, rfl⟩
      · intro fault
        exact SameCursor.handlerFault ⟨rfl, rfl, rfl⟩
  | identity | website | securitycontact =>
      exact moves_continueWith (moves_processSkippedString buf context)
  | details =>
      exact moves_do (moves_processSkippedString buf context) fun after =>
        sameCursor_ite (goTo after _) SameCursor.rfl'
  | commissionrates => exact jump _ ⟨rfl, rfl, rfl⟩
  | rate =>
      exact jump _ (sameCursor_ite ⟨rfl, rfl, rfl⟩ ⟨rfl, rfl, rfl⟩)
  | rateValue =>
      exact moves_do (moves_processInt256 buf context _ _ _) fun after =>
        sameCursor_ite (goTo after _) SameCursor.rfl'
  | maxrate | maxchangerate => exact jump _ ⟨rfl, rfl, rfl⟩
  | maxrateValue | maxchangerateValue | minselfdelegation =>
      exact moves_continueWith (moves_processInt256 buf context _ _ _)
  | maxtotaldelegation =>
      apply moves_map (moves_processInt256 buf context _ _ _)
      intro after
      split_ifs <;> exact ⟨rfl, rfl, rfl⟩
  | slotpubkeys | blssigs => exact jump _ ⟨rfl, rfl, rfl⟩
  | blspubkey =>
      apply moves_continueWith
      apply Ensures.bind (moves_processBlsData buf context _)
      intro handled moves
      exact moves_recordBlsPubKey moves
  | blssignature =>
      exact moves_do (moves_processBlsData buf context _)
        fun _ => ⟨rfl, rfl, rfl⟩
  | slotkeytoremove =>
      exact moves_continueWith (moves_processSlotKeyToRemove buf context)
  | slotkeytoadd =>
      apply moves_map (moves_processSlotKeyToAdd buf context)
      intro after
      split <;> exact ⟨rfl, rfl, rfl⟩
  | slotkeytoaddsignature =>
      exact moves_do (moves_processBlsData buf context _)
        fun after => goTo after _
  | editactive =>
      apply moves_continueWith
      apply Ensures.bind (moves_processShard buf context _ _ _)
      intro handled moves
      exact moves_recordEditActive moves
  | _ => exact Ensures.ok SameCursor.rfl'.moves

/-! ## The content before the switch -/

section Content

variable {buf : Region 1024} {context : TxContext} {content : TxContent}

theorem content_readTxByte (same : context.content = content) :
    Ensures (readTxByte buf context) fun result =>
      result.2.content = content := by
  unfold readTxByte
  split
  · exact Ensures.error trivial
  · apply Ensures.ite
    · intro _
      exact Ensures.ok same
    · intro _
      exact Ensures.error trivial

theorem content_feedHeader (same : context.content = content) :
    Ensures (feedHeader buf context)
      (Body.after (fun next => next.content = content)
        fun result => result.2.content = content) := by
  unfold feedHeader
  apply Ensures.ite
  · intro _
    exact Ensures.ok same
  · intro _
    split
    next => exact Ensures.error trivial
    next data read found =>
      have kept := (content_readTxByte same).value _ found
      apply Ensures.ite
      · intro _
        dsimp only
        split
        all_goals
          apply Ensures.ite
          all_goals
            intro _
            exact Ensures.ok kept
      · intro _
        exact Ensures.error trivial

/-- The head of a main loop leaves the content alone. -/
theorem content_beforeSwitch (done : Bool)
    (same : context.content = content) :
    Ensures (beforeSwitch buf done context) fun result =>
      result.2.content = content := by
  have fed : ∀ result,
      (feedHeader buf).run (context.commandLength + 1) context =
        some result ->
      Ensures result fun result => result.2.content = content :=
    fun result ran => Body.ensures_run (fun _ => content_feedHeader) same ran
  unfold beforeSwitch
  apply Ensures.ite
  · intro _
    exact Ensures.ok same
  · intro _
    apply Ensures.ite
    · intro _
      exact Ensures.ok same
    · intro _
      apply Ensures.ite
      · intro _
        exact Ensures.ok same
      · intro _
        unfold readFieldHeader
        split
        next => exact Ensures.error trivial
        next => exact Ensures.error trivial
        next code reached ran =>
          exact Ensures.ok ((fed _ ran).value (some code, reached) rfl)
        next reached ran =>
          have kept : reached.content = content :=
            (fed _ ran).value (none, reached) rfl
          split
          · exact Ensures.ok kept
          · dsimp only
            apply Ensures.ite
            all_goals
              intro _
              exact Ensures.ok kept

end Content

end LedgerOne
