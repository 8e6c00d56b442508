import LedgerOne.Decoder.Progress

/-!
# The cursor inside the received bytes

A parser that is called with its cursor inside the received bytes keeps it
there, whatever the bytes are.
-/

namespace LedgerOne

/-- The cursor and the remaining length add up to the length of the
message. -/
def Inside (length : Nat) (context : TxContext) : Prop :=
  ∃ position, context.workBuffer = some position ∧
    position + context.commandLength = length

/-- The cursor is inside, and a header byte can be stored. -/
structure InsideHead (length : Nat) (context : TxContext) : Prop where
  inside : Inside length context
  header : context.rlpBufferPos < 5

section Inside

variable {length : Nat} {before after : TxContext}

theorem Inside.moves (inside : Inside length before)
    (moves : Moves before after) : Inside length after := by
  obtain ⟨position, cursor, total⟩ := inside
  obtain ⟨count, within, workBuffer, commandLength⟩ := moves.cursor
  exact ⟨position + count, by simp [workBuffer, cursor], by omega⟩

theorem Inside.readable (inside : Inside length before)
    (small : length ≤ 1024) : Readable before := by
  obtain ⟨position, cursor, total⟩ := inside
  exact ⟨position, cursor, by omega⟩

end Inside

/-- The cursor is inside after the header phase, and a header that can be
decoded has been read. -/
structure Fetched (length : Nat) (result : Option Int × TxContext) :
    Prop where
  inside : Inside length result.2
  read : result.1 = none -> result.2.workBuffer ≠ some 0

section Header

variable {buf : Region 1024} {length : Nat} {context : TxContext}

/-- A header byte is read inside and stored inside. -/
theorem feedHeader_inside (small : length ≤ 1024)
    (head : InsideHead length context) :
    Ensures (feedHeader buf context)
      (Body.after
        (fun next => InsideHead length next ∧
          next.commandLength < context.commandLength)
        (Fetched length))
      fun _ => False := by
  obtain ⟨position, cursor, total⟩ := head.inside
  unfold feedHeader
  apply Ensures.ite
  · intro _
    exact Ensures.ok ⟨head.inside, by simp⟩
  · intro remaining
    have room := head.header
    have inside : position < 1024 := by omega
    simp only [readTxByte, cursor, inside, room, if_true]
    have fed : ∀ other : TxContext, other.workBuffer = some (position + 1) ->
        other.commandLength = context.commandLength - 1 ->
        Inside length other :=
      fun other moved left => ⟨position + 1, moved, by omega⟩
    split
    · apply Ensures.ite
      all_goals
        intro _
        exact Ensures.ok ⟨fed _ rfl rfl, by simp⟩
    · apply Ensures.ite
      · intro _
        exact Ensures.ok ⟨fed _ rfl rfl, by simp⟩
      · intro full
        apply Ensures.ok
        refine ⟨⟨fed _ rfl rfl, ?_⟩, ?_⟩
        · show context.rlpBufferPos + 1 < 5
          have notFull : ¬context.rlpBufferPos + 1 = 5 := full
          omega
        · show context.commandLength - 1 < context.commandLength
          omega

theorem visits_feedHeader_inside (small : length ≤ 1024)
    (head : InsideHead length context) {fed : TxContext}
    (visits : (feedHeader buf).Visits context fed) :
    InsideHead length fed := by
  apply visits.invariant _ head
  intro state next holds round
  exact ((feedHeader_inside small holds).value _ round).1

/-- The header phase stays inside. -/
theorem readFieldHeader_inside (small : length ≤ 1024)
    (head : InsideHead length context) :
    Ensures (readFieldHeader buf context)
      (fun result => Inside length result.2 ∧
        (result.1 = none -> result.2.rlpBufferPos = 0))
      fun _ => False := by
  have ends : ((feedHeader buf).run (context.commandLength + 1)
      context).isSome := by
    apply Body.run_isSome_of_measure (InsideHead length)
      TxContext.commandLength _ _ _ head (Nat.lt_succ_self _)
    intro state next holds round
    exact (feedHeader_inside small holds).value _ round
  obtain ⟨result, ran⟩ := Option.isSome_iff_exists.mp ends
  have inside : Ensures result (Fetched length) fun _ => False := by
    apply Body.ensures_run _ head ran
    intro state holds
    apply (feedHeader_inside small holds).mono
    · intro flow after
      cases flow with
      | again next => exact after.1
      | exit result => exact after
    · exact fun _ never => never
  unfold readFieldHeader
  rw [ran]
  match result with
  | .error fault => exact (inside.fault fault rfl).elim
  | .ok (some code, fed) =>
      exact Ensures.ok ⟨(inside.value _ rfl).inside, by simp⟩
  | .ok (none, fed) =>
      obtain ⟨⟨position, cursor, total⟩, read⟩ := inside.value _ rfl
      dsimp only at cursor total read ⊢
      have started : position ≠ 0 := by
        rintro rfl
        exact read rfl cursor
      split
      · exact Ensures.ok ⟨⟨position, cursor, total⟩, by simp⟩
      · apply Ensures.ite
        · intro _
          apply Ensures.ok
          refine ⟨⟨position - 1, by simp [cursor], ?_⟩, fun _ => rfl⟩
          show position - 1 + (fed.commandLength + 1) = length
          omega
        · intro _
          exact Ensures.ok ⟨⟨position, cursor, total⟩, fun _ => rfl⟩

end Header

/-! ## Rounds and runs -/

section Rounds

variable (buf : Region 1024) (done : TxContext -> Bool)
  (handle : Body Fault TxContext (Int × TxContext)) (length : Nat)

/-- At every step of a round the cursor is inside, header bytes are stored in
the header buffer, and the only fault is a field that does not fit. -/
structure RoundInside (state : TxContext) : Prop where
  before : Inside length state
  header : ∀ fed, done state = false -> state.processingField = false ->
    (feedHeader buf).Visits state fed ->
    Inside length fed ∧ (fed.commandLength ≠ 0 -> fed.rlpBufferPos < 5)
  field : ∀ ready, beforeSwitch buf (done state) state = .ok (none, ready) ->
    Inside length ready
  after : ∀ flow, mainLoop buf done handle state = .ok flow ->
    Inside length (contextAfter flow)
  fault : ∀ fault, mainLoop buf done handle state = .error fault ->
    fault = .fieldOverrun

/-- At every step of a run the cursor is inside. -/
def RunInside (start : TxContext) : Prop :=
  ∀ visited, (mainLoop buf done handle).Visits start visited ->
    RoundInside buf done handle length visited

variable {buf} {done} {handle} {length} {state : TxContext}

/-- The head of a main loop stays inside. -/
theorem beforeSwitch_inside (small : length ≤ 1024)
    (head : InsideHead length state) (finished : Bool) :
    Ensures (beforeSwitch buf finished state)
      (fun result => Inside length result.2 ∧
        (result.1 = none -> result.2.rlpBufferPos < 5))
      fun _ => False := by
  unfold beforeSwitch
  apply Ensures.ite
  · intro _
    exact Ensures.ok ⟨head.inside, by simp⟩
  · intro _
    apply Ensures.ite
    · intro _
      exact Ensures.ok ⟨head.inside, by simp⟩
    · intro _
      apply Ensures.ite
      · intro _
        exact Ensures.ok ⟨head.inside, fun _ => head.header⟩
      · intro _
        apply (readFieldHeader_inside small head).mono
        · rintro ⟨code, reached⟩ ⟨inside, decoded⟩
          refine ⟨inside, fun none => ?_⟩
          rw [decoded none]
          decide
        · exact fun _ never => never

/-- A round of a main loop stays inside. -/
theorem mainLoop_inside (small : length ≤ 1024)
    (moves : ∀ context, Ensures (handle context)
      (fun flow => Moves context (contextAfter flow)) (HandlerFault context))
    (head : InsideHead length state) :
    Ensures (mainLoop buf done handle state)
      (Body.after (InsideHead length) fun result => Inside length result.2)
      (· = .fieldOverrun) := by
  have switch : Ensures (beforeSwitch buf (done state) state) _ _ :=
    beforeSwitch_inside small head (done state)
  unfold mainLoop
  split
  next fault faulted => exact (switch.fault _ faulted).elim
  next code reached left => exact Ensures.ok (switch.value _ left).1
  next ready reached =>
    obtain ⟨inside, header⟩ := switch.value _ reached
    apply (moves ready).mono
    · intro flow moved
      cases flow with
      | again next =>
          refine ⟨inside.moves moved, ?_⟩
          rw [show next.rlpBufferPos = ready.rlpBufferPos from
            moved.rlpBufferPos]
          exact header rfl
      | exit result => exact inside.moves moved
    · rintro fault (overrun | unreadable)
      · exact overrun
      · exact absurd (inside.readable small) unreadable

/-- A run that starts inside stays inside. -/
theorem runInside_of_head (small : length ≤ 1024)
    (moves : ∀ context, Ensures (handle context)
      (fun flow => Moves context (contextAfter flow)) (HandlerFault context))
    (head : InsideHead length state) :
    RunInside buf done handle length state := by
  intro visited visits
  have here : InsideHead length visited :=
    visits.ensures (fun _ => mainLoop_inside small moves) head
  have round : Ensures (mainLoop buf done handle visited) _ _ :=
    mainLoop_inside small moves here
  exact {
    before := here.inside
    header := by
      intro fed _ _ feeds
      have fed := visits_feedHeader_inside small here feeds
      exact ⟨fed.inside, fun _ => fed.header⟩
    field := by
      intro ready reached
      exact ((beforeSwitch_inside small here _).value _ reached).1
    after := by
      intro flow ends
      have after := round.value flow ends
      cases flow with
      | again next => exact after.inside
      | exit result => exact after
    fault := round.fault }

end Rounds

/-! ## Header bytes at the start of the buffer -/

/-- While the cursor is at the start of the buffer no header byte is
buffered. -/
def AtStart (context : TxContext) : Prop :=
  context.workBuffer = some 0 -> context.rlpBufferPos = 0

theorem AtStart.moves {before after : TxContext} (start : AtStart before)
    (moves : Moves before after) : AtStart after := by
  intro cursor
  obtain ⟨count, _, workBuffer, _⟩ := moves.cursor
  rw [workBuffer] at cursor
  obtain ⟨position, equal, sum⟩ := Option.map_eq_some_iff.mp cursor
  rw [moves.rlpBufferPos]
  apply start
  rw [equal]
  congr 1
  omega

section AtStart

variable {buf : Region 1024} {done : TxContext -> Bool}
  {handle : Body Fault TxContext (Int × TxContext)} {context : TxContext}

theorem feedHeader_atStart (start : AtStart context) :
    Ensures (feedHeader buf context)
      (Body.after AtStart fun result => AtStart result.2) := by
  unfold feedHeader
  apply Ensures.ite
  · intro _
    exact Ensures.ok start
  · intro _
    have ahead : ∀ {position : Nat} {other : TxContext},
        other.workBuffer = some (position + 1) -> AtStart other := by
      intro position other cursor atZero
      rw [cursor] at atZero
      cases atZero
    unfold readTxByte
    cases cursor : context.workBuffer with
    | none => exact Ensures.error trivial
    | some position =>
        dsimp only
        split
        next fault _ => exact Ensures.error trivial
        next data read found =>
          split at found
          · cases found
            apply Ensures.ite
            · intro _
              split
              · apply Ensures.ite
                all_goals
                  intro _
                  exact Ensures.ok (ahead rfl)
              · apply Ensures.ite
                all_goals
                  intro _
                  exact Ensures.ok (ahead rfl)
            · intro _
              exact Ensures.error trivial
          · cases found

theorem readFieldHeader_atStart (start : AtStart context) :
    Ensures (readFieldHeader buf context) fun result => AtStart result.2 := by
  unfold readFieldHeader
  split
  · exact Ensures.error trivial
  · exact Ensures.error trivial
  next code fed ran =>
    have ends : Ensures (.ok (some code, fed) :
        Except Fault (Option Int × TxContext)) fun result =>
          AtStart result.2 :=
      Body.ensures_run (fun _ => feedHeader_atStart) start ran
    exact Ensures.ok (ends.value _ rfl)
  next fed ran =>
    have ends : Ensures (.ok (none, fed) :
        Except Fault (Option Int × TxContext)) fun result =>
          AtStart result.2 :=
      Body.ensures_run (fun _ => feedHeader_atStart) start ran
    have atStart : AtStart fed := ends.value (none, fed) rfl
    split
    · exact Ensures.ok atStart
    · dsimp only
      apply Ensures.ite
      all_goals
        intro _
        exact Ensures.ok fun _ => rfl

/-- A round of a main loop leaves no header byte behind at the start of the
buffer. -/
theorem mainLoop_atStart
    (moves : ∀ context, Ensures (handle context)
      (fun flow => Moves context (contextAfter flow)) (HandlerFault context))
    (start : AtStart context) :
    Ensures (mainLoop buf done handle context)
      (Body.after AtStart fun result => AtStart result.2) := by
  have switch : Ensures (beforeSwitch buf (done context) context)
      fun result => AtStart result.2 := by
    unfold beforeSwitch
    apply Ensures.ite
    · intro _
      exact Ensures.ok start
    · intro _
      apply Ensures.ite
      · intro _
        exact Ensures.ok start
      · intro _
        apply Ensures.ite
        · intro _
          exact Ensures.ok start
        · intro _
          exact readFieldHeader_atStart start
  unfold mainLoop
  split
  · exact Ensures.error trivial
  next code reached left => exact Ensures.ok (switch.value _ left)
  next ready reached =>
    apply (moves ready).mono
    · intro flow moved
      have after := (switch.value _ reached).moves moved
      cases flow <;> exact after
    · exact fun _ _ => trivial

theorem runParser_atStart
    (moves : ∀ context, Ensures (handle context)
      (fun flow => Moves context (contextAfter flow)) (HandlerFault context))
    (start : AtStart context) :
    Ensures (runParser (mainLoop buf done handle) context)
      fun result => AtStart result.2 := by
  unfold runParser
  split
  · exact Ensures.error trivial
  next result ran =>
    exact Body.ensures_run (fun _ => mainLoop_atStart moves) start ran

end AtStart

end LedgerOne
