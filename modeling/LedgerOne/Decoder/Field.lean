import LedgerOne.Lib.Realization
import LedgerOne.Decoder.Cursor

/-!
# One round of a main loop

What a field handler does to the context, and from it what one round of either
main loop does: leave when no header can be decoded, skip over the header of a
list, or take the bytes of one field and advance.
-/

namespace LedgerOne

open Rlp Layout

/-- The shape of all field handlers that take bytes. -/
def takeField (buf : Region 1024) (out : Option Store)
    (record : TxContext -> TxContext) (context : TxContext) :
    Except Fault TxContext := do
  let copied ← copyField buf out context
  return finishField record copied

/-- The context that a round of a main loop leaves. -/
def contextAfter : Flow TxContext (Int × TxContext) -> TxContext
  | .again context => context
  | .exit (_, context) => context

/-- The content after the bytes of a field of the given length are stored; a
field of length zero stores nothing. -/
def Stores (out : Option Store) (length : Nat) (bytes : List UInt8)
    (content after : TxContent) : Prop :=
  match out with
  | none => after = content
  | some store =>
      if length = 0 then after = content else store bytes content = some after

/-- The context after a number of bytes of a field have been copied. -/
def TxContext.copied (count : Nat) (content : TxContent)
    (context : TxContext) : TxContext :=
  { context.advance count with currentFieldPos := count, content := content }

section Handlers

variable {buf : Region 1024} {before ready : TxContext} {length : Nat}
  {body : List UInt8} {out : Option Store} {after : TxContent}
  {record : TxContext -> TxContext}

theorem Ready.copySize_eq
    (atField : Ready buf before ready length body) :
    ready.copySize = min length body.length := by
  rw [TxContext.copySize, atField.currentFieldPos, atField.currentFieldLength,
    atField.holds.commandLength_eq]
  split <;> omega

/-- `copyField` at the start of a field takes the bytes that are there. -/
theorem copyField_of_ready (atField : Ready buf before ready length body)
    (stores : Stores out length (body.take length) before.content after) :
    copyField buf out ready =
      .ok (ready.copied (min length body.length) after) := by
  obtain ⟨position, cursor, reads⟩ := atField.holds.read
  rw [← atField.same.content] at stores
  by_cases empty : length = 0
  · subst empty
    have unchanged : after = ready.content := by
      cases out with
      | none => exact stores
      | some store => simpa [Stores] using stores
    subst unchanged
    rw [copyField, if_neg (by
      rw [atField.currentFieldPos, atField.currentFieldLength]; omega)]
    have position_eq := atField.currentFieldPos
    cases ready
    simp_all [TxContext.copied, TxContext.advance]
  · rw [copyField, if_pos (by
      rw [atField.currentFieldPos, atField.currentFieldLength]; omega),
      atField.copySize_eq]
    cases out with
    | none =>
        obtain rfl : after = ready.content := stores
        simp [copyTxData, cursor, atField.processing, atField.currentFieldPos,
          TxContext.copied, TxContext.advance]
    | some store =>
        have written : store (body.take length) ready.content =
            some after := by
          simpa [Stores, empty] using stores
        simp [copyTxData, cursor, atField.processing, atField.currentFieldPos,
          TxContext.copied, TxContext.advance,
          reads _ (Nat.min_le_right length body.length),
          ← List.take_eq_take_min, written]

/-- A field that is there in full is recorded. -/
theorem takeField_complete (atField : Ready buf before ready length body)
    (stores : Stores out length (body.take length) before.content after)
    (enough : length ≤ body.length) :
    takeField buf out record ready =
      .ok { record (ready.copied length after) with
        processingField := false } := by
  rw [takeField, copyField_of_ready atField stores, Nat.min_eq_left enough]
  simp [finishField, TxContext.copied, TxContext.advance, bind, Except.bind,
    pure, Except.pure, atField.currentFieldLength]

/-- A field that is cut off stays the current one. -/
theorem takeField_cutOff (atField : Ready buf before ready length body)
    (stores : Stores out length (body.take length) before.content after)
    (cutOff : body.length < length) :
    takeField buf out record ready = .ok (ready.copied body.length after) := by
  rw [takeField, copyField_of_ready atField stores,
    Nat.min_eq_right (Nat.le_of_lt cutOff)]
  simp only [bind, Except.bind, pure, Except.pure]
  rw [finishField, if_neg]
  simp only [TxContext.copied, TxContext.advance, atField.currentFieldLength]
  omega

/-- A field whose bytes do not fit faults. -/
theorem takeField_overrun {store : Store}
    (atField : Ready buf before ready length body)
    (announced : 0 < length)
    (overruns : store (body.take length) before.content = none) :
    takeField buf (some store) record ready = .error .fieldOverrun := by
  obtain ⟨position, cursor, reads⟩ := atField.holds.read
  rw [← atField.same.content] at overruns
  rw [takeField, copyField, if_pos (by
    rw [atField.currentFieldPos, atField.currentFieldLength]; omega),
    atField.copySize_eq]
  simp [copyTxData, cursor, reads _ (Nat.min_le_right length body.length),
    ← List.take_eq_take_min, overruns, bind, Except.bind]

end Handlers

/-- What holds of a context whose field bytes have just been copied. -/
structure Copied (buf : Region 1024) (before context : TxContext)
    (after : TxContent) (length : Nat) (rest : List UInt8) : Prop where
  holds : Holds buf context rest
  rlpBufferPos : context.rlpBufferPos = 0
  currentFieldLength : context.currentFieldLength = length
  txCurrentField : context.txCurrentField = before.txCurrentField
  stakeCurrentField : context.stakeCurrentField = before.stakeCurrentField
  currentBlsKeyIndex : context.currentBlsKeyIndex = before.currentBlsKeyIndex
  content : context.content = after

theorem Ready.copied {buf : Region 1024} {before ready : TxContext}
    {length : Nat} {body : List UInt8}
    (atField : Ready buf before ready length body) (after : TxContent)
    {count : Nat} (enough : count ≤ body.length) :
    Copied buf before (ready.copied count after) after length
      (body.drop count) where
  holds := (atField.holds.advance count enough).of_eq rfl rfl
  rlpBufferPos := atField.rlpBufferPos
  currentFieldLength := atField.currentFieldLength
  txCurrentField := atField.same.txCurrentField
  stakeCurrentField := atField.same.stakeCurrentField
  currentBlsKeyIndex := atField.same.currentBlsKeyIndex
  content := rfl

/-! ## The head of a round -/

section Head

variable {buf : Region 1024} {done : TxContext -> Bool}
  {handle : Body Fault TxContext (Int × TxContext)}
  {context : TxContext} {stream : List UInt8}

theorem mainLoop_of_done (finished : done context = true) :
    mainLoop buf done handle context = .ok (.exit (0, context)) := by
  simp [mainLoop, beforeSwitch, finished]

theorem mainLoop_of_exhausted (goesOn : done context = false)
    (exhausted : context.commandLength = 0) :
    mainLoop buf done handle context = .ok (.exit (1, context)) := by
  simp [mainLoop, beforeSwitch, goesOn, exhausted]

/-- Between two fields the `switch` is reached with the next header. -/
theorem beforeSwitch_of_header (clean : Clean buf context stream)
    (goesOn : done context = false)
    {isList : Bool} {length : Nat} {body : List UInt8}
    (decoded : readHeader stream = .header isList length body) :
    ∃ ready, Ready buf context ready length body ∧
      beforeSwitch buf (done context) context = .ok (none, ready) := by
  obtain ⟨ready, header, atField⟩ := readFieldHeader_of_header clean decoded
  have available : context.commandLength ≠ 0 := by
    rw [clean.holds.commandLength_eq]
    cases stream with
    | nil => simp at decoded
    | cons first rest => simp
  exact ⟨ready, atField, by
    simp [beforeSwitch, goesOn, available, clean.idle, header]⟩

/-- Between two fields a main loop handles the next header. -/
theorem mainLoop_of_header (handle : Body Fault TxContext (Int × TxContext))
    (clean : Clean buf context stream)
    (goesOn : done context = false)
    {isList : Bool} {length : Nat} {body : List UInt8}
    (decoded : readHeader stream = .header isList length body) :
    ∃ ready, Ready buf context ready length body ∧
      mainLoop buf done handle context = handle ready := by
  obtain ⟨ready, atField, head⟩ := beforeSwitch_of_header clean goesOn decoded
  exact ⟨ready, atField, by simp [mainLoop, head]⟩

/-- Without a header the `switch` is not reached. -/
theorem beforeSwitch_of_undecoded (clean : Clean buf context stream)
    (goesOn : done context = false)
    (undecoded : ∀ isList length body,
      readHeader stream ≠ .header isList length body) :
    ∃ code left, code ≠ 0 ∧
      beforeSwitch buf (done context) context = .ok (some code, left) := by
  by_cases exhausted : context.commandLength = 0
  · exact ⟨1, context, by decide, by
      simp [beforeSwitch, goesOn, exhausted]⟩
  · obtain ⟨code, left, header, nonzero⟩ :=
      readFieldHeader_of_undecoded clean undecoded
    exact ⟨code, left, nonzero, by
      simp [beforeSwitch, goesOn, exhausted, clean.idle, header]⟩

/-- Without a header a main loop leaves with a nonzero code. -/
theorem mainLoop_of_undecoded (clean : Clean buf context stream)
    (goesOn : done context = false)
    (undecoded : ∀ isList length body,
      readHeader stream ≠ .header isList length body) :
    ∃ code left, code ≠ 0 ∧
      mainLoop buf done handle context = .ok (.exit (code, left)) := by
  obtain ⟨code, left, nonzero, head⟩ :=
    beforeSwitch_of_undecoded clean goesOn undecoded
  exact ⟨code, left, nonzero, by simp [mainLoop, head]⟩

end Head

/-! ## The nodes of a layout -/

/-- The result of a parser that takes a message with some content. -/
def LeavesContent (result : Int × TxContext) (content : TxContent) : Prop :=
  result.1 = 0 ∧ result.2.content = content

/-- The realization of a layout by a main loop; `expects` says at which layout
a context between two fields is, and `accepts` which results stand for which
values. -/
def parserRealization (buf : Region 1024) (done : TxContext -> Bool)
    (handle : Body Fault TxContext (Int × TxContext))
    (expects : TxContext -> Layout τ α -> Prop)
    (accepts : Int × TxContext -> α -> Prop) :
    Realization Fault TxContext (Int × TxContext) τ α where
  body := mainLoop buf done handle
  At state layout stream :=
    Clean buf state stream ∧ done state = false ∧ expects state layout
  Quiet state := done state = true ∨ state.commandLength = 0
  Accepts := accepts
  Rejects result := result.1 ≠ 0
  overrun := .fieldOverrun

/-- After a cut-off field the loop goes round once more and finds nothing to
read, or it gives up at once. -/
def Unfinished (done : TxContext -> Bool)
    (flow : Flow TxContext (Int × TxContext)) : Prop :=
  (∃ quiet, flow = .again quiet ∧ quiet.commandLength = 0 ∧
    done quiet = false) ∨
  ∃ code left, flow = .exit (code, left) ∧ code ≠ 0

/-- The parser has reached its end with a good result. -/
def Finished (done : TxContext -> Bool) (good : Int × TxContext -> Prop)
    (flow : Flow TxContext (Int × TxContext)) : Prop :=
  (∃ quiet, flow = .again quiet ∧ done quiet = true ∧ good (0, quiet)) ∨
  ∃ result, flow = .exit result ∧ good result

section Nodes

variable {buf : Region 1024} {done : TxContext -> Bool}
  {handle : Body Fault TxContext (Int × TxContext)}
  {expects : TxContext -> Layout τ α -> Prop}
  {accepts : Int × TxContext -> α -> Prop} {state : TxContext}
  {stream : List UInt8} {isList : Bool} {length : Nat} {body : List UInt8}

theorem Unfinished.ends {flow : Flow TxContext (Int × TxContext)}
    (unfinished : Unfinished done flow)
    (round : mainLoop buf done handle state = .ok flow) :
    (parserRealization buf done handle expects accepts).Ends state
      (parserRealization buf done handle expects accepts).Rejects := by
  obtain ⟨quiet, rfl, exhausted, goesOn⟩ | ⟨code, left, rfl, nonzero⟩ :=
    unfinished
  · exact ⟨(1, quiet), show (1 : Int) ≠ 0 by decide, Or.inr ⟨quiet, round,
      Or.inr exhausted, mainLoop_of_exhausted goesOn exhausted⟩⟩
  · exact ⟨(code, left), nonzero, Or.inl round⟩

theorem Finished.ends {flow : Flow TxContext (Int × TxContext)} {value : α}
    (finished : Finished done (accepts · value) flow)
    (round : mainLoop buf done handle state = .ok flow) :
    (parserRealization buf done handle expects accepts).Ends state fun result =>
      (parserRealization buf done handle expects accepts).Accepts result
        value := by
  obtain ⟨quiet, rfl, atEnd, good⟩ | ⟨result, rfl, good⟩ := finished
  · exact ⟨(0, quiet), good, Or.inr ⟨quiet, round, Or.inl atEnd,
      mainLoop_of_done atEnd⟩⟩
  · exact ⟨result, good, Or.inl round⟩

theorem undecoded_ends (clean : Clean buf state stream)
    (goesOn : done state = false)
    (undecoded : ∀ isList length body,
      readHeader stream ≠ .header isList length body) :
    (parserRealization buf done handle expects accepts).Ends state
      (parserRealization buf done handle expects accepts).Rejects := by
  obtain ⟨code, left, nonzero, exits⟩ :=
    mainLoop_of_undecoded clean goesOn undecoded
  exact ⟨(code, left), nonzero, Or.inl exits⟩

/-- An outcome that agrees with a verdict faults where the verdict does. -/
theorem leaves_iff_of_agrees {verdict : Verdict α}
    {outcome : Except Fault (Int × TxContext)}
    (agrees : (parserRealization buf done handle expects accepts).Agrees verdict
      outcome) :
    outcome = .error .fieldOverrun ↔ verdict = .overrun := by
  cases verdict with
  | accepted value complete =>
      obtain ⟨result, rfl, -⟩ := agrees
      simp
  | refused =>
      obtain ⟨result, rfl, -⟩ := agrees
      simp
  | overrun => exact iff_of_true agrees rfl

/-- An outcome that agrees with a verdict accepts what the verdict accepts. -/
theorem accepts_iff_of_agrees
    {expects : TxContext -> Layout τ TxContent -> Prop} {verdict : Verdict TxContent}
    {outcome : Except Fault (Int × TxContext)}
    (agrees : (parserRealization buf done handle expects
      LeavesContent).Agrees verdict outcome) (content : TxContent) :
    (∃ left, outcome = .ok (0, left) ∧ left.content = content) ↔
      ∃ complete, verdict = .accepted content complete := by
  cases verdict with
  | accepted value complete =>
      obtain ⟨⟨code, left⟩, rfl, rfl, same⟩ := agrees
      constructor
      · rintro ⟨other, equal, rfl⟩
        cases equal
        exact ⟨complete, by rw [← same]⟩
      · rintro ⟨_, equal⟩
        cases equal
        exact ⟨left, rfl, same⟩
  | refused =>
      obtain ⟨⟨code, left⟩, rfl, rejects⟩ := agrees
      constructor
      · rintro ⟨other, equal, _⟩
        cases equal
        exact absurd rfl rejects
      · rintro ⟨_, equal⟩
        cases equal
  | overrun =>
      obtain rfl : outcome = .error .fieldOverrun := agrees
      constructor
      · rintro ⟨_, equal, _⟩
        cases equal
      · rintro ⟨_, equal⟩
        cases equal

/-- A handler that only skips a header enters it. -/
theorem enters_of_handle (next : Nat -> Layout τ α)
    (clean : Clean buf state stream) (goesOn : done state = false)
    (decoded : readHeader stream = .header isList length body)
    (handles : ∀ ready, Ready buf state ready length body ->
      ∃ reached, handle ready = .ok (.again reached) ∧
        Clean buf reached body ∧ done reached = false ∧
        expects reached (next length)) :
    ∃ reached,
      (parserRealization buf done handle expects accepts).body.Round state reached ∧
      (parserRealization buf done handle expects accepts).At reached (next length)
        body := by
  obtain ⟨ready, atField, round⟩ :=
    mainLoop_of_header handle clean goesOn decoded
  obtain ⟨reached, handled, after⟩ := handles ready atField
  exact ⟨reached, round.trans handled, after⟩

variable {capacity : Option Nat} {out : Option Store}
  {record : TxContext -> TxContext} {prepare : TxContent -> TxContent}
  {post : TxContext -> Flow TxContext (Int × TxContext)}
  {after : TxContent}

/-- The context in which a handler takes the bytes of its field, when it has
prepared the content first. -/
def TxContext.prepared (prepare : TxContent -> TxContent)
    (context : TxContext) : TxContext :=
  { context with content := prepare context.content }

theorem Ready.prepared {before ready : TxContext}
    (atField : Ready buf before ready length body)
    (prepare : TxContent -> TxContent) :
    Ready buf (before.prepared prepare) (ready.prepared prepare)
      length body where
  holds := atField.holds.of_eq rfl rfl
  processing := atField.processing
  rlpBufferPos := atField.rlpBufferPos
  currentFieldLength := atField.currentFieldLength
  currentFieldPos := atField.currentFieldPos
  same := ⟨atField.same.1, atField.same.2, atField.same.3,
    congrArg prepare atField.same.4⟩

/-- Bytes overrun a destination when the store refuses them. -/
def Overruns (out : Option Store) (bytes : List UInt8)
    (content : TxContent) : Prop :=
  ∃ store, out = some store ∧ store bytes content = none

private theorem round_of_overrun
    (clean : Clean buf state stream) (goesOn : done state = false)
    (decoded : readHeader stream = .header isList length body)
    (handles : ∀ ready, Ready buf state ready length body ->
      handle ready =
        (takeField buf out record (ready.prepared prepare)).map post)
    (tooLong : exceeds capacity (body.take length).length = true)
    (overruns : Overruns out (body.take length) (prepare state.content)) :
    mainLoop buf done handle state = .error .fieldOverrun := by
  obtain ⟨ready, atField, round⟩ :=
    mainLoop_of_header handle clean goesOn decoded
  obtain ⟨store, rfl, refused⟩ := overruns
  have announced : 0 < length := by
    by_contra none
    obtain rfl : length = 0 := by omega
    cases capacity <;> simp at tooLong
  rw [round, handles ready atField,
    takeField_overrun (atField.prepared prepare) announced refused]
  rfl

private theorem round_of_complete
    (clean : Clean buf state stream) (goesOn : done state = false)
    (decoded : readHeader stream = .header isList length body)
    (handles : ∀ ready, Ready buf state ready length body ->
      handle ready =
        (takeField buf out record (ready.prepared prepare)).map post)
    (stores : Stores out length (body.take length) (prepare state.content)
      after)
    (enough : length ≤ body.length) :
    ∃ copied, Copied buf state copied after length (body.drop length) ∧
      mainLoop buf done handle state =
        .ok (post { record copied with processingField := false }) := by
  obtain ⟨ready, atField, round⟩ :=
    mainLoop_of_header handle clean goesOn decoded
  have copied := (atField.prepared prepare).copied after enough
  refine ⟨_, ⟨copied.1, copied.2, copied.3, copied.4, copied.5, copied.6,
    copied.7⟩, ?_⟩
  rw [round, handles ready atField,
    takeField_complete (atField.prepared prepare) stores enough]
  rfl

private theorem round_of_cutOff
    (clean : Clean buf state stream) (goesOn : done state = false)
    (decoded : readHeader stream = .header isList length body)
    (handles : ∀ ready, Ready buf state ready length body ->
      handle ready =
        (takeField buf out record (ready.prepared prepare)).map post)
    (stores : Stores out length (body.take length) (prepare state.content)
      after)
    (cutOff : body.length < length) :
    ∃ copied, Copied buf state copied after length [] ∧
      mainLoop buf done handle state = .ok (post copied) := by
  obtain ⟨ready, atField, round⟩ :=
    mainLoop_of_header handle clean goesOn decoded
  have copied := (atField.prepared prepare).copied after
    (Nat.le_refl body.length)
  rw [List.drop_length] at copied
  refine ⟨_, ⟨copied.1, copied.2, copied.3, copied.4, copied.5, copied.6,
    copied.7⟩, ?_⟩
  rw [round, handles ready atField,
    takeField_cutOff (atField.prepared prepare) stores cutOff]
  rfl

/-- A handler that takes one field reads one item of the layout. -/
theorem readsItem_of_handle {next : List UInt8 -> Layout τ α}
    (record : TxContext -> TxContext) (prepare : TxContent -> TxContent)
    (post : TxContext -> Flow TxContext (Int × TxContext))
    (clean : Clean buf state stream) (goesOn : done state = false)
    (decoded : readHeader stream = .header isList length body)
    (handles : ∀ ready, Ready buf state ready length body ->
      handle ready =
        (takeField buf out record (ready.prepared prepare)).map post)
    (overruns : exceeds capacity (body.take length).length = true ->
      Overruns out (body.take length) (prepare state.content))
    (stores : exceeds capacity (body.take length).length = false ->
      Stores out length (body.take length) (prepare state.content) after)
    (complete : length ≤ body.length ->
      ∀ copied, Copied buf state copied after length (body.drop length) ->
      (∃ reached,
        post { record copied with processingField := false } =
          .again reached ∧
        Clean buf reached (body.drop length) ∧ done reached = false ∧
        expects reached (next (body.take length))) ∨
      (next (body.take length) = .refuse ∧
        Unfinished done (post { record copied with
          processingField := false })))
    (cutOff : ∀ copied, Copied buf state copied after length [] ->
      Unfinished done (post copied)) :
    (parserRealization buf done handle expects accepts).ReadsItem state capacity next
      length body where
  overrun tooLong := round_of_overrun clean goesOn decoded handles tooLong
    (overruns tooLong)
  cutOff fits short := by
    obtain ⟨copied, facts, round⟩ :=
      round_of_cutOff clean goesOn decoded handles (stores fits) short
    exact (cutOff copied facts).ends round
  complete fits enough := by
    obtain ⟨copied, facts, round⟩ :=
      round_of_complete clean goesOn decoded handles (stores fits) enough
    obtain ⟨reached, again, clean, goesOn, expected⟩ | ⟨refuse, gaveUp⟩ :=
      complete enough copied facts
    · exact Or.inl ⟨reached, round.trans (congrArg _ again), clean, goesOn,
        expected⟩
    · exact Or.inr ⟨refuse, gaveUp.ends round⟩

/-- A handler that takes the last field faults when its bytes do not fit. -/
theorem final_overrun_of_handle
    (record : TxContext -> TxContext) (prepare : TxContent -> TxContent)
    (post : TxContext -> Flow TxContext (Int × TxContext))
    (clean : Clean buf state stream) (goesOn : done state = false)
    (decoded : readHeader stream = .header isList length body)
    (handles : ∀ ready, Ready buf state ready length body ->
      handle ready =
        (takeField buf out record (ready.prepared prepare)).map post)
    (overruns : Overruns out (body.take length) (prepare state.content))
    (tooLong : exceeds capacity (body.take length).length = true) :
    mainLoop buf done handle state = .error .fieldOverrun :=
  round_of_overrun clean goesOn decoded handles tooLong overruns

/-- A handler that takes the last field accepts, whether the field is there in
full or not. -/
theorem final_of_handle {value : α}
    (record : TxContext -> TxContext) (prepare : TxContent -> TxContent)
    (post : TxContext -> Flow TxContext (Int × TxContext))
    (clean : Clean buf state stream) (goesOn : done state = false)
    (decoded : readHeader stream = .header isList length body)
    (handles : ∀ ready, Ready buf state ready length body ->
      handle ready =
        (takeField buf out record (ready.prepared prepare)).map post)
    (stores : Stores out length (body.take length) (prepare state.content)
      after)
    (complete : length ≤ body.length ->
      ∀ copied, Copied buf state copied after length (body.drop length) ->
      Finished done (accepts · value)
        (post { record copied with processingField := false }))
    (cutOff : body.length < length ->
      ∀ copied, Copied buf state copied after length [] ->
      Finished done (accepts · value) (post copied)) :
    (parserRealization buf done handle expects accepts).Ends state fun result =>
      (parserRealization buf done handle expects accepts).Accepts result value := by
  by_cases short : body.length < length
  · obtain ⟨copied, facts, round⟩ :=
      round_of_cutOff clean goesOn decoded handles stores short
    exact (cutOff short copied facts).ends round
  · obtain ⟨copied, facts, round⟩ := round_of_complete clean goesOn decoded
      handles stores (Nat.le_of_not_lt short)
    exact (complete (Nat.le_of_not_lt short) copied facts).ends round

end Nodes

end LedgerOne
