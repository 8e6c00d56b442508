import LedgerOne.Decoder.Store

/-!
# Stores inside the arrays

Whether a round of a main loop stores the bytes of its field inside the array
of the field, and rejects a longer field before storing anything.  A loop that
reads a layout does so in every round exactly when all announced lengths fit.
-/

namespace LedgerOne

open Rlp Layout

section Rounds

variable (buf : Region 1024) (done : TxContext -> Bool)
  (handle : Body Fault TxContext (Int × TxContext))
  (arrayOf : TxContext -> Option Nat)
  (integerOf : TxContext -> Option (Slot TxInt256))

/-- In this round no byte is stored past an array, and a field longer than its
array is rejected before any byte of it is stored. -/
def StoresInside (state : TxContext) : Prop :=
  mainLoop buf done handle state ≠ .error .fieldOverrun ∧
  ∀ ready size,
    beforeSwitch buf (done state) state = .ok (none, ready) ->
    arrayOf ready = some size ->
    ready.currentFieldPos + ready.copySize ≤ size ∧
    (size < ready.currentFieldLength ->
      ready.copySize = 0 ∧
      ∀ result, (mainLoop buf done handle).Yields state (.ok result) ->
        result.1 ≠ 0)

/-- In this round a completed integer gets its true length, at most 32. -/
def RecordsLength (state : TxContext) : Prop :=
  ∀ ready slot flow,
    beforeSwitch buf (done state) state = .ok (none, ready) ->
    integerOf ready = some slot ->
    mainLoop buf done handle state = .ok flow ->
    (contextAfter flow).processingField = false ->
    (slot.get (contextAfter flow).content).length.toNat =
        ready.currentFieldLength ∧
      ready.currentFieldLength ≤ 32

end Rounds

section Realized

variable {buf : Region 1024} {done : TxContext -> Bool}
  {handle : Body Fault TxContext (Int × TxContext)}
  {expects : TxContext -> Layout τ TxContent -> Prop}
  {arrayOf : TxContext -> Option Nat}
  {integerOf : TxContext -> Option (Slot TxInt256)}
  {state : TxContext} {stream : List UInt8} {isList : Bool} {length : Nat}
  {body : List UInt8} {capacity : Option Nat}

/-- A round that reaches the `switch` with another header is the same
round. -/
private theorem ready_unique {ready other : TxContext}
    (first : beforeSwitch buf (done state) state = .ok (none, ready))
    (second : beforeSwitch buf (done state) state = .ok (none, other)) :
    other = ready := by
  rw [first] at second
  cases second
  rfl

/-- A round that stores nothing in an array stores inside. -/
private theorem storesInside_of_none
    (noFault : mainLoop buf done handle state ≠ .error .fieldOverrun)
    (noArray : ∀ ready,
      beforeSwitch buf (done state) state = .ok (none, ready) ->
      arrayOf ready = none) :
    StoresInside buf done handle arrayOf state := by
  refine ⟨noFault, fun ready size head array => ?_⟩
  rw [noArray ready head] at array
  cases array

/-- A round that reads one item stores inside exactly when a longer item has
no byte to store. -/
private theorem storesInside_iff_of_reads
    {next : List UInt8 -> Layout τ TxContent}
    (sameArray : ∀ before after, SameProgress before after ->
      arrayOf after = arrayOf before)
    (clean : Clean buf state stream) (goesOn : done state = false)
    (decoded : readHeader stream = .header isList length body)
    (array : arrayOf state = capacity)
    (reads : (parserRealization buf done handle expects LeavesContent).ReadsItem state
      capacity next length body) :
    StoresInside buf done handle arrayOf state ↔
      (exceeds capacity length = true -> body = []) := by
  obtain ⟨ready, atField, head⟩ :=
    beforeSwitch_of_header clean goesOn decoded
  have arrayReady : arrayOf ready = capacity :=
    (sameArray _ _ atField.same).trans array
  have copied := atField.copySize_eq
  constructor
  · rintro ⟨_, stored⟩ tooLong
    cases capacity with
    | none => simp at tooLong
    | some size =>
        simp only [exceeds_some, decide_eq_true_eq] at tooLong
        obtain ⟨_, rejects⟩ := stored ready size head arrayReady
        rw [atField.currentFieldLength] at rejects
        have nothing := (rejects tooLong).1
        exact List.length_eq_zero_iff.mp (by omega)
  · intro fits
    have inside : exceeds capacity (body.take length).length = false := by
      by_contra tooLong
      have announced : exceeds capacity length = true := by
        by_contra within
        exact tooLong (exceeds_mono (by simpa using within)
          (List.length_take_le length body))
      rw [fits announced] at tooLong
      cases capacity <;> simp at tooLong
    constructor
    · by_cases cutOff : body.length < length
      · exact (reads.cutOff inside cutOff).ne_error _
      · obtain ⟨reached, round, _⟩ | ⟨_, ends⟩ :=
          reads.complete inside (Nat.le_of_not_lt cutOff)
        · have round : mainLoop buf done handle state = .ok (.again reached) :=
            round
          simp [round]
        · exact ends.ne_error _
    · intro other size headOther array
      obtain rfl := ready_unique head headOther
      obtain rfl : capacity = some size := arrayReady.symm.trans array
      rw [atField.currentFieldPos, atField.currentFieldLength]
      simp only [exceeds_some, decide_eq_true_eq] at fits
      constructor
      · by_cases tooLong : size < length
        · rw [copied, fits tooLong]
          simp
        · omega
      · intro tooLong
        have empty := fits tooLong
        refine ⟨by rw [copied, empty]; simp, fun result yields => ?_⟩
        exact (reads.cutOff inside (by rw [empty]; simp; omega)).of_yields
          yields

/-- A round that takes the last field stores inside exactly when the field
fits. -/
private theorem storesInside_iff_of_final {content : TxContent}
    (sameArray : ∀ before after, SameProgress before after ->
      arrayOf after = arrayOf before)
    (clean : Clean buf state stream) (goesOn : done state = false)
    (decoded : readHeader stream = .header isList length body)
    (array : arrayOf state = capacity)
    (accepts : exceeds capacity (body.take length).length = false ->
      (parserRealization buf done handle expects LeavesContent).Ends state fun result =>
        (parserRealization buf done handle expects LeavesContent).Accepts result content) :
    StoresInside buf done handle arrayOf state ↔
      exceeds capacity length = false := by
  obtain ⟨ready, atField, head⟩ :=
    beforeSwitch_of_header clean goesOn decoded
  have arrayReady : arrayOf ready = capacity :=
    (sameArray _ _ atField.same).trans array
  have copied := atField.copySize_eq
  constructor
  · rintro ⟨_, stored⟩
    by_contra announced
    cases capacity with
    | none => simp at announced
    | some size =>
        have tooLong : size < length := by simpa using announced
        obtain ⟨_, rejects⟩ := stored ready size head arrayReady
        rw [atField.currentFieldLength] at rejects
        obtain ⟨nothing, nonzero⟩ := rejects tooLong
        have empty : body = [] := List.length_eq_zero_iff.mp (by omega)
        obtain ⟨result, yields, zero, _⟩ :=
          (accepts (by rw [empty]; simp)).yields
        exact nonzero result yields zero
  · intro fits
    have inside : exceeds capacity (body.take length).length = false :=
      exceeds_mono fits (List.length_take_le length body)
    refine ⟨(accepts inside).ne_error _, fun other size headOther array => ?_⟩
    obtain rfl := ready_unique head headOther
    obtain rfl : capacity = some size := arrayReady.symm.trans array
    simp only [exceeds_some, decide_eq_false_iff_not] at fits
    rw [atField.currentFieldPos, atField.currentFieldLength]
    exact ⟨by omega, fun tooLong => absurd tooLong fits⟩

/-- The arrays and integers of a machine are those of the layout it reads. -/
structure Arrays (buf : Region 1024)
    (handle : Body Fault TxContext (Int × TxContext))
    (expects : TxContext -> Layout τ TxContent -> Prop)
    (arrayOf : TxContext -> Option Nat)
    (integerOf : TxContext -> Option (Slot TxInt256)) : Prop where
  same {before after} : SameProgress before after ->
    arrayOf after = arrayOf before
  array {state layout} : expects state layout ->
    arrayOf state = layout.capacity
  integers {before ready length body slot flow} :
    Ready buf before ready length body ->
    integerOf ready = some slot ->
    handle ready = .ok flow ->
    (contextAfter flow).processingField = false ->
    (slot.get (contextAfter flow).content).length.toNat = length ∧
      length ≤ 32

/-- A round between two fields records true lengths. -/
private theorem recordsLength_of_clean
    (arrays : Arrays buf handle expects arrayOf integerOf)
    (clean : Clean buf state stream) (goesOn : done state = false) :
    RecordsLength buf done handle integerOf state := by
  intro ready slot flow head integer round finished
  cases decoded : readHeader stream with
  | header isList length body =>
      obtain ⟨other, atField, headOther⟩ :=
        beforeSwitch_of_header clean goesOn decoded
      obtain rfl := ready_unique headOther head
      have handled : handle ready = .ok flow := by
        simpa [mainLoop, head] using round
      rw [atField.currentFieldLength]
      exact arrays.integers atField integer handled finished
  | short =>
      obtain ⟨code, left, _, none⟩ := beforeSwitch_of_undecoded clean goesOn
        (by simp [decoded])
      rw [head] at none
      cases none
  | invalid =>
      obtain ⟨code, left, _, none⟩ := beforeSwitch_of_undecoded clean goesOn
        (by simp [decoded])
      rw [head] at none
      cases none

/-- The rounds of a machine are judged by the announced lengths. -/
private theorem judges_of_arrays
    (arrays : Arrays buf handle expects arrayOf integerOf)
    (sound : (parserRealization buf done handle expects LeavesContent).Sound) :
    (parserRealization buf done handle expects LeavesContent).Judges fun state =>
      StoresInside buf done handle arrayOf state ∧
        RecordsLength buf done handle integerOf state where
  quiet {state} quiet := by
    have left : ∃ code, beforeSwitch buf (done state) state =
        .ok (some code, state) := by
      cases atEnd : done state with
      | true => exact ⟨0, by simp [beforeSwitch]⟩
      | false =>
          have quiet : done state = true ∨ state.commandLength = 0 := quiet
          have exhausted : state.commandLength = 0 := by
            simpa [atEnd] using quiet
          exact ⟨1, by simp [beforeSwitch, exhausted]⟩
    obtain ⟨code, head⟩ := left
    refine ⟨storesInside_of_none (by simp [mainLoop, head]) ?_, ?_⟩
    · intro ready other
      rw [head] at other
      cases other
    · intro ready slot flow other
      rw [head] at other
      cases other
  undecoded {state layout stream} entered undecoded := by
    obtain ⟨code, left, _, head⟩ :=
      beforeSwitch_of_undecoded entered.1 entered.2.1 undecoded
    refine ⟨storesInside_of_none (by simp [mainLoop, head]) ?_, ?_⟩
    · intro ready other
      rw [head] at other
      cases other
    · exact recordsLength_of_clean arrays entered.1 entered.2.1
  enter {state tag next stream} entered := by
    refine ⟨storesInside_of_none ?_ ?_,
      recordsLength_of_clean arrays entered.1 entered.2.1⟩
    · cases decoded : readHeader stream with
      | header isList length body =>
          obtain ⟨reached, round, _⟩ := sound.enter entered decoded
          have round : mainLoop buf done handle state =
              .ok (.again reached) := round
          simp [round]
      | short =>
          exact (sound.undecoded entered (by simp [decoded])).ne_error _
      | invalid =>
          exact (sound.undecoded entered (by simp [decoded])).ne_error _
    · intro ready head
      cases decoded : readHeader stream with
      | header isList length body =>
          obtain ⟨other, atField, headOther⟩ :=
            beforeSwitch_of_header entered.1 entered.2.1 decoded
          obtain rfl := ready_unique headOther head
          exact (arrays.same atField.same).trans (arrays.array entered.2.2)
      | short =>
          obtain ⟨code, left, _, none⟩ := beforeSwitch_of_undecoded entered.1
            entered.2.1 (by simp [decoded])
          rw [head] at none
          cases none
      | invalid =>
          obtain ⟨code, left, _, none⟩ := beforeSwitch_of_undecoded entered.1
            entered.2.1 (by simp [decoded])
          rw [head] at none
          cases none
  field entered decoded :=
    (and_iff_left (recordsLength_of_clean arrays entered.1 entered.2.1)).trans
      (storesInside_iff_of_reads (fun _ _ => arrays.same) entered.1
        entered.2.1 decoded (arrays.array entered.2.2)
        (sound.field entered decoded))
  drain entered decoded :=
    (and_iff_left (recordsLength_of_clean arrays entered.1 entered.2.1)).trans
      (storesInside_iff_of_reads (fun _ _ => arrays.same) entered.1
        entered.2.1 decoded (arrays.array entered.2.2)
        (sound.drain entered decoded))
  final entered decoded :=
    (and_iff_left (recordsLength_of_clean arrays entered.1 entered.2.1)).trans
      (storesInside_iff_of_final (fun _ _ => arrays.same) entered.1
        entered.2.1 decoded (arrays.array entered.2.2)
        (sound.final entered decoded))

/-- Every round stores inside and records true lengths exactly when all
announced lengths fit. -/
theorem rounds_inside_iff_fits
    (arrays : Arrays buf handle expects arrayOf integerOf)
    (sound : (parserRealization buf done handle expects LeavesContent).Sound)
    {layout : Layout τ TxContent}
    (entered : (parserRealization buf done handle expects LeavesContent).At state layout
      stream) :
    (∀ visited, (mainLoop buf done handle).Visits state visited ->
      StoresInside buf done handle arrayOf visited ∧
        RecordsLength buf done handle integerOf visited) ↔
      layout.Fits stream :=
  sound.visits_iff_fits (judges_of_arrays arrays sound) entered

end Realized

/-! ## Integers -/

/-- `processGas` and `processValue` record the true length of an integer. -/
theorem length_of_processInt256 {buf : Region 1024}
    {before ready : TxContext} {length : Nat} {body : List UInt8}
    (slot : Slot TxInt256)
    (post : TxContext -> Flow TxContext (Int × TxContext))
    (keeps : ∀ handled,
      (contextAfter (post handled)).processingField =
          handled.processingField ∧
        (contextAfter (post handled)).content = handled.content)
    (atField : Ready buf before ready length body)
    {flow : Flow TxContext (Int × TxContext)}
    (handled : (processInt256 buf slot.address slot.get slot.set ready).map post =
      .ok flow)
    (finished : (contextAfter flow).processingField = false) :
    (slot.get (contextAfter flow).content).length.toNat = length ∧
      length ≤ 32 := by
  rw [processInt256_eq slot atField] at handled
  have empty : length = 0 -> body.take length = [] := by
    rintro rfl
    rfl
  cases fits : exceeds (some 32) (body.take length).length with
  | true =>
      obtain ⟨store, equal, refused⟩ :
          Overruns (some (storeInt256 slot.address slot.get slot.set 0))
            (body.take length) before.content := overruns_int256 slot fits
      cases equal
      have announced : 0 < length := by
        by_contra none
        obtain rfl : length = 0 := by omega
        simp at fits
      rw [takeField_overrun atField announced refused] at handled
      cases handled
  | false =>
      have stores : Stores (some (storeInt256 slot.address slot.get slot.set 0)) length
          (body.take length) before.content
          (slot.putValue (body.take length) before.content) :=
        stores_int256 slot empty fits
      by_cases cutOff : body.length < length
      · rw [takeField_cutOff atField stores cutOff] at handled
        cases handled
        rw [(keeps _).1] at finished
        exact absurd (atField.processing.symm.trans finished) (by simp)
      · have enough := Nat.le_of_not_lt cutOff
        rw [takeField_complete atField stores enough] at handled
        cases handled
        have facts := (atField.copied (slot.putValue (body.take length)
          before.content) enough).recordInt256 (List.length_take_of_le enough)
        rw [(keeps _).2, facts.content, Slot.putInt, slot.get_set]
        simp only [exceeds_some, decide_eq_false_iff_not,
          List.length_take_of_le enough] at fits ⊢
        constructor
        · simp
          omega
        · omega

end LedgerOne
