import LedgerOne.Lib.Layout

/-!
# Loops that read a layout

A loop realizes a layout when each of its rounds follows one node: it enters a
header, stores a field, or takes the last one.  From these step conditions the
two results below follow for whole runs: the loop ends with the layout's
verdict within a number of rounds bounded by the input, and a property of the
single rounds holds in every visited state exactly when every announced length
fits.
-/

namespace LedgerOne

open Rlp Layout

/-- The vocabulary in which a loop follows a layout over fields `τ` and values
`α`. -/
structure Realization (ε σ ρ τ α : Type) where
  /-- The body of the loop. -/
  body : Body ε σ ρ
  /-- The loop is entered with a layout still to read and a stream to read it
  from. -/
  At : σ -> Layout τ α -> List UInt8 -> Prop
  /-- The loop is entered once more but reads nothing. -/
  Quiet : σ -> Prop
  /-- The results that accept a value. -/
  Accepts : ρ -> α -> Prop
  /-- The results that reject. -/
  Rejects : ρ -> Prop
  /-- The fault of storing past an array. -/
  overrun : ε

namespace Realization

variable {ε σ ρ τ α : Type} (R : Realization ε σ ρ τ α)

/-- The loop leaves with a result at once, or after one quiet round. -/
def Ends (state : σ) (results : ρ -> Prop) : Prop :=
  ∃ result, results result ∧
    (R.body state = .ok (.exit result) ∨
      ∃ next, R.body.Round state next ∧ R.Quiet next ∧
        R.body next = .ok (.exit result))

/-- One round reads one item into an array of the given capacity and goes on
with the layout it determines. -/
structure ReadsItem (state : σ) (capacity : Option Nat)
    (next : List UInt8 -> Layout τ α) (length : Nat) (body : List UInt8) :
    Prop where
  overrun : exceeds capacity (body.take length).length = true ->
    R.body state = .error R.overrun
  cutOff : exceeds capacity (body.take length).length = false ->
    body.length < length -> R.Ends state R.Rejects
  complete : exceeds capacity (body.take length).length = false ->
    length ≤ body.length ->
    (∃ reached, R.body.Round state reached ∧
        R.At reached (next (body.take length)) (body.drop length)) ∨
      (next (body.take length) = .refuse ∧ R.Ends state R.Rejects)

/-- Every round of the loop follows one node of the layout it is at. -/
structure Sound : Prop where
  not_refuse {state stream} : ¬R.At state .refuse stream
  undecoded {state layout stream} : R.At state layout stream ->
    (∀ isList length body, readHeader stream ≠ .header isList length body) ->
    R.Ends state R.Rejects
  enter {state tag next stream isList length body} :
    R.At state (.enter tag next) stream ->
    readHeader stream = .header isList length body ->
    ∃ reached, R.body.Round state reached ∧ R.At reached (next length) body
  field {state tag capacity next stream isList length body} :
    R.At state (.field tag capacity next) stream ->
    readHeader stream = .header isList length body ->
    R.ReadsItem state capacity next length body
  drain {state tag capacity stream isList length body} :
    R.At state (.drain tag capacity) stream ->
    readHeader stream = .header isList length body ->
    R.ReadsItem state capacity (fun _ => .drain tag capacity) length body
  final_overrun {state tag capacity value stream isList length body} :
    R.At state (.final tag capacity value) stream ->
    readHeader stream = .header isList length body ->
    exceeds capacity (body.take length).length = true ->
    R.body state = .error R.overrun
  final {state tag capacity value stream isList length body} :
    R.At state (.final tag capacity value) stream ->
    readHeader stream = .header isList length body ->
    exceeds capacity (body.take length).length = false ->
    R.Ends state fun result =>
      R.Accepts result (value length (body.take length))

/-- A result of the loop that agrees with a verdict. -/
def Agrees : Verdict α -> Except ε ρ -> Prop
  | .accepted value _, outcome =>
      ∃ result, outcome = .ok result ∧ R.Accepts result value
  | .refused, outcome => ∃ result, outcome = .ok result ∧ R.Rejects result
  | .overrun, outcome => outcome = .error R.overrun

variable {R}

/-- A header is decoded, or it is not. -/
private theorem header_cases (stream : List UInt8) :
    (∃ isList length body, readHeader stream = .header isList length body) ∨
      ((∀ isList length body,
          readHeader stream ≠ .header isList length body) ∧
        (readHeader stream = .short ∨ readHeader stream = .invalid)) := by
  cases decoded : readHeader stream with
  | short => exact Or.inr ⟨by simp, Or.inl rfl⟩
  | invalid => exact Or.inr ⟨by simp, Or.inr rfl⟩
  | header isList length body => exact Or.inl ⟨_, _, _, rfl⟩

theorem Ends.run {state : σ} {results : ρ -> Prop}
    (ends : R.Ends state results) (extra : Nat) :
    ∃ result, R.body.run (extra + 2) state = some (.ok result) ∧
      results result := by
  obtain ⟨result, holds, exits | ⟨next, round, _, exits⟩⟩ := ends
  · exact ⟨result, by simp [Body.run, exits], holds⟩
  · unfold Body.Round at round
    exact ⟨result, by simp [Body.run, round, exits], holds⟩

/-- Every result of a loop that leaves is one of the promised results. -/
theorem Ends.of_yields {state : σ} {results : ρ -> Prop}
    (ends : R.Ends state results) {result : ρ}
    (yields : R.body.Yields state (.ok result)) : results result := by
  obtain ⟨actual, runs, holds⟩ := ends.run 0
  have equal := Body.Yields.unique yields ⟨_, runs⟩
  rwa [Except.ok.inj equal]

/-- Where a loop leaves, it does so with one of the promised results. -/
theorem Ends.yields {state : σ} {results : ρ -> Prop}
    (ends : R.Ends state results) :
    ∃ result, R.body.Yields state (.ok result) ∧ results result := by
  obtain ⟨actual, runs, holds⟩ := ends.run 0
  exact ⟨actual, ⟨_, runs⟩, holds⟩

/-- A loop that leaves does not fault in its first round. -/
theorem Ends.ne_error {state : σ} {results : ρ -> Prop}
    (ends : R.Ends state results) (fault : ε) :
    R.body state ≠ .error fault := by
  obtain ⟨result, -, exits | ⟨next, round, -⟩⟩ := ends
  · simp [exits]
  · unfold Body.Round at round
    simp [round]

/-- A round may be added in front of a run. -/
private theorem run_of_round {state next : σ} {rounds : Nat}
    (round : R.body.Round state next) :
    R.body.run (rounds + 1) state = R.body.run rounds next := by
  unfold Body.Round at round
  simp [Body.run, round]

private theorem run_of_error {state : σ} {fault : ε} (extra : Nat)
    (faults : R.body state = .error fault) :
    R.body.run (extra + 2) state = some (.error fault) := by
  simp [Body.run, faults]

/-- What the loop does on a stream from which no header is decoded. -/
private theorem run_undecoded (sound : R.Sound) {state : σ}
    {layout : Layout τ α} {stream : List UInt8}
    (entered : R.At state layout stream)
    (undecoded : ∀ isList length body,
      readHeader stream ≠ .header isList length body)
    (extra : Nat) :
    ∃ outcome, R.body.run (extra + 2) state = some outcome ∧
      R.Agrees .refused outcome := by
  obtain ⟨result, ends, rejects⟩ :=
    (sound.undecoded entered undecoded).run extra
  exact ⟨_, ends, result, rfl, rejects⟩

private theorem run_drain (sound : R.Sound) (tag : τ)
    (capacity : Option Nat) (items extra : Nat) (state : σ)
    (stream : List UInt8)
    (entered : R.At state (.drain tag capacity) stream)
    (enough : stream.length ≤ items) :
    ∃ outcome, R.body.run (items + extra + 2) state = some outcome ∧
      R.Agrees (drained capacity items stream) outcome := by
  induction items generalizing state stream with
  | zero =>
      obtain rfl := List.length_eq_zero_iff.mp (Nat.le_zero.mp enough)
      exact run_undecoded sound entered (by simp) _
  | succ items inductionHypothesis =>
      obtain ⟨isList, length, body, decoded⟩ | ⟨undecoded, short | invalid⟩ :=
        header_cases stream
      · have reads := sound.drain entered decoded
        have shorter := length_drop_body_lt decoded
        simp only [drained, decoded]
        split_ifs with tooLong cutOff
        · exact ⟨_, run_of_error _ (reads.overrun tooLong), rfl⟩
        · obtain ⟨result, ends, rejects⟩ :=
            (reads.cutOff (by simpa using tooLong) cutOff).run _
          exact ⟨_, ends, result, rfl, rejects⟩
        · obtain ⟨reached, round, entered⟩ | ⟨refuse, _⟩ :=
            reads.complete (by simpa using tooLong) (by omega)
          · obtain ⟨outcome, ends, agrees⟩ :=
              inductionHypothesis reached _ entered (by omega)
            refine ⟨outcome, ?_, agrees⟩
            rw [show items + 1 + extra + 2 = items + extra + 2 + 1 by omega,
              run_of_round round]
            exact ends
          · simp at refuse
      · simp only [drained, short]
        exact run_undecoded sound entered undecoded _
      · simp only [drained, invalid]
        exact run_undecoded sound entered undecoded _

/-- The loop ends with the verdict of the layout it is entered at, within a
number of rounds bounded by the length of the stream and the number of headers
to enter. -/
theorem Sound.run (sound : R.Sound) {state : σ} {layout : Layout τ α}
    {stream : List UInt8} {enters : Nat}
    (entered : R.At state layout stream)
    (bounded : layout.EntersAtMost enters) :
    ∃ outcome,
      R.body.run (stream.length + enters + 2) state = some outcome ∧
        R.Agrees (layout.verdict stream) outcome := by
  induction layout generalizing state stream enters with
  | refuse => exact absurd entered sound.not_refuse
  | enter tag next inductionHypothesis =>
      obtain ⟨isList, length, body, decoded⟩ | ⟨undecoded, short | invalid⟩ :=
        header_cases stream
      · cases enters with
        | zero => exact absurd bounded (by simp [EntersAtMost])
        | succ enters =>
            obtain ⟨reached, round, entered⟩ := sound.enter entered decoded
            obtain ⟨outcome, ends, agrees⟩ :=
              inductionHypothesis length entered (bounded length)
            refine ⟨outcome, ?_, by simpa [verdict, decoded] using agrees⟩
            have shorter := length_body_le decoded
            rw [show stream.length + (enters + 1) + 2 =
              stream.length + enters + 2 + 1 by omega, run_of_round round]
            exact Body.run_mono ends (by omega)
      · simp only [verdict, short]
        exact run_undecoded sound entered undecoded _
      · simp only [verdict, invalid]
        exact run_undecoded sound entered undecoded _
  | field tag capacity next inductionHypothesis =>
      obtain ⟨isList, length, body, decoded⟩ | ⟨undecoded, short | invalid⟩ :=
        header_cases stream
      · have reads := sound.field entered decoded
        have shorter := length_drop_body_lt decoded
        simp only [verdict, decoded]
        split_ifs with tooLong cutOff
        · exact ⟨_, run_of_error _ (reads.overrun tooLong), rfl⟩
        · obtain ⟨result, ends, rejects⟩ :=
            (reads.cutOff (by simpa using tooLong) cutOff).run _
          exact ⟨_, ends, result, rfl, rejects⟩
        · obtain ⟨reached, round, entered⟩ | ⟨refuse, ends⟩ :=
            reads.complete (by simpa using tooLong) (by omega)
          · have later : (next (body.take length)).EntersAtMost enters := by
              simpa [EntersAtMost] using bounded _
            obtain ⟨outcome, ends, agrees⟩ :=
              inductionHypothesis (body.take length) entered later
            refine ⟨outcome, ?_, agrees⟩
            rw [show stream.length + enters + 2 =
              (stream.length - 1) + enters + 2 + 1 by omega,
              run_of_round round]
            exact Body.run_mono ends (by omega)
          · obtain ⟨result, ends, rejects⟩ := ends.run (stream.length + enters)
            refine ⟨_, ends, ?_⟩
            rw [refuse]
            exact ⟨result, rfl, rejects⟩
      · simp only [verdict, short]
        exact run_undecoded sound entered undecoded _
      · simp only [verdict, invalid]
        exact run_undecoded sound entered undecoded _
  | final tag capacity value =>
      obtain ⟨isList, length, body, decoded⟩ | ⟨undecoded, short | invalid⟩ :=
        header_cases stream
      · simp only [verdict, decoded]
        split_ifs with tooLong
        · exact ⟨_, run_of_error _
            (sound.final_overrun entered decoded tooLong), rfl⟩
        · obtain ⟨result, ends, accepts⟩ :=
            (sound.final entered decoded (by simpa using tooLong)).run _
          exact ⟨_, ends, result, rfl, accepts⟩
      · simp only [verdict, short]
        exact run_undecoded sound entered undecoded _
      · simp only [verdict, invalid]
        exact run_undecoded sound entered undecoded _
  | drain tag capacity =>
      rw [verdict, show stream.length + enters + 2 =
        stream.length + enters + 2 from rfl]
      exact run_drain sound tag capacity _ enters state stream entered
        (Nat.le_refl _)

/-! ## Properties of the visited states -/

/-- How a property of single rounds relates to the lengths that the layout
announces there. -/
structure Judges (R : Realization ε σ ρ τ α) (Safe : σ -> Prop) : Prop where
  quiet {state} : R.Quiet state -> Safe state
  undecoded {state layout stream} : R.At state layout stream ->
    (∀ isList length body, readHeader stream ≠ .header isList length body) ->
    Safe state
  enter {state tag next stream} : R.At state (.enter tag next) stream ->
    Safe state
  field {state tag capacity next stream isList length body} :
    R.At state (.field tag capacity next) stream ->
    readHeader stream = .header isList length body ->
    (Safe state ↔ (exceeds capacity length = true -> body = []))
  drain {state tag capacity stream isList length body} :
    R.At state (.drain tag capacity) stream ->
    readHeader stream = .header isList length body ->
    (Safe state ↔ (exceeds capacity length = true -> body = []))
  final {state tag capacity value stream isList length body} :
    R.At state (.final tag capacity value) stream ->
    readHeader stream = .header isList length body ->
    (Safe state ↔ exceeds capacity length = false)

variable {Safe : σ -> Prop}

/-- Where the loop ends, only its own state has to be judged. -/
private theorem Ends.visits_iff (judges : R.Judges Safe) {state : σ}
    {results : ρ -> Prop} (ends : R.Ends state results) :
    (∀ visited, R.body.Visits state visited -> Safe visited) ↔
      Safe state := by
  constructor
  · intro all
    exact all state Relation.ReflTransGen.refl
  · intro safe visited visits
    obtain ⟨result, -, exits | ⟨next, round, quiet, exits⟩⟩ := ends
    · rw [visits.eq_of_no_round (by simp [Body.Round, exits])]
      exact safe
    · obtain rfl | later := round.visits_iff.mp visits
      · exact safe
      · rw [later.eq_of_no_round (by simp [Body.Round, exits])]
        exact judges.quiet quiet

private theorem visits_iff_of_error {state : σ} {fault : ε}
    (faults : R.body state = .error fault) :
    (∀ visited, R.body.Visits state visited -> Safe visited) ↔
      Safe state := by
  constructor
  · intro all
    exact all state Relation.ReflTransGen.refl
  · intro safe visited visits
    rw [visits.eq_of_no_round (by simp [Body.Round, faults])]
    exact safe

private theorem visits_iff_of_round {state next : σ}
    (round : R.body.Round state next) :
    (∀ visited, R.body.Visits state visited -> Safe visited) ↔
      Safe state ∧
        ∀ visited, R.body.Visits next visited -> Safe visited := by
  constructor
  · intro all
    exact ⟨all state Relation.ReflTransGen.refl, fun visited later =>
      all visited (round.visits_iff.mpr (Or.inr later))⟩
  · rintro ⟨safe, later⟩ visited visits
    obtain rfl | rest := round.visits_iff.mp visits
    · exact safe
    · exact later visited rest

/-- The rounds from one that reads an item are safe when the item fits and the
rounds after it are safe. -/
private theorem visits_iff_of_readsItem (judges : R.Judges Safe)
    {state : σ} {capacity : Option Nat} {next : List UInt8 -> Layout τ α}
    {length : Nat} {body : List UInt8} {Rest : Prop}
    (reads : R.ReadsItem state capacity next length body)
    (judged : Safe state ↔ (exceeds capacity length = true -> body = []))
    (continues : ∀ reached, length ≤ body.length ->
      R.At reached (next (body.take length)) (body.drop length) ->
      ((∀ visited, R.body.Visits reached visited -> Safe visited) ↔ Rest))
    (refuses : next (body.take length) = .refuse -> Rest) :
    (∀ visited, R.body.Visits state visited -> Safe visited) ↔
      if exceeds capacity length = true then body = []
      else if body.length < length then True
      else Rest := by
  by_cases tooLong : exceeds capacity (body.take length).length = true
  · rw [visits_iff_of_error (reads.overrun tooLong), judged]
    have announced : exceeds capacity length = true := by
      by_contra fits
      have within := exceeds_mono (by simpa using fits)
        (List.length_take_le length body)
      exact absurd (within.symm.trans tooLong) (by simp)
    simp [announced]
  · have tooLong : exceeds capacity (body.take length).length = false := by
      simpa using tooLong
    by_cases cutOff : body.length < length
    · rw [(reads.cutOff tooLong cutOff).visits_iff judges, judged]
      simp only [cutOff, if_true]
      split_ifs with announced
      · simp [announced]
      · simp [announced]
    · have enough := Nat.le_of_not_lt cutOff
      have announced : exceeds capacity length = false := by
        simpa [List.length_take, Nat.min_eq_left enough] using tooLong
      have safe : Safe state := judged.mpr (by simp [announced])
      rw [if_neg (by simp [announced]), if_neg cutOff]
      obtain ⟨reached, round, entered⟩ | ⟨refuse, ends⟩ :=
        reads.complete tooLong enough
      · rw [visits_iff_of_round round, continues reached enough entered]
        simp [safe]
      · rw [ends.visits_iff judges]
        simp [safe, refuses refuse]

private theorem visits_iff_drainFits (sound : R.Sound)
    (judges : R.Judges Safe) (tag : τ) (capacity : Option Nat)
    (items : Nat) (state : σ) (stream : List UInt8)
    (entered : R.At state (.drain tag capacity) stream)
    (enough : stream.length ≤ items) :
    (∀ visited, R.body.Visits state visited -> Safe visited) ↔
      Fits.drainFits capacity items stream := by
  induction items generalizing state stream with
  | zero =>
      obtain rfl := List.length_eq_zero_iff.mp (Nat.le_zero.mp enough)
      rw [(sound.undecoded entered (by simp)).visits_iff judges]
      simpa [Fits.drainFits] using judges.undecoded entered (by simp)
  | succ items inductionHypothesis =>
      obtain ⟨isList, length, body, decoded⟩ | ⟨undecoded, short | invalid⟩ :=
        header_cases stream
      · have shorter := length_drop_body_lt decoded
        rw [visits_iff_of_readsItem judges (sound.drain entered decoded)
          (judges.drain entered decoded)
          (fun reached _ later =>
            inductionHypothesis reached _ later (by omega))
          (fun refuse => by simp at refuse)]
        simp only [Fits.drainFits, decoded]
      · rw [(sound.undecoded entered undecoded).visits_iff judges]
        simpa [Fits.drainFits, short] using judges.undecoded entered undecoded
      · rw [(sound.undecoded entered undecoded).visits_iff judges]
        simpa [Fits.drainFits, invalid] using
          judges.undecoded entered undecoded

/-- A property of single rounds holds in every visited state exactly when all
announced lengths fit. -/
theorem Sound.visits_iff_fits (sound : R.Sound) (judges : R.Judges Safe)
    {state : σ} {layout : Layout τ α} {stream : List UInt8}
    (entered : R.At state layout stream) :
    (∀ visited, R.body.Visits state visited -> Safe visited) ↔
      layout.Fits stream := by
  induction layout generalizing state stream with
  | refuse => exact absurd entered sound.not_refuse
  | enter tag next inductionHypothesis =>
      obtain ⟨isList, length, body, decoded⟩ | ⟨undecoded, short | invalid⟩ :=
        header_cases stream
      · obtain ⟨reached, round, later⟩ := sound.enter entered decoded
        rw [visits_iff_of_round round, inductionHypothesis length later]
        simp only [Fits, decoded, judges.enter entered, true_and]
      · rw [(sound.undecoded entered undecoded).visits_iff judges]
        simpa [Fits, short] using judges.undecoded entered undecoded
      · rw [(sound.undecoded entered undecoded).visits_iff judges]
        simpa [Fits, invalid] using judges.undecoded entered undecoded
  | field tag capacity next inductionHypothesis =>
      obtain ⟨isList, length, body, decoded⟩ | ⟨undecoded, short | invalid⟩ :=
        header_cases stream
      · rw [visits_iff_of_readsItem judges (sound.field entered decoded)
          (judges.field entered decoded)
          (fun reached _ later => inductionHypothesis _ later)
          (fun refuse => by rw [refuse]; trivial)]
        simp only [Fits, decoded]
      · rw [(sound.undecoded entered undecoded).visits_iff judges]
        simpa [Fits, short] using judges.undecoded entered undecoded
      · rw [(sound.undecoded entered undecoded).visits_iff judges]
        simpa [Fits, invalid] using judges.undecoded entered undecoded
  | final tag capacity value =>
      obtain ⟨isList, length, body, decoded⟩ | ⟨undecoded, short | invalid⟩ :=
        header_cases stream
      · have judged := judges.final entered decoded
        simp only [Fits, decoded]
        rw [← judged]
        by_cases tooLong : exceeds capacity (body.take length).length = true
        · exact visits_iff_of_error
            (sound.final_overrun entered decoded tooLong)
        · exact (sound.final entered decoded
            (by simpa using tooLong)).visits_iff judges
      · rw [(sound.undecoded entered undecoded).visits_iff judges]
        simpa [Fits, short] using judges.undecoded entered undecoded
      · rw [(sound.undecoded entered undecoded).visits_iff judges]
        simpa [Fits, invalid] using judges.undecoded entered undecoded
  | drain tag capacity =>
      exact visits_iff_drainFits sound judges tag capacity _ state stream
        entered (Nat.le_refl _)

end Realization

end LedgerOne
