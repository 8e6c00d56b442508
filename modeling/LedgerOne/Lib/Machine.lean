import LedgerOne.Lib.Ensures

/-!
# Machines that take one event after the other

A machine takes an event in a state to the next state and to what it puts out,
or it faults.  `run` executes a list of events.  `Reaches` names the states
that a start leads to by steps which all meet a condition; what the allowed
steps preserve holds in all of them.  A machine can be watched: the watch is
kept beside the state, follows every step and influences none.
-/

namespace LedgerOne

/-- A machine whose steps may fault. -/
structure Machine (ε σ α ω : Type) where
  /-- What an event does in a state. -/
  step : σ -> α -> Except ε (σ × List ω)

namespace Machine

variable {ε σ α ω : Type} (machine : Machine ε σ α ω)

/-- Execute events in order. -/
def run : List α -> σ -> Except ε (σ × List ω)
  | [], state => .ok (state, [])
  | event :: events, state =>
      match machine.step state event with
      | .error fault => .error fault
      | .ok (next, outputs) =>
          match run events next with
          | .error fault => .error fault
          | .ok (last, more) => .ok (last, outputs ++ more)

/-- A run from `start` in which every step meets a condition on the state
before it and its event. -/
inductive Reaches (allowed : σ -> α -> Prop) (start : σ) : List α -> σ -> Prop
  | start : Reaches allowed start [] start
  | step {events : List α} {state next : σ} {event : α} {outputs : List ω} :
      Reaches allowed start events state ->
      allowed state event ->
      machine.step state event = .ok (next, outputs) ->
      Reaches allowed start (events ++ [event]) next

variable {machine} {allowed : σ -> α -> Prop} {start state : σ}
  {events : List α}

/-- What every allowed step preserves holds in every state reached. -/
theorem Reaches.invariant (invariant : σ -> Prop)
    (reached : machine.Reaches allowed start events state)
    (initially : invariant start)
    (preserved : ∀ state event, invariant state -> allowed state event ->
      Ensures (machine.step state event) fun result => invariant result.1) :
    invariant state := by
  induction reached with
  | start => exact initially
  | step _ meets steps inductionHypothesis =>
      exact (preserved _ _ inductionHypothesis meets).value _ steps

/-- The first event of a run. -/
theorem run_cons {event : α} {last : σ} {effects : List ω}
    (runs : machine.run (event :: events) state = .ok (last, effects)) :
    ∃ next outputs more, machine.step state event = .ok (next, outputs) ∧
      machine.run events next = .ok (last, more) ∧
      effects = outputs ++ more := by
  unfold run at runs
  split at runs
  next => cases runs
  next next outputs steps =>
    split at runs
    next => cases runs
    next final more goesOn =>
      cases runs
      exact ⟨next, outputs, more, steps, goesOn, rfl⟩

/-- A run after one event. -/
theorem run_step {event : α} {next last : σ} {outputs more : List ω}
    (steps : machine.step state event = .ok (next, outputs))
    (runs : machine.run events next = .ok (last, more)) :
    machine.run (event :: events) state = .ok (last, outputs ++ more) := by
  rw [run, steps]
  dsimp only
  rw [runs]

/-- One run after another. -/
theorem run_append {front back : List α} {next last : σ}
    {outputs more : List ω}
    (begins : machine.run front state = .ok (next, outputs))
    (runs : machine.run back next = .ok (last, more)) :
    machine.run (front ++ back) state = .ok (last, outputs ++ more) := by
  induction front generalizing state outputs with
  | nil =>
      cases begins
      exact runs
  | cons event front inductionHypothesis =>
      obtain ⟨after, first, rest, moves, goesOn, rfl⟩ := run_cons begins
      rw [List.append_assoc]
      exact run_step moves (inductionHypothesis goesOn)

/-- One more event at the end of a run. -/
theorem run_concat {event : α} {next last : σ} {outputs more : List ω}
    (runs : machine.run events state = .ok (next, outputs))
    (steps : machine.step next event = .ok (last, more)) :
    machine.run (events ++ [event]) state = .ok (last, outputs ++ more) := by
  have once : machine.run [event] next = .ok (last, more ++ []) :=
    run_step steps rfl
  rw [List.append_nil] at once
  exact run_append runs once

/-- An event that moves from stage to stage, without putting anything out, does
so as often as there are stages. -/
theorem exists_run_replicate {stage : Nat -> σ -> Prop} {event : α}
    {room count : Nat}
    (moves : ∀ state index, index < room -> stage index state ->
      ∃ next, machine.step state event = .ok (next, []) ∧
        stage (index + 1) next)
    (few : count ≤ room) (starts : stage 0 state) :
    ∃ last, machine.run (List.replicate count event) state =
        .ok (last, []) ∧ stage count last := by
  induction count with
  | zero => exact ⟨state, rfl, starts⟩
  | succ count inductionHypothesis =>
      obtain ⟨before, runs, reached⟩ := inductionHypothesis (by omega)
      obtain ⟨last, steps, holds⟩ := moves before count (by omega) reached
      refine ⟨last, ?_, holds⟩
      rw [List.replicate_succ']
      exact run_concat runs steps

/-- What certain events preserve and put out, a run of them preserves and puts
out. -/
theorem ensures_run (certain : α -> Prop) (invariant : σ -> Prop)
    (safe : ω -> Prop)
    (preserved : ∀ state event, invariant state -> certain event ->
      Ensures (machine.step state event) fun result =>
        invariant result.1 ∧ ∀ output ∈ result.2, safe output)
    (all : ∀ event ∈ events, certain event)
    (initially : invariant state) :
    Ensures (machine.run events state) fun result =>
      invariant result.1 ∧ ∀ output ∈ result.2, safe output := by
  induction events generalizing state with
  | nil => exact Ensures.ok ⟨initially, by simp⟩
  | cons event events inductionHypothesis =>
      have steps := preserved state event initially (all event (by simp))
      unfold run
      split
      next => exact Ensures.error trivial
      next next outputs moves =>
        obtain ⟨holds, safely⟩ := steps.value _ moves
        have rest := inductionHypothesis
          (fun later member => all later (List.mem_cons_of_mem _ member)) holds
        split
        next => exact Ensures.error trivial
        next last more ends =>
          obtain ⟨lastly, safelyMore⟩ := rest.value _ ends
          refine Ensures.ok ⟨lastly, ?_⟩
          intro output member
          obtain before | after := List.mem_append.mp member
          · exact safely output before
          · exact safelyMore output after

/-! ## Watched machines -/

section Watch

variable {γ : Type} (follow : γ -> σ -> α -> σ -> γ)

variable (machine) in
/-- The machine with a watch, which follows the state before each step, the
event and the state after it. -/
def watch : Machine ε (σ × γ) α ω where
  step watched event :=
    (machine.step watched.1 event).map fun result =>
      ((result.1, follow watched.2 watched.1 event result.1), result.2)

theorem step_watch (seen : γ) {event : α} {next : σ} {outputs : List ω}
    (steps : machine.step state event = .ok (next, outputs)) :
    (machine.watch follow).step (state, seen) event =
      .ok ((next, follow seen state event next), outputs) := by
  simp only [watch, steps]
  rfl

/-- A run in which the watch sees nothing. -/
theorem run_watch_quiet (seen : γ) {last : σ} {outputs : List ω}
    (quiet : ∀ event ∈ events, ∀ before after,
      follow seen before event after = seen)
    (runs : machine.run events state = .ok (last, outputs)) :
    (machine.watch follow).run events (state, seen) =
      .ok ((last, seen), outputs) := by
  induction events generalizing state outputs with
  | nil =>
      cases runs
      rfl
  | cons event events inductionHypothesis =>
      obtain ⟨next, first, rest, steps, goesOn, rfl⟩ := run_cons runs
      have watched := step_watch follow seen steps
      rw [quiet event (by simp)] at watched
      exact run_step watched (inductionHypothesis
        (fun other member => quiet other (List.mem_cons_of_mem _ member))
        goesOn)

/-- One more step of a watched run. -/
theorem Reaches.watch_step {certain : σ × γ -> α -> Prop} {first : σ × γ}
    {seen : γ} {event : α} {next : σ} {outputs : List ω}
    (reached : (machine.watch follow).Reaches certain first events
      (state, seen))
    (meets : certain (state, seen) event)
    (steps : machine.step state event = .ok (next, outputs)) :
    (machine.watch follow).Reaches certain first (events ++ [event])
      (next, follow seen state event next) :=
  .step reached meets (step_watch follow seen steps)

/-- Every run can be watched. -/
theorem Reaches.watched (reached : machine.Reaches allowed start events state)
    (seen : γ) :
    ∃ last, (machine.watch follow).Reaches
      (fun watched event => allowed watched.1 event) (start, seen) events
      (state, last) := by
  induction reached with
  | start => exact ⟨seen, .start⟩
  | step earlier meets steps inductionHypothesis =>
      obtain ⟨before, reaches⟩ := inductionHypothesis
      exact ⟨_, reaches.watch_step follow meets steps⟩

end Watch

end Machine

end LedgerOne
