import LedgerOne.Lib.Machine

/-!
# Specifications and what implements them

A specification says which states and outputs an event may lead to; a machine
restricted to allowed steps is one.  A relation between two specifications
which every step of the first keeps, by a step of the second on the same event
with the same outputs, carries whole runs over, and with them everything that
is known of the runs of the second.
-/

namespace LedgerOne

/-- What events may do: the state before, the event, the state after and what
is put out. -/
abbrev Specification (σ α ω : Type) := σ -> α -> σ -> List ω -> Prop

/-- The steps of a machine that meet a condition. -/
def Machine.allowing {ε σ α ω : Type} (machine : Machine ε σ α ω)
    (allowed : σ -> α -> Prop) : Specification σ α ω :=
  fun state event next outputs =>
    allowed state event ∧ machine.step state event = .ok (next, outputs)

/-- A step of a watched machine is one of the machine. -/
theorem Machine.step_of_watch {ε σ α ω γ : Type} {machine : Machine ε σ α ω}
    {follow : γ -> σ -> α -> σ -> γ} {watched next : σ × γ} {event : α}
    {outputs : List ω}
    (steps : (machine.watch follow).step watched event = .ok (next, outputs)) :
    machine.step watched.1 event = .ok (next.1, outputs) ∧
      next.2 = follow watched.2 watched.1 event next.1 := by
  unfold watch at steps
  dsimp only at steps
  cases moves : machine.step watched.1 event with
  | error fault =>
      rw [moves] at steps
      cases steps
  | ok result =>
      rw [moves] at steps
      cases steps
      exact ⟨rfl, rfl⟩

namespace Specification

variable {σ τ α ω : Type} {concrete : Specification σ α ω}
  {abstract : Specification τ α ω}

/-- The runs of a specification from a start, with all their outputs. -/
inductive Runs (specification : Specification σ α ω) (start : σ) :
    List α -> σ -> List ω -> Prop
  | start : Runs specification start [] start []
  | step {events : List α} {state next : σ} {event : α}
      {outputs more : List ω} (runs : Runs specification start events state outputs)
      (steps : specification state event next more) :
      Runs specification start (events ++ [event]) next (outputs ++ more)

/-- A run after one more step at its start. -/
theorem Runs.after_step {start next last : σ} {event : α} {events : List α}
    {outputs more : List ω} (steps : concrete start event next outputs)
    (runs : concrete.Runs next events last more) :
    concrete.Runs start (event :: events) last (outputs ++ more) := by
  induction runs with
  | start =>
      have once := Runs.start.step steps
      rwa [List.nil_append, List.nil_append, ← List.append_nil outputs] at once
  | step earlier moves inductionHypothesis =>
      rw [← List.append_assoc]
      exact inductionHypothesis.step moves

/-- Every step of the first specification is one of the second. -/
def Implements (concrete : Specification σ α ω)
    (abstract : Specification τ α ω) (related : σ -> τ -> Prop) : Prop :=
  ∀ state specified event next outputs, related state specified ->
    concrete state event next outputs ->
    ∃ after, abstract specified event after outputs ∧ related next after

/-- What is implemented step by step is implemented in every run. -/
theorem Implements.runs {related : σ -> τ -> Prop}
    (implements : concrete.Implements abstract related) {start : σ}
    {specified : τ} (initially : related start specified) {events : List α}
    {last : σ} {outputs : List ω}
    (runs : concrete.Runs start events last outputs) :
    ∃ ended, abstract.Runs specified events ended outputs ∧
      related last ended := by
  induction runs with
  | start => exact ⟨specified, .start, initially⟩
  | step earlier steps inductionHypothesis =>
      obtain ⟨before, runs, held⟩ := inductionHypothesis
      obtain ⟨after, moves, kept⟩ := implements _ _ _ _ _ held steps
      exact ⟨after, runs.step moves, kept⟩

section Accounts

variable {start last : σ} {events : List α} {outputs : List ω}
  (credit : σ -> Nat) (paid : α -> Bool) (spent : ω -> Bool)

theorem countP_concat_event (event : α) :
    (events ++ [event]).countP paid =
      events.countP paid + (paid event).toNat := by
  rw [List.countP_append, List.countP_singleton]
  cases paid event <;> rfl

/-- What the outputs of a run spend, and what is left in its last state, is
what was there at the start and what its events paid. -/
theorem Runs.balance
    (steps : ∀ state event next more, concrete state event next more ->
      more.countP spent + credit next = credit state + (paid event).toNat)
    (runs : concrete.Runs start events last outputs) :
    outputs.countP spent + credit last =
      credit start + events.countP paid := by
  induction runs with
  | start => rw [List.countP_nil, List.countP_nil, Nat.zero_add, Nat.add_zero]
  | step earlier moves inductionHypothesis =>
      have balanced := steps _ _ _ _ moves
      rw [List.countP_append, countP_concat_event]
      omega

/-- The outputs of a run spend no more than what was there at the start and
what its events paid. -/
theorem Runs.covered
    (steps : ∀ state event next more, concrete state event next more ->
      more.countP spent + credit next ≤ credit state + (paid event).toNat)
    (runs : concrete.Runs start events last outputs) :
    outputs.countP spent + credit last ≤
      credit start + events.countP paid := by
  induction runs with
  | start =>
      exact Nat.le_of_eq (Nat.zero_add _)
  | step earlier moves inductionHypothesis =>
      have covered := steps _ _ _ _ moves
      rw [List.countP_append, countP_concat_event]
      omega

end Accounts

end Specification

/-! ## Executing allowed steps -/

section Attempt

variable {ε σ α ω : Type} (machine : Machine ε σ α ω)
  (allowed : σ -> α -> Prop) [∀ state event, Decidable (allowed state event)]

/-- Execute events as long as they are allowed and do not fault. -/
def Machine.attempt : List α -> σ -> Option (σ × List ω)
  | [], state => some (state, [])
  | event :: events, state =>
      if allowed state event then
        match machine.step state event with
        | .error _ => none
        | .ok (next, outputs) =>
            (Machine.attempt events next).map fun result =>
              (result.1, outputs ++ result.2)
      else none

/-- What can be executed is a run. -/
theorem Machine.runs_of_attempt {events : List α} {start : σ}
    {result : σ × List ω}
    (attempts : machine.attempt allowed events start = some result) :
    (machine.allowing allowed).Runs start events result.1 result.2 := by
  induction events generalizing start result with
  | nil =>
      cases attempts
      exact .start
  | cons event events inductionHypothesis =>
      unfold attempt at attempts
      split_ifs at attempts with permitted
      split at attempts
      next => cases attempts
      next next outputs steps =>
        obtain ⟨rest, continues, rfl⟩ := Option.map_eq_some_iff.mp attempts
        exact Specification.Runs.after_step ⟨permitted, steps⟩
          (inductionHypothesis continues)

end Attempt

end LedgerOne
