import LedgerOne.Lib.Loop

/-!
# Postconditions of computations that may fault

`Ensures computation post faults` says that `post` holds of the value if the
computation ends with one, and `faults` of the fault if it ends with a fault.
There is one rule for each way to build a computation, so that a proof follows
the text of the program.
-/

namespace LedgerOne

theorem bind_ok {ε α β : Type} (value : α) (next : α -> Except ε β) :
    (Except.ok value >>= next) = next value :=
  rfl

/-- What holds at the end of a computation; unless stated otherwise any fault
will do. -/
structure Ensures {ε α : Type} (computation : Except ε α)
    (post : α -> Prop) (faults : ε -> Prop := fun _ => True) : Prop where
  value : ∀ value, computation = .ok value -> post value
  fault : ∀ fault, computation = .error fault -> faults fault

namespace Ensures

variable {ε α β : Type} {post : β -> Prop} {faults : ε -> Prop}

theorem ok {value : β} (meets : post value) :
    Ensures (.ok value : Except ε β) post faults where
  value other equal := by
    injection equal with equal
    exact equal ▸ meets
  fault _ equal := by cases equal

theorem pure {value : β} (meets : post value) :
    Ensures (Pure.pure value : Except ε β) post faults :=
  ok meets

theorem error {fault : ε} (meets : faults fault) :
    Ensures (.error fault : Except ε β) post faults where
  value _ equal := by cases equal
  fault other equal := by
    injection equal with equal
    exact equal ▸ meets

/-- One computation after another, with a condition on what lies between. -/
theorem bind {first : Except ε α} {next : α -> Except ε β}
    {middle : α -> Prop}
    (begins : Ensures first middle faults)
    (continues : ∀ value, middle value -> Ensures (next value) post faults) :
    Ensures (first >>= next) post faults := by
  cases first with
  | error fault => exact error (begins.fault fault rfl)
  | ok value => exact continues value (begins.value value rfl)

/-- A computation that goes on from a value. -/
theorem ok_bind {value : α} {next : α -> Except ε β}
    (continues : Ensures (next value) post faults) :
    Ensures (Except.ok value >>= next) post faults :=
  continues

/-- Nothing is said of a computation. -/
theorem trivial {computation : Except ε β} :
    Ensures computation fun _ => True :=
  ⟨fun _ _ => True.intro, fun _ _ => True.intro⟩

/-- One computation after another, whatever lies between. -/
theorem bind_any {first : Except ε α} {next : α -> Except ε β}
    (continues : ∀ value, Ensures (next value) post) :
    Ensures (first >>= next) post :=
  bind trivial fun value _ => continues value

theorem map {first : Except ε α} {convert : α -> β}
    (begins : Ensures first (fun value => post (convert value)) faults) :
    Ensures (first.map convert) post faults := by
  cases first with
  | error fault => exact error (begins.fault fault rfl)
  | ok value => exact ok (begins.value value rfl)

theorem ite {condition : Prop} [Decidable condition]
    {left right : Except ε β}
    (whenTrue : condition -> Ensures left post faults)
    (whenFalse : ¬condition -> Ensures right post faults) :
    Ensures (if condition then left else right) post faults := by
  by_cases holds : condition
  · rw [if_pos holds]
    exact whenTrue holds
  · rw [if_neg holds]
    exact whenFalse holds

theorem mono {computation : Except ε β} {weaker : β -> Prop}
    {more : ε -> Prop}
    (ensures : Ensures computation post faults)
    (implies : ∀ value, post value -> weaker value)
    (allows : ∀ fault, faults fault -> more fault) :
    Ensures computation weaker more where
  value value equal := implies value (ensures.value value equal)
  fault fault equal := allows fault (ensures.fault fault equal)

end Ensures

/-- A computation that has no fault to end with. -/
abbrev Succeeds {ε α : Type} (computation : Except ε α) : Prop :=
  Ensures computation (fun _ => True) fun _ => False

/-- A computation without faults ends with a value. -/
theorem Ensures.exists_value {ε α : Type} {computation : Except ε α}
    {post : α -> Prop}
    (ensures : Ensures computation post fun _ => False) :
    ∃ value, computation = .ok value ∧ post value := by
  cases computation with
  | error fault => exact (ensures.fault fault rfl).elim
  | ok value => exact ⟨value, rfl, ensures.value value rfl⟩

theorem Succeeds.exists_ok {ε α : Type} {computation : Except ε α}
    (succeeds : Succeeds computation) :
    ∃ value, computation = .ok value := by
  obtain ⟨value, ends, _⟩ := succeeds.exists_value
  exact ⟨value, ends⟩

/-- A computation in whose value something is seen has ended. -/
theorem exists_of_view {ε α β : Type} {computation : Except ε α}
    (view : α -> β) {seen : β}
    (sees : computation.toOption.map view = some seen) :
    ∃ value, computation = .ok value ∧ view value = seen := by
  cases computation with
  | error fault => cases sees
  | ok value => exact ⟨value, rfl, Option.some.inj sees⟩

/-! ## Loops -/

namespace Body

variable {ε σ ρ : Type} {body : Body ε σ ρ} {invariant : σ -> Prop}
  {post : ρ -> Prop} {faults : ε -> Prop}

/-- What holds after one round of a loop. -/
def after (invariant : σ -> Prop) (post : ρ -> Prop) : Flow σ ρ -> Prop
  | .again next => invariant next
  | .exit result => post result

/-- What every round preserves holds at the end of a run. -/
theorem ensures_run
    (round : ∀ state, invariant state ->
      Ensures (body state) (after invariant post) faults)
    {rounds : Nat} {state : σ} {result : Except ε ρ}
    (initially : invariant state)
    (ends : body.run rounds state = some result) :
    Ensures result post faults := by
  induction rounds generalizing state with
  | zero => simp [run] at ends
  | succ rounds inductionHypothesis =>
      have ensures := round state initially
      unfold run at ends
      split at ends
      next fault faulted =>
        cases ends
        exact Ensures.error (ensures.fault fault faulted)
      next value exits =>
        cases ends
        exact Ensures.ok (ensures.value _ exits)
      next again goesOn =>
        exact inductionHypothesis (ensures.value _ goesOn) ends

/-- What every round preserves holds wherever the body is entered. -/
theorem Visits.ensures {start visited : σ}
    (round : ∀ state, invariant state ->
      Ensures (body state) (after invariant post) faults)
    (visits : body.Visits start visited)
    (initially : invariant start) :
    invariant visited :=
  visits.invariant
    (fun state _ holds goesOn => (round state holds).value _ goesOn)
    initially

end Body

end LedgerOne
