import Mathlib.Logic.Relation
import Mathlib.Tactic.Common

/-!
# Loops that may fault

A loop of an imperative program is given by its body: from a state the body
goes round again, leaves the loop with a result, or faults.  `run` executes a
body with a bound on the number of rounds; `Yields` forgets the bound, and
`Visits` names the states in which the body is entered.  The rules below are
the only facts about loops that the proofs over this library need: one round,
determinism, invariants along the visited states, and totality from a
decreasing measure.
-/

namespace LedgerOne

/-- What one round of a loop does to the control flow. -/
inductive Flow (σ ρ : Type)
  | again (state : σ)
  | exit (result : ρ)

/-- The body of a loop whose rounds may fault. -/
abbrev Body (ε σ ρ : Type) := σ -> Except ε (Flow σ ρ)

namespace Body

variable {ε σ ρ : Type} (body : Body ε σ ρ)

/-- Execute at most `rounds` rounds; `none` when the bound is too small. -/
def run : Nat -> σ -> Option (Except ε ρ)
  | 0, _ => none
  | rounds + 1, state =>
      match body state with
      | .error fault => some (.error fault)
      | .ok (.exit result) => some (.ok result)
      | .ok (.again next) => run rounds next

/-- The loop entered in `state` ends with `result`. -/
def Yields (state : σ) (result : Except ε ρ) : Prop :=
  ∃ rounds, body.run rounds state = some result

/-- One round leads from a state to the next one. -/
def Round (state next : σ) : Prop := body state = .ok (.again next)

/-- The body is entered in `visited` when the loop starts in `start`. -/
def Visits (start visited : σ) : Prop :=
  Relation.ReflTransGen body.Round start visited

/-- What is observed at the start of each round, for at most `rounds`
rounds. -/
def observed {ω : Type} (observe : σ -> List ω) : Nat -> σ -> List ω
  | 0, _ => []
  | rounds + 1, state =>
      observe state ++
        match body state with
        | .ok (.again next) => observed observe rounds next
        | _ => []

variable {body} {state next start visited : σ} {result other : Except ε ρ}

/-- Where each round shows one thing at most, no more is observed than there
are rounds. -/
theorem length_observed_le {ω : Type} {observe : σ -> List ω}
    (one : ∀ state, (observe state).length ≤ 1) (rounds : Nat) (state : σ) :
    (body.observed observe rounds state).length ≤ rounds := by
  induction rounds generalizing state with
  | zero => exact Nat.le_refl 0
  | succ rounds inductionHypothesis =>
      have first := one state
      rw [observed, List.length_append]
      split
      · next later _ =>
        have rest := inductionHypothesis later
        omega
      · rw [List.length_nil]
        omega

/-- A run that ends has a first round. -/
theorem exists_succ_of_run {rounds : Nat}
    (ends : (body.run rounds state).isSome) :
    ∃ fewer, rounds = fewer + 1 := by
  cases rounds with
  | zero => simp [run] at ends
  | succ fewer => exact ⟨fewer, rfl⟩

/-- A larger bound does not change the result. -/
theorem run_mono {rounds more : Nat}
    (ends : body.run rounds state = some result)
    (le : rounds ≤ more) :
    body.run more state = some result := by
  induction rounds generalizing state more with
  | zero => simp [run] at ends
  | succ rounds inductionHypothesis =>
      obtain ⟨more, rfl⟩ : ∃ fewer, more = fewer + 1 :=
        ⟨more - 1, by omega⟩
      unfold run at ends ⊢
      split at ends
      · exact ends
      · exact ends
      · exact inductionHypothesis ends (by omega)

theorem Yields.unique
    (first : body.Yields state result)
    (second : body.Yields state other) :
    result = other := by
  obtain ⟨rounds, ends⟩ := first
  obtain ⟨more, endsOther⟩ := second
  have left := run_mono ends (Nat.le_max_left rounds more)
  have right := run_mono endsOther (Nat.le_max_right rounds more)
  exact Option.some.inj (left.symm.trans right)

/-- One round may be executed or undone without changing the result. -/
theorem Round.yields_iff (round : body.Round state next) :
    body.Yields state result ↔ body.Yields next result := by
  unfold Round at round
  constructor
  · rintro ⟨rounds, ends⟩
    cases rounds with
    | zero => simp [run] at ends
    | succ rounds => exact ⟨rounds, by simpa [run, round] using ends⟩
  · rintro ⟨rounds, ends⟩
    exact ⟨rounds + 1, by simpa [run, round] using ends⟩

/-- What every round preserves holds wherever the body is entered. -/
theorem Visits.invariant {invariant : σ -> Prop}
    (preserved : ∀ state next,
      invariant state -> body.Round state next -> invariant next)
    (visits : body.Visits start visited)
    (initially : invariant start) :
    invariant visited := by
  induction visits with
  | refl => exact initially
  | tail _ round inductionHypothesis =>
      exact preserved _ _ inductionHypothesis round

/-- The states visited from a state are itself and those visited from its
successor. -/
theorem Round.visits_iff (round : body.Round state next) :
    body.Visits state visited ↔ visited = state ∨ body.Visits next visited := by
  constructor
  · intro visits
    obtain equal | ⟨middle, first, rest⟩ :=
      Relation.ReflTransGen.cases_head visits
    · exact Or.inl equal.symm
    · have : middle = next := by
        unfold Round at round first
        rw [round] at first
        injection first with equalFlow
        injection equalFlow with equal
        exact equal.symm
      exact Or.inr (this ▸ rest)
  · rintro (rfl | rest)
    · exact Relation.ReflTransGen.refl
    · exact Relation.ReflTransGen.head round rest

/-- A loop that ends in its first round visits its start only. -/
theorem Visits.eq_of_no_round
    (visits : body.Visits state visited)
    (ends : ∀ next, ¬body.Round state next) :
    visited = state := by
  obtain equal | ⟨middle, first, _⟩ :=
    Relation.ReflTransGen.cases_head visits
  · exact equal.symm
  · exact absurd first (ends middle)

/-- A measure that every round from a good state decreases bounds the number
of rounds. -/
theorem run_isSome_of_measure
    (good : σ -> Prop) (measure : σ -> Nat)
    (decreases : ∀ state next, good state -> body.Round state next ->
      good next ∧ measure next < measure state)
    (rounds : Nat) (state : σ)
    (initially : good state)
    (enough : measure state < rounds) :
    (body.run rounds state).isSome := by
  induction rounds generalizing state with
  | zero => omega
  | succ rounds inductionHypothesis =>
      unfold run
      split
      · rfl
      · rfl
      · rename_i next round
        obtain ⟨goodNext, smaller⟩ := decreases state next initially round
        exact inductionHypothesis next goodNext (by omega)

end Body

end LedgerOne
