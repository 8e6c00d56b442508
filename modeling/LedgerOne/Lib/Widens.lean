import LedgerOne.Lib.Ensures

/-!
# Computations that fault less

`Widens fault first second` says that the second computation ends as the first
one does, unless the first stops with one kind of fault.  It compares a program
under two views of its memory, of which one allows more than the other.  There
is one rule for each way to build a computation, and one for loops.
-/

namespace LedgerOne

/-- The second computation ends as the first, unless the first stops with the
fault. -/
def Widens {ε α : Type} (fault : ε) (first second : Except ε α) : Prop :=
  first = .error fault ∨ second = first

namespace Widens

variable {ε α β σ ρ : Type} {fault : ε}

theorem same (computation : Except ε α) :
    Widens fault computation computation :=
  Or.inr rfl

theorem bind {first second : Except ε α} {next other : α -> Except ε β}
    (begins : Widens fault first second)
    (continues : ∀ value, Widens fault (next value) (other value)) :
    Widens fault (first >>= next) (second >>= other) := by
  obtain rfl | rfl := begins
  · exact Or.inl rfl
  · cases second with
    | error other => exact same _
    | ok value => exact continues value

/-- Both go on in the same way. -/
theorem bind_same {first second : Except ε α}
    (begins : Widens fault first second) (next : α -> Except ε β) :
    Widens fault (first >>= next) (second >>= next) :=
  begins.bind fun _ => same _

theorem map {first second : Except ε α} (begins : Widens fault first second)
    (change : α -> β) :
    Widens fault (first.map change) (second.map change) := by
  obtain rfl | rfl := begins
  · exact Or.inl rfl
  · exact same _

/-- A loop each of whose rounds does, with what holds at the start of each. -/
theorem run {body other : Body ε σ ρ} (good : σ -> Prop)
    (steps : ∀ state, good state -> Widens fault (body state) (other state))
    (keeps : ∀ state next, good state -> body.Round state next -> good next)
    (rounds : Nat) {state : σ} (start : good state) :
    body.run rounds state = some (.error fault) ∨
      other.run rounds state = body.run rounds state := by
  induction rounds generalizing state with
  | zero => exact Or.inr rfl
  | succ rounds inductionHypothesis =>
      rw [Body.run, Body.run]
      obtain stops | agrees := steps state start
      · rw [stops]
        exact Or.inl rfl
      · rw [agrees]
        cases round : body state with
        | error other => exact Or.inr rfl
        | ok flow =>
            cases flow with
            | exit result => exact Or.inr rfl
            | again next =>
                exact inductionHypothesis (keeps state next start round)

end Widens

end LedgerOne
