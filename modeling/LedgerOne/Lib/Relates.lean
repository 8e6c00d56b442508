import LedgerOne.Lib.Ensures

/-!
# Two computations side by side

`Relates relation first second` says that two computations end alike: with
values that are related, or with one and the same fault.  As for postconditions
there is one rule for each way to build a computation.
-/

namespace LedgerOne

/-- Two computations end alike. -/
inductive Relates {ε α β : Type} (relation : α -> β -> Prop) :
    Except ε α -> Except ε β -> Prop
  | error (fault : ε) : Relates relation (.error fault) (.error fault)
  | ok {left : α} {right : β} (related : relation left right) :
      Relates relation (.ok left) (.ok right)

namespace Relates

variable {ε α β γ δ : Type} {relation : γ -> δ -> Prop}
  {middle : α -> β -> Prop}

theorem pure {left : γ} {right : δ} (related : relation left right) :
    Relates relation (Pure.pure left : Except ε γ) (Pure.pure right) :=
  ok related

/-- One computation after another, with a relation on what lies between. -/
theorem bind {first : Except ε α} {second : Except ε β}
    {next : α -> Except ε γ} {other : β -> Except ε δ}
    (begins : Relates middle first second)
    (continues : ∀ left right, middle left right ->
      Relates relation (next left) (other right)) :
    Relates relation (first >>= next) (second >>= other) := by
  cases begins with
  | error fault => exact error fault
  | ok related => exact continues _ _ related

/-- Both go on from the value of one and the same computation. -/
theorem bind_same (computation : Except ε α) {next : α -> Except ε γ}
    {other : α -> Except ε δ}
    (continues : ∀ value, Relates relation (next value) (other value)) :
    Relates relation (computation >>= next) (computation >>= other) := by
  cases computation with
  | error fault => exact error fault
  | ok value => exact continues value

theorem map {first : Except ε α} {second : Except ε β} {change : α -> γ}
    {exchange : β -> δ} (begins : Relates middle first second)
    (changes : ∀ left right, middle left right ->
      relation (change left) (exchange right)) :
    Relates relation (first.map change) (second.map exchange) := by
  cases begins with
  | error fault => exact error fault
  | ok related => exact ok (changes _ _ related)

/-- Both decide on the same condition. -/
theorem ite {condition : Prop} [Decidable condition]
    {first second : Except ε γ} {third fourth : Except ε δ}
    (holds : condition -> Relates relation first third)
    (fails : ¬condition -> Relates relation second fourth) :
    Relates relation (if condition then first else second)
      (if condition then third else fourth) := by
  by_cases decided : condition
  · rw [if_pos decided, if_pos decided]
    exact holds decided
  · rw [if_neg decided, if_neg decided]
    exact fails decided

theorem mono {stronger : γ -> δ -> Prop} {first : Except ε γ}
    {second : Except ε δ} (relates : Relates stronger first second)
    (implies : ∀ left right, stronger left right -> relation left right) :
    Relates relation first second := by
  cases relates with
  | error fault => exact error fault
  | ok related => exact ok (implies _ _ related)

/-- What holds at the end of each of the two. -/
theorem ensures {first : Except ε γ} {second : Except ε δ}
    {post : γ -> Prop} {other : δ -> Prop}
    (relates : Relates relation first second) (meets : Ensures first post)
    (meetsOther : Ensures second other) :
    Relates (fun left right => relation left right ∧ post left ∧ other right)
      first second := by
  cases relates with
  | error fault => exact error fault
  | ok related =>
      exact ok ⟨related, meets.value _ rfl, meetsOther.value _ rfl⟩

/-- A loop over the same list. -/
theorem foldlM {step : γ -> α -> Except ε γ} {other : δ -> α -> Except ε δ}
    (values : List α) {left : γ} {right : δ}
    (begins : relation left right)
    (steps : ∀ left right value, relation left right ->
      Relates relation (step left value) (other right value)) :
    Relates relation (values.foldlM step left)
      (values.foldlM other right) := by
  induction values generalizing left right with
  | nil => exact pure begins
  | cons value values inductionHypothesis =>
      rw [List.foldlM_cons, List.foldlM_cons]
      apply bind (steps left right value begins)
      intro left right related
      exact inductionHypothesis related

end Relates

end LedgerOne
