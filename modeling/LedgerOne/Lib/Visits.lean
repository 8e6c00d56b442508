import LedgerOne.Lib.Realization

/-!
# The items that a reader visits

A reader of a layout goes from item to item.  `visits` lists the items that a
layout takes from a byte string, and `Follows` says which lists of items lead
a layout to a value, without looking at the bytes that frame them.  A loop
that realizes the layout visits just these items.
-/

namespace LedgerOne

open Rlp

/-- An item that is visited: the field it is taken for, its announced length
and what there is of its payload. -/
structure Visit (τ : Type) where
  tag : τ
  length : Nat
  bytes : List UInt8

/-- An item that is all there. -/
def Visit.whole {τ : Type} (tag : τ) (bytes : List UInt8) : Visit τ :=
  ⟨tag, bytes.length, bytes⟩

namespace Layout

variable {τ α : Type}

/-- The items that a layout takes from a byte string that it accepts. -/
def visits : Layout τ α -> List UInt8 -> List (Visit τ)
  | .refuse, _ => []
  | .enter tag next, stream =>
      match readHeader stream with
      | .header _ length body =>
          ⟨tag, length, body.take length⟩ :: (next length).visits body
      | _ => []
  | .field tag _ next, stream =>
      match readHeader stream with
      | .header _ length body =>
          ⟨tag, length, body.take length⟩ ::
            (next (body.take length)).visits (body.drop length)
      | _ => []
  | .final tag _ _, stream =>
      match readHeader stream with
      | .header _ length body => [⟨tag, length, body.take length⟩]
      | _ => []
  | .drain _ _, _ => []

/-- A list of items leads a layout to a value. -/
inductive Follows : Layout τ α -> List (Visit τ) -> α -> Prop
  | enter {tag next length bytes rest value}
      (later : Follows (next length) rest value) :
      Follows (.enter tag next) (⟨tag, length, bytes⟩ :: rest) value
  | field {tag capacity next bytes rest value}
      (fits : exceeds capacity bytes.length = false)
      (later : Follows (next bytes) rest value) :
      Follows (.field tag capacity next)
        (.whole tag bytes :: rest) value
  | final {tag capacity value length bytes}
      (fits : exceeds capacity bytes.length = false)
      (within : bytes.length ≤ length) :
      Follows (.final tag capacity value) [⟨tag, length, bytes⟩]
        (value length bytes)

section Follows

variable {tag : τ} {capacity : Option Nat} {visits : List (Visit τ)}
  {value : α}

@[simp] theorem not_follows_refuse :
    ¬Follows (.refuse : Layout τ α) visits value := by
  intro follows
  cases follows

@[simp] theorem not_follows_drain :
    ¬Follows (.drain tag capacity : Layout τ α) visits value := by
  intro follows
  cases follows

theorem follows_enter_iff {next : Nat -> Layout τ α} :
    Follows (.enter tag next) visits value ↔
      ∃ length bytes rest, visits = ⟨tag, length, bytes⟩ :: rest ∧
        Follows (next length) rest value := by
  constructor
  · rintro ⟨later⟩
    exact ⟨_, _, _, rfl, later⟩
  · rintro ⟨length, bytes, rest, rfl, later⟩
    exact .enter later

theorem follows_field_iff {next : List UInt8 -> Layout τ α} :
    Follows (.field tag capacity next) visits value ↔
      ∃ bytes rest, visits = .whole tag bytes :: rest ∧
        exceeds capacity bytes.length = false ∧
        Follows (next bytes) rest value := by
  constructor
  · rintro ⟨⟩
    exact ⟨_, _, rfl, ‹_›, ‹_›⟩
  · rintro ⟨bytes, rest, rfl, fits, later⟩
    exact .field fits later

theorem follows_final_iff {final : Nat -> List UInt8 -> α} :
    Follows (.final tag capacity final) visits value ↔
      ∃ length bytes, visits = [⟨tag, length, bytes⟩] ∧
        exceeds capacity bytes.length = false ∧ bytes.length ≤ length ∧
        value = final length bytes := by
  constructor
  · rintro ⟨⟩
    exact ⟨_, _, rfl, ‹_›, ‹_›, rfl⟩
  · rintro ⟨length, bytes, rfl, fits, within, rfl⟩
    exact .final fits within

end Follows

/-- Every value that items lead a layout to is a good one. -/
def Produces (good : α -> Prop) (layout : Layout τ α) : Prop :=
  ∀ visits value, layout.Follows visits value -> good value

section Produces

variable {good : α -> Prop} {tag : τ} {capacity : Option Nat}

theorem produces_refuse : (.refuse : Layout τ α).Produces good :=
  fun _ _ follows => absurd follows not_follows_refuse

theorem produces_drain : (.drain tag capacity : Layout τ α).Produces good :=
  fun _ _ follows => absurd follows not_follows_drain

theorem produces_enter {next : Nat -> Layout τ α}
    (later : ∀ length, (next length).Produces good) :
    (Layout.enter tag next).Produces good := by
  intro visits value follows
  obtain ⟨length, _, rest, _, follows⟩ := follows_enter_iff.mp follows
  exact later length rest value follows

theorem produces_field {next : List UInt8 -> Layout τ α}
    (later : ∀ bytes : List UInt8, exceeds capacity bytes.length = false ->
      (next bytes).Produces good) :
    (Layout.field tag capacity next).Produces good := by
  intro visits value follows
  obtain ⟨bytes, rest, _, fits, follows⟩ := follows_field_iff.mp follows
  exact later bytes fits rest value follows

theorem produces_final {last : Nat -> List UInt8 -> α}
    (lastly : ∀ length, ∀ bytes : List UInt8,
      exceeds capacity bytes.length = false -> good (last length bytes)) :
    (Layout.final tag capacity last).Produces good := by
  intro visits value follows
  obtain ⟨length, bytes, _, fits, _, rfl⟩ := follows_final_iff.mp follows
  exact lastly length bytes fits

end Produces

/-- The items of an accepted byte string lead to the accepted value. -/
theorem follows_of_accepted {layout : Layout τ α} {stream : List UInt8}
    {value : α} {complete : Bool}
    (accepted : layout.verdict stream = .accepted value complete) :
    layout.Follows (layout.visits stream) value := by
  induction layout generalizing stream with
  | refuse => simp [verdict] at accepted
  | enter tag next inductionHypothesis =>
      cases decoded : readHeader stream with
      | header isList length body =>
          simp only [verdict, visits, decoded] at accepted ⊢
          exact .enter (inductionHypothesis _ accepted)
      | _ => simp [verdict, decoded] at accepted
  | field tag capacity next inductionHypothesis =>
      cases decoded : readHeader stream with
      | header isList length body =>
          simp only [verdict, visits, decoded] at accepted ⊢
          split_ifs at accepted with tooLong cutOff
          have whole : (body.take length).length = length :=
            List.length_take_of_le (Nat.le_of_not_lt cutOff)
          rw [follows_field_iff]
          exact ⟨_, _, by rw [Visit.whole, whole], Bool.eq_false_iff.mpr tooLong,
            inductionHypothesis _ accepted⟩
      | _ => simp [verdict, decoded] at accepted
  | final tag capacity final =>
      cases decoded : readHeader stream with
      | header isList length body =>
          simp only [verdict, visits, decoded] at accepted ⊢
          split_ifs at accepted with tooLong
          injection accepted with same
          rw [← same]
          exact .final (Bool.eq_false_iff.mpr tooLong)
            (List.length_take_le length body)
      | _ => simp [verdict, decoded] at accepted
  | drain tag capacity =>
      exact absurd accepted (drained_ne_accepted _ _ _ _ _)

/-- The field that the next item is taken for. -/
def tag? : Layout τ α -> Option τ
  | .refuse => none
  | .enter tag _ => some tag
  | .field tag _ _ => some tag
  | .final tag _ _ => some tag
  | .drain tag _ => some tag

end Layout

namespace Realization

variable {ε σ ρ τ α : Type} {R : Realization ε σ ρ τ α}

open Layout

/-- Each round is observed to visit the item that the layout takes there. -/
structure Watches (R : Realization ε σ ρ τ α)
    (observe : σ -> List (Visit τ)) : Prop where
  quiet {state} : R.Quiet state -> observe state = []
  reads {state layout stream tag isList length body} :
    R.At state layout stream -> layout.tag? = some tag ->
    readHeader stream = .header isList length body ->
    observe state = [⟨tag, length, body.take length⟩]

variable {observe : σ -> List (Visit τ)}

theorem observed_of_round {state next : σ} {rounds : Nat}
    (round : R.body.Round state next) :
    R.body.observed observe (rounds + 1) state =
      observe state ++ R.body.observed observe rounds next := by
  unfold Body.Round at round
  simp [Body.observed, round]

/-- A round that visits an item in front of what is visited later. -/
private theorem observed_of_item {state next : σ} {rounds : Nat}
    {visit : Visit τ} {rest : List (Visit τ)}
    (round : R.body.Round state next) (item : observe state = [visit])
    (ends : (R.body.run rounds state).isSome)
    (later : ∀ {rounds}, (R.body.run rounds next).isSome ->
      R.body.observed observe rounds next = rest) :
    R.body.observed observe rounds state = visit :: rest := by
  obtain ⟨fewer, rfl⟩ := Body.exists_succ_of_run ends
  unfold Body.Round at round
  rw [observed_of_round round, item, later (by simpa [Body.run, round] using
    ends)]
  rfl

/-- Where the loop ends, nothing is observed after its own round. -/
theorem Ends.observed (watches : R.Watches observe) {state : σ}
    {results : ρ -> Prop} (ends : R.Ends state results) (rounds : Nat) :
    R.body.observed observe (rounds + 1) state = observe state := by
  obtain ⟨result, -, exits | ⟨next, round, quiet, exits⟩⟩ := ends
  · simp [Body.observed, exits]
  · rw [observed_of_round round]
    cases rounds with
    | zero => simp [Body.observed]
    | succ rounds => simp [Body.observed, watches.quiet quiet, exits]

/-- The rounds of a loop that accepts visit the items of its layout. -/
theorem Sound.observed_of_accepted (sound : R.Sound)
    (watches : R.Watches observe) {state : σ} {layout : Layout τ α}
    {stream : List UInt8} {value : α} {complete : Bool} {rounds : Nat}
    (entered : R.At state layout stream)
    (accepted : layout.verdict stream = .accepted value complete)
    (ends : (R.body.run rounds state).isSome) :
    R.body.observed observe rounds state = layout.visits stream := by
  induction layout generalizing state stream rounds with
  | refuse => exact absurd entered sound.not_refuse
  | enter tag next inductionHypothesis =>
      cases decoded : readHeader stream with
      | header isList length body =>
          obtain ⟨reached, round, later⟩ := sound.enter entered decoded
          simp only [verdict, visits, decoded] at accepted ⊢
          exact observed_of_item round (watches.reads entered rfl decoded)
            ends (inductionHypothesis length later accepted)
      | _ => simp [verdict, decoded] at accepted
  | field tag capacity next inductionHypothesis =>
      cases decoded : readHeader stream with
      | header isList length body =>
          simp only [verdict, visits, decoded] at accepted ⊢
          split_ifs at accepted with tooLong cutOff
          obtain ⟨reached, round, later⟩ | ⟨refuse, _⟩ :=
            (sound.field entered decoded).complete
              (Bool.eq_false_iff.mpr tooLong) (Nat.le_of_not_lt cutOff)
          · exact observed_of_item round (watches.reads entered rfl decoded)
              ends (inductionHypothesis _ later accepted)
          · rw [refuse] at accepted
            simp [verdict] at accepted
      | _ => simp [verdict, decoded] at accepted
  | final tag capacity final =>
      cases decoded : readHeader stream with
      | header isList length body =>
          simp only [verdict, visits, decoded] at accepted ⊢
          split_ifs at accepted with tooLong
          have leaves := sound.final entered decoded
            (Bool.eq_false_iff.mpr tooLong)
          obtain ⟨fewer, rfl⟩ := Body.exists_succ_of_run ends
          rw [leaves.observed watches, watches.reads entered rfl decoded]
      | _ => simp [verdict, decoded] at accepted
  | drain tag capacity =>
      exact absurd accepted (drained_ne_accepted _ _ _ _ _)

end Realization

end LedgerOne
