import LedgerOne.Lib.Visits
import LedgerOne.Decoder.JoinedReader

/-!
# The fields that `processStaking` visits

The `switch` of `processStaking` is entered once for each header.  On a message
that is accepted the fields it is entered with are those of the layout, in its
order.
-/

namespace LedgerOne

open Rlp Layout

/-- The field with which a round reaches the `switch`, the length announced
for it and what there is of its payload. -/
def stakingVisit (buf : Region 1024) (context : TxContext) :
    List (Visit RlpStakingField) :=
  match beforeSwitch buf (stakingDone context) context with
  | .ok (none, ready) =>
      [⟨ready.stakeCurrentField, ready.currentFieldLength,
        buf.read (ready.workBuffer.getD 0) ready.copySize⟩]
  | _ => []

/-- The fields that a call of `processStaking` visits, in order. -/
def stakingVisits [Memory] (buf : Region 1024) (context : TxContext) :
    List (Visit RlpStakingField) :=
  (processStakingRound buf).observed (stakingVisit buf)
    (context.commandLength + 64) context

section Visits

variable {buf : Region 1024} {bytes : List UInt8}

/-- A call visits at most one item a round. -/
theorem length_stakingVisits_le [Memory] (buf : Region 1024)
    (context : TxContext) :
    (stakingVisits buf context).length ≤ context.commandLength + 64 := by
  refine Body.length_observed_le (fun state => ?_) _ _
  unfold stakingVisit
  split
  · exact le_rfl
  · exact Nat.zero_le _

/-- What is expected at a field is an item of that field. -/
theorem tag?_expected {content : TxContent} {keyIndex : Nat}
    {field : RlpStakingField}
    (reads : Staking.expected content keyIndex field ≠ .refuse) :
    (Staking.expected content keyIndex field).tag? = some field := by
  cases field with
  | amount =>
      simp only [Staking.expected, Staking.amount]
      split <;> rfl
  | delegatoraddr =>
      simp only [Staking.expected, Staking.delegatoraddr]
      split <;> rfl
  | blspubkey =>
      simp only [Staking.expected, Staking.blspubkey]
      split <;> rfl
  | blssignature =>
      simp only [Staking.expected, Staking.blssignature]
      split <;> rfl
  | _ => first | rfl | exact absurd rfl reads

/-- The rounds of a parser visit the items it expects, whatever its handlers
do with them. -/
theorem watches_of_expects {α : Type}
    {handle : Body Fault TxContext (Int × TxContext)}
    {expects : TxContext -> Layout RlpStakingField α -> Prop}
    {accepts : Int × TxContext -> α -> Prop}
    (tagged : ∀ {state layout}, expects state layout ->
      layout.tag? = some state.stakeCurrentField) :
    (parserRealization buf stakingDone handle expects accepts).Watches
      (stakingVisit buf) where
  quiet := by
    intro state quiet
    unfold stakingVisit beforeSwitch
    obtain done | exhausted := quiet
    · rw [if_pos done]
    · split_ifs <;> rfl
  reads := by
    intro state layout stream tag isList length body entered expected decoded
    obtain ⟨clean, goesOn, expects⟩ := entered
    rw [tagged expects, Option.some.injEq] at expected
    obtain ⟨ready, atField, head⟩ := beforeSwitch_of_header clean goesOn decoded
    obtain ⟨position, cursor, -, -, payload⟩ := atField.holds
    have visited : buf.read (ready.workBuffer.getD 0) ready.copySize =
        body.take length := by
      rw [cursor, Option.getD_some, atField.copySize_eq, ← Region.take_read,
        payload]
    simp only [stakingVisit, head, visited, atField.same.stakeCurrentField,
      atField.currentFieldLength, expected]

/-- The rounds of `processStaking` visit the items of its layout. -/
theorem stakingReader_watches (buf : Region 1024) :
    (stakingReader buf).Watches (stakingVisit buf) :=
  watches_of_expects fun ⟨same, reads⟩ => same ▸ tag?_expected (same ▸ reads)

/-- So they do in one piece of memory. -/
theorem joinedStakingReader_watches (behind : Nat) (buf : Region 1024) :
    (joinedStakingReader behind buf).Watches (stakingVisit buf) :=
  watches_of_expects fun ⟨⟨_, drawn, _⟩, reads⟩ =>
    drawn ▸ Course.tag?_unfold (drawn ▸ reads)

/-- On a message that is accepted `processStaking` visits what its layout
takes. -/
theorem stakingVisits_eq (received : Received buf bytes) {left : TxContext}
    (returns : processStaking buf (stakingStart bytes.length) =
      .ok (0, left)) :
    stakingVisits buf (stakingStart bytes.length) =
        (Staking.message .zero).visits bytes ∧
      (Staking.message .zero).Follows
        ((Staking.message .zero).visits bytes) left.content := by
  obtain ⟨complete, accepted⟩ :=
    (processStaking_accepts_iff received left.content).mp ⟨left, returns, rfl⟩
  refine ⟨?_, follows_of_accepted accepted⟩
  apply (stakingReader_sound buf).observed_of_accepted
    (stakingReader_watches buf) (stakingReader_at_start received) accepted
  rw [processStaking, runParser] at returns
  split at returns
  · cases returns
  · next ends => exact Option.isSome_iff_exists.mpr ⟨_, ends⟩

/-- The fields that a call of `processStaking` visits in one piece of
memory. -/
abbrev stakingVisitsIn (behind : Nat) (buf : Region 1024)
    (context : TxContext) : List (Visit RlpStakingField) :=
  @stakingVisits (.joined behind) buf context

/-- On a message that is accepted they lead the machine to its content. -/
theorem path_of_processStakingIn {behind : Nat} (received : Received buf bytes)
    {left : TxContext}
    (returns : processStakingIn behind buf (stakingStart bytes.length) =
      .ok (0, left)) :
    (JoinedStaking.course behind).Path ⟨.zero, 0, .content⟩
      (stakingVisitsIn behind buf (stakingStart bytes.length))
      (some left.content) := by
  obtain ⟨complete, accepted⟩ :=
    (processStakingIn_accepts_iff received left.content).mp
      ⟨left, returns, rfl⟩
  have ends : ((@processStakingRound (.joined behind) buf).run
      ((stakingStart bytes.length).commandLength + 64)
      (stakingStart bytes.length)).isSome := by
    have returns : runParser (@processStakingRound (.joined behind) buf)
      (stakingStart bytes.length) = .ok (0, left) := returns
    rw [runParser] at returns
    split at returns
    · cases returns
    · next ends => exact Option.isSome_iff_exists.mpr ⟨_, ends⟩
  have visited : stakingVisitsIn behind buf (stakingStart bytes.length) =
      (JoinedStaking.message behind).visits bytes :=
    (joinedStakingReader_sound behind buf).observed_of_accepted
      (joinedStakingReader_watches behind buf)
      (joinedStakingReader_at_start received) accepted ends
  rw [visited]
  exact Course.path_of_follows (follows_of_accepted accepted)

end Visits

end LedgerOne
