import Mathlib.Data.List.Basic
import Mathlib.Tactic.Common

/-!
# Reading until a buffer is full

A reader fetches some of what comes, never more than asked for.  `readFull`
calls it until it has everything that was asked for.  When a reader goes
through a stream of items, in however small portions, `readFull` gets the next
items of the stream.  A reader may keep its place for so many items only; what
is left of them is its room.
-/

namespace LedgerOne

/-- What is fetched in a state when a number of items is asked for. -/
abbrev Reader (ε σ β : Type) := σ -> Nat -> Except ε (List β × σ)

variable {ε σ β : Type}

/-- Read until `wanted` items are there, for at most `rounds` calls; an error
that comes too late is changed. -/
def readFullFrom (read : Reader ε σ β) (late : ε -> ε) (wanted : Nat) :
    Nat -> List β -> σ -> Option (Except ε (List β × σ))
  | 0, got, state =>
      if wanted ≤ got.length then some (.ok (got, state)) else none
  | rounds + 1, got, state =>
      if wanted ≤ got.length then some (.ok (got, state))
      else
        match read state (wanted - got.length) with
        | .error e => some (.error (if got.isEmpty then e else late e))
        | .ok (items, next) =>
            readFullFrom read late wanted rounds (got ++ items) next

/-- Read `wanted` items: every call fetches one at least. -/
def readFull (read : Reader ε σ β) (late : ε -> ε) (wanted : Nat)
    (state : σ) : Option (Except ε (List β × σ)) :=
  readFullFrom read late wanted wanted [] state

/-- The reader goes through the items that are upcoming in its states. -/
structure Streams (read : Reader ε σ β) (upcoming : σ -> List β -> Prop)
    (room : σ -> Nat) : Prop where
  /-- It fetches something, and not too much. -/
  portion : ∀ {state count items next}, 0 < count -> count ≤ room state ->
    read state count = .ok (items, next) ->
    0 < items.length ∧ items.length ≤ count ∧
      room state ≤ room next + items.length
  /-- What is upcoming can be fetched. -/
  fetches : ∀ {state count content}, upcoming state content ->
    0 < count -> count ≤ room state -> content ≠ [] ->
    ∃ items next rest, read state count = .ok (items, next) ∧
      content = items ++ rest ∧ upcoming next rest
  /-- What was fetched had been upcoming. -/
  fetched : ∀ {state count items next rest}, 0 < count ->
    count ≤ room state -> read state count = .ok (items, next) ->
    upcoming next rest -> upcoming state (items ++ rest)

namespace Streams

variable {read : Reader ε σ β} {late : ε -> ε} {wanted : Nat}
  {upcoming : σ -> List β -> Prop} {room : σ -> Nat}
  (streams : Streams read upcoming room)

include streams

/-- Items that are still missing are read while there are some. -/
theorem readFullFrom_upcoming {rounds : Nat} {got content : List β}
    {state : σ} (few : got.length ≤ wanted)
    (enough : wanted ≤ got.length + rounds)
    (roomy : wanted ≤ got.length + room state)
    (holds : upcoming state content)
    (long : wanted ≤ got.length + content.length) :
    ∃ next,
      readFullFrom read late wanted rounds got state =
        some (.ok (got ++ content.take (wanted - got.length), next)) ∧
      upcoming next (content.drop (wanted - got.length)) := by
  induction rounds generalizing got content state with
  | zero =>
      have all : wanted - got.length = 0 := by omega
      refine ⟨state, ?_, by rwa [all]⟩
      rw [readFullFrom, if_pos (by omega), all, List.take_zero,
        List.append_nil]
  | succ rounds inductionHypothesis =>
      rw [readFullFrom]
      by_cases full : wanted ≤ got.length
      · have all : wanted - got.length = 0 := by omega
        refine ⟨state, ?_, by rwa [all]⟩
        rw [if_pos full, all, List.take_zero, List.append_nil]
      · have missing : 0 < wanted - got.length := by omega
        obtain ⟨items, next, rest, reads, rfl, goesOn⟩ :=
          streams.fetches holds missing (by omega) (by
            rintro rfl
            rw [List.length_nil] at long
            omega)
        obtain ⟨some, most, left⟩ :=
          streams.portion missing (by omega) reads
        rw [List.length_append] at long
        obtain ⟨last, ends, remains⟩ := inductionHypothesis
          (show (got ++ items).length ≤ wanted by
            rw [List.length_append]
            omega)
          (by
            rw [List.length_append]
            omega)
          (by
            rw [List.length_append]
            omega)
          goesOn
          (by
            rw [List.length_append]
            omega)
        rw [List.length_append] at ends remains
        have cut : wanted - got.length =
            items.length + (wanted - (got.length + items.length)) := by
          omega
        refine ⟨last, ?_, ?_⟩
        · rw [if_neg full, reads]
          dsimp only
          rw [ends, List.append_assoc, cut, List.take_length_add_append]
        · rwa [cut, List.drop_length_add_append]

/-- The next items of the stream are read. -/
theorem readFull_upcoming {content : List β} {state : σ}
    (roomy : wanted ≤ room state) (holds : upcoming state content)
    (long : wanted ≤ content.length) :
    ∃ next,
      readFull read late wanted state =
        some (.ok (content.take wanted, next)) ∧
      upcoming next (content.drop wanted) := by
  have few : ([] : List β).length ≤ wanted := Nat.zero_le _
  have reads : ∃ next, readFull read late wanted state = _ ∧ _ :=
    streams.readFullFrom_upcoming few (Nat.le_add_left _ _)
      (by rwa [List.length_nil, Nat.zero_add]) holds
      (by rwa [List.length_nil, Nat.zero_add])
  rwa [List.length_nil, Nat.sub_zero, List.nil_append] at reads

/-- No more and no less is read than was wanted. -/
theorem length_of_readFullFrom {rounds : Nat} {got bytes : List β}
    {state next : σ} (few : got.length ≤ wanted)
    (roomy : wanted ≤ got.length + room state)
    (reads : readFullFrom read late wanted rounds got state =
      some (.ok (bytes, next))) :
    bytes.length = wanted ∧ got.length + room state ≤ room next + wanted := by
  induction rounds generalizing got state with
  | zero =>
      rw [readFullFrom] at reads
      split_ifs at reads with full
      cases reads
      omega
  | succ rounds inductionHypothesis =>
      rw [readFullFrom] at reads
      by_cases full : wanted ≤ got.length
      · rw [if_pos full] at reads
        cases reads
        omega
      · rw [if_neg full] at reads
        split at reads
        next => cases reads
        next items after fetches =>
          obtain ⟨some, most, left⟩ :=
            streams.portion (by omega) (by omega) fetches
          have length := @List.length_append _ got items
          obtain ⟨all, lost⟩ := inductionHypothesis (by omega) (by omega) reads
          exact ⟨all, by omega⟩

theorem length_of_readFull {bytes : List β} {state next : σ}
    (roomy : wanted ≤ room state)
    (reads : readFull read late wanted state = some (.ok (bytes, next))) :
    bytes.length = wanted :=
  (streams.length_of_readFullFrom (Nat.zero_le _)
    (by rwa [List.length_nil, Nat.zero_add]) reads).1

/-- What is read is all that is lost of the room. -/
theorem room_of_readFull {bytes : List β} {state next : σ}
    (roomy : wanted ≤ room state)
    (reads : readFull read late wanted state = some (.ok (bytes, next))) :
    room state ≤ room next + wanted := by
  have lost := (streams.length_of_readFullFrom (Nat.zero_le _)
    (by rwa [List.length_nil, Nat.zero_add]) reads).2
  rwa [List.length_nil, Nat.zero_add] at lost

/-- What is read had been upcoming. -/
theorem upcoming_of_readFullFrom {rounds : Nat} {got bytes rest : List β}
    {state next : σ} (few : got.length ≤ wanted)
    (roomy : wanted ≤ got.length + room state)
    (reads : readFullFrom read late wanted rounds got state =
      some (.ok (bytes, next)))
    (holds : upcoming next rest) :
    ∃ items, bytes = got ++ items ∧ upcoming state (items ++ rest) := by
  induction rounds generalizing got state with
  | zero =>
      rw [readFullFrom] at reads
      split_ifs at reads with full
      cases reads
      exact ⟨[], (List.append_nil _).symm, holds⟩
  | succ rounds inductionHypothesis =>
      rw [readFullFrom] at reads
      by_cases full : wanted ≤ got.length
      · rw [if_pos full] at reads
        cases reads
        exact ⟨[], (List.append_nil _).symm, holds⟩
      · rw [if_neg full] at reads
        have missing : 0 < wanted - got.length := by omega
        split at reads
        next => cases reads
        next items after fetches =>
          obtain ⟨some, most, left⟩ :=
            streams.portion missing (by omega) fetches
          obtain ⟨later, rfl, goesOn⟩ := inductionHypothesis
            (by
              rw [List.length_append]
              omega)
            (by
              rw [List.length_append]
              omega) reads
          refine ⟨items ++ later, List.append_assoc _ _ _, ?_⟩
          rw [List.append_assoc]
          exact streams.fetched missing (by omega) fetches goesOn

theorem upcoming_of_readFull {bytes rest : List β} {state next : σ}
    (roomy : wanted ≤ room state)
    (reads : readFull read late wanted state = some (.ok (bytes, next)))
    (holds : upcoming next rest) :
    upcoming state (bytes ++ rest) := by
  obtain ⟨items, rfl, goesOn⟩ :=
    streams.upcoming_of_readFullFrom (Nat.zero_le _)
      (by rwa [List.length_nil, Nat.zero_add]) reads holds
  exact goesOn

/-- Reading never goes on for ever. -/
theorem isSome_readFullFrom {rounds : Nat} {got : List β} {state : σ}
    (enough : wanted ≤ got.length + rounds)
    (roomy : wanted ≤ got.length + room state) :
    (readFullFrom read late wanted rounds got state).isSome := by
  induction rounds generalizing got state with
  | zero =>
      rw [readFullFrom, if_pos (by omega)]
      rfl
  | succ rounds inductionHypothesis =>
      rw [readFullFrom]
      by_cases full : wanted ≤ got.length
      · rw [if_pos full]
        rfl
      · rw [if_neg full]
        split
        · rfl
        next items next fetches =>
          obtain ⟨some, most, left⟩ :=
            streams.portion (by omega) (by omega) fetches
          apply inductionHypothesis
          all_goals
            rw [List.length_append]
            omega

theorem isSome_readFull {state : σ} (roomy : wanted ≤ room state) :
    (readFull read late wanted state).isSome :=
  streams.isSome_readFullFrom (Nat.le_add_left _ _)
    (by rwa [List.length_nil, Nat.zero_add])

end Streams

end LedgerOne
