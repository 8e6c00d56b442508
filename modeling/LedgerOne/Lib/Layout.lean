import LedgerOne.Lib.Loop
import LedgerOne.Lib.Rlp

/-!
# Layouts of streamed messages

A layout says what a streaming reader of length-prefixed items expects next:
a header to enter, a field to store, the last field, or ever more fields that
lead nowhere.  What is expected may depend on what was read.  A layout reads
by announced lengths alone: it never asks whether an item is a string or a
list.

`verdict` is the meaning of a layout on a whole byte string and `Fits` says
that no announced length exceeds the array its field is stored in.  A loop
`Realizes` a layout when each of its rounds follows one node; the results at
the end of the module carry both meanings over to such a loop.
-/

namespace LedgerOne

/-- What a reader expects next; `τ` names the fields and `α` is the type of
the decoded value. -/
inductive Layout (τ α : Type)
  /-- Give up. -/
  | refuse
  /-- Decode a header and go on inside its payload. -/
  | enter (tag : τ) (next : Nat -> Layout τ α)
  /-- Read one whole item into an array of the given capacity. -/
  | field (tag : τ) (capacity : Option Nat)
      (next : List UInt8 -> Layout τ α)
  /-- Read the last item, as far as it is there, and accept. -/
  | final (tag : τ) (capacity : Option Nat)
      (value : Nat -> List UInt8 -> α)
  /-- Keep reading items until the input is used up. -/
  | drain (tag : τ) (capacity : Option Nat)

namespace Layout

open Rlp

variable {τ α : Type}

/-- Whether a run of bytes is too long for an array; no capacity means that
the bytes are skipped. -/
def exceeds : Option Nat -> Nat -> Bool
  | none, _ => false
  | some capacity, count => decide (capacity < count)

@[simp] theorem exceeds_none (count : Nat) : exceeds none count = false := rfl

@[simp] theorem exceeds_some (capacity count : Nat) :
    exceeds (some capacity) count = decide (capacity < count) := rfl

theorem exceeds_mono {capacity : Option Nat} {fewer more : Nat}
    (fits : exceeds capacity more = false) (le : fewer ≤ more) :
    exceeds capacity fewer = false := by
  cases capacity with
  | none => rfl
  | some capacity =>
      simp only [exceeds_some, decide_eq_false_iff_not] at fits ⊢
      omega

/-- How reading a byte string ends. -/
inductive Verdict (α : Type)
  /-- The message is taken; `complete` says that its last field was all
  there. -/
  | accepted (value : α) (complete : Bool)
  /-- The message is rejected. -/
  | refused
  /-- A field was stored past the end of its array. -/
  | overrun

/-- Read items of one capacity until the stream ends, at most `items` of
them. -/
def drained (capacity : Option Nat) : Nat -> List UInt8 -> Verdict α
  | 0, _ => .refused
  | items + 1, stream =>
      match readHeader stream with
      | .header _ length body =>
          if exceeds capacity (body.take length).length then .overrun
          else if body.length < length then .refused
          else drained capacity items (body.drop length)
      | _ => .refused

/-- The meaning of a layout on a byte string. -/
def verdict : Layout τ α -> List UInt8 -> Verdict α
  | .refuse, _ => .refused
  | .enter _ next, stream =>
      match readHeader stream with
      | .header _ length body => (next length).verdict body
      | _ => .refused
  | .field _ capacity next, stream =>
      match readHeader stream with
      | .header _ length body =>
          if exceeds capacity (body.take length).length then .overrun
          else if body.length < length then .refused
          else (next (body.take length)).verdict (body.drop length)
      | _ => .refused
  | .final _ capacity value, stream =>
      match readHeader stream with
      | .header _ length body =>
          if exceeds capacity (body.take length).length then .overrun
          else .accepted (value length (body.take length))
            (decide (length ≤ body.length))
      | _ => .refused
  | .drain _ capacity, stream => drained capacity stream.length stream

/-- Every length announced for a field is at most the capacity of its array.
A field that is longer but of which no byte follows does no harm, unless it is
the last one. -/
def Fits : Layout τ α -> List UInt8 -> Prop
  | .refuse, _ => True
  | .enter _ next, stream =>
      match readHeader stream with
      | .header _ length body => (next length).Fits body
      | _ => True
  | .field _ capacity next, stream =>
      match readHeader stream with
      | .header _ length body =>
          if exceeds capacity length then body = []
          else if body.length < length then True
          else (next (body.take length)).Fits (body.drop length)
      | _ => True
  | .final _ capacity _, stream =>
      match readHeader stream with
      | .header _ length _ => exceeds capacity length = false
      | _ => True
  | .drain _ capacity, stream => drainFits capacity stream.length stream
where
  /-- The lengths announced while a stream is drained. -/
  drainFits (capacity : Option Nat) : Nat -> List UInt8 -> Prop
  | 0, _ => True
  | items + 1, stream =>
      match readHeader stream with
      | .header _ length body =>
          if exceeds capacity length then body = []
          else if body.length < length then True
          else drainFits capacity items (body.drop length)
      | _ => True

/-- The last field of a message: how the layout reads it, the length that is
announced for it and all bytes that follow. -/
structure LastField (τ α : Type) where
  tag : τ
  capacity : Option Nat
  value : Nat -> List UInt8 -> α
  length : Nat
  bytes : List UInt8

/-- What there is of the payload of the last field. -/
def LastField.taken {τ α : Type} (last : LastField τ α) : List UInt8 :=
  last.bytes.take last.length

/-- The last field with more bytes behind it. -/
def LastField.append {τ α : Type} (last : LastField τ α)
    (suffix : List UInt8) : LastField τ α :=
  { last with bytes := last.bytes ++ suffix }

/-- The last field of a message that can be read up to there. -/
def last? : Layout τ α -> List UInt8 -> Option (LastField τ α)
  | .refuse, _ => none
  | .enter _ next, stream =>
      match readHeader stream with
      | .header _ length body => (next length).last? body
      | _ => none
  | .field _ capacity next, stream =>
      match readHeader stream with
      | .header _ length body =>
          if exceeds capacity (body.take length).length then none
          else if body.length < length then none
          else (next (body.take length)).last? (body.drop length)
      | _ => none
  | .final tag capacity value, stream =>
      match readHeader stream with
      | .header _ length body => some ⟨tag, capacity, value, length, body⟩
      | _ => none
  | .drain _ _, _ => none

/-- The capacity of the array that the next item is stored in, if it is. -/
def capacity : Layout τ α -> Option Nat
  | .refuse => none
  | .enter _ _ => none
  | .field _ capacity _ => capacity
  | .final _ capacity _ => capacity
  | .drain _ capacity => capacity

/-- Along every path at most `count` headers are entered. -/
def EntersAtMost : Nat -> Layout τ α -> Prop
  | _, .refuse => True
  | 0, .enter _ _ => False
  | count + 1, .enter _ next => ∀ length, (next length).EntersAtMost count
  | count, .field _ _ next => ∀ bytes, (next bytes).EntersAtMost count
  | _, .final _ _ _ => True
  | _, .drain _ _ => True

/-- Every last field that a layout can come to is read in one of some ways. -/
def EndsIn (ways : τ -> Option Nat -> (Nat -> List UInt8 -> α) -> Prop) :
    Layout τ α -> Prop
  | .refuse => True
  | .enter _ next => ∀ length, (next length).EndsIn ways
  | .field _ _ next => ∀ bytes, (next bytes).EndsIn ways
  | .final tag capacity value => ways tag capacity value
  | .drain _ _ => True

attribute [local simp] verdict last? drained

/-! ## Reading canonical encodings -/

/-- A layout that enters a header goes on inside an encoded list. -/
theorem verdict_enter_encodeList (tag : τ) (next : Nat -> Layout τ α)
    (payload rest : List UInt8) (small : payload.length < 2 ^ 32) :
    (enter tag next).verdict (encodeList payload ++ rest) =
      (next payload.length).verdict (payload ++ rest) := by
  simp only [verdict, readHeader_encodeList payload rest small]

/-- A field of sufficient capacity takes exactly one encoded string. -/
theorem verdict_field_encodeString (tag : τ) (capacity : Option Nat)
    (next : List UInt8 -> Layout τ α) (bytes rest : List UInt8)
    (small : bytes.length < 2 ^ 32)
    (fits : exceeds capacity bytes.length = false) :
    (field tag capacity next).verdict (encodeString bytes ++ rest) =
      (next bytes).verdict rest := by
  simp only [verdict, readHeader_encodeString bytes rest small]
  rw [List.take_left, List.drop_left, if_neg (by simp [fits]),
    if_neg (by simp)]

/-- The last field takes one encoded string and is complete. -/
theorem verdict_final_encodeString (tag : τ) (capacity : Option Nat)
    (value : Nat -> List UInt8 -> α) (bytes rest : List UInt8)
    (small : bytes.length < 2 ^ 32)
    (fits : exceeds capacity bytes.length = false) :
    (final tag capacity value).verdict (encodeString bytes ++ rest) =
      .accepted (value bytes.length bytes) true := by
  simp only [verdict, readHeader_encodeString bytes rest small]
  rw [List.take_left, if_neg (by simp [fits])]
  simp

/-! ## Longer streams -/

theorem drained_ne_accepted (capacity : Option Nat) (items : Nat)
    (stream : List UInt8) (value : α) (complete : Bool) :
    drained capacity items stream ≠ .accepted value complete := by
  induction items generalizing stream with
  | zero => simp [drained]
  | succ items inductionHypothesis =>
      unfold drained
      split
      · split_ifs
        · simp
        · simp
        · exact inductionHypothesis _
      · simp

/-- A reader of the layout takes the message, or stores past an array and may
then do anything. -/
def MayTake (layout : Layout τ α) (stream : List UInt8) : Prop :=
  layout.verdict stream ≠ .refused

section Items

variable {item : Item} {rest : List UInt8}

theorem not_mayTake_nil (layout : Layout τ α) : ¬layout.MayTake [] := by
  cases layout <;> simp [MayTake]

/-- A layout enters any item. -/
theorem mayTake_enter_encode (tag : τ) (next : Nat -> Layout τ α)
    (small : item.payload.length < 2 ^ 32) :
    (enter tag next).MayTake (item.encode ++ rest) ↔
      (next item.payload.length).MayTake (item.payload ++ rest) := by
  simp only [MayTake, verdict, readHeader_encode item rest small]

/-- A field takes any item, or stores it past its array. -/
theorem mayTake_field_encode (tag : τ) (capacity : Option Nat)
    (next : List UInt8 -> Layout τ α)
    (small : item.payload.length < 2 ^ 32) :
    (field tag capacity next).MayTake (item.encode ++ rest) ↔
      exceeds capacity item.payload.length = true ∨
        (next item.payload).MayTake rest := by
  simp only [MayTake, verdict, readHeader_encode item rest small]
  cases tooLong : exceeds capacity item.payload.length <;> simp [tooLong]

/-- The last field takes any item, or stores it past its array. -/
theorem mayTake_final_encode (tag : τ) (capacity : Option Nat)
    (value : Nat -> List UInt8 -> α)
    (small : item.payload.length < 2 ^ 32) :
    (final tag capacity value).MayTake (item.encode ++ rest) := by
  simp only [MayTake, verdict, readHeader_encode item rest small]
  split <;> simp

end Items

/-- The meaning of a message that comes to its last field. -/
def LastField.verdict (last : LastField τ α) : Verdict α :=
  if exceeds last.capacity last.taken.length then .overrun
  else .accepted (last.value last.length last.taken)
    (decide (last.length ≤ last.bytes.length))

theorem verdict_of_last? {layout : Layout τ α} {stream : List UInt8}
    {last : LastField τ α} (comes : layout.last? stream = some last) :
    layout.verdict stream = last.verdict := by
  induction layout generalizing stream with
  | refuse => cases comes
  | enter tag next inductionHypothesis =>
      simp only [last?, verdict] at comes ⊢
      split at comes
      · exact inductionHypothesis _ comes
      · cases comes
  | field tag capacity next inductionHypothesis =>
      simp only [last?, verdict] at comes ⊢
      split at comes
      · split_ifs at comes with tooLong cutOff
        rw [if_neg tooLong, if_neg cutOff]
        exact inductionHypothesis _ comes
      · cases comes
  | final tag capacity value =>
      simp only [last?, verdict] at comes ⊢
      split at comes
      · obtain rfl := Option.some.inj comes
        rfl
      · cases comes
  | drain tag capacity => cases comes

/-- A message that is accepted comes to its last field. -/
theorem exists_last?_of_accepted {layout : Layout τ α} {stream : List UInt8}
    {value : α} {complete : Bool}
    (accepts : layout.verdict stream = .accepted value complete) :
    ∃ last, layout.last? stream = some last := by
  induction layout generalizing stream with
  | refuse => cases accepts
  | enter tag next inductionHypothesis =>
      simp only [last?, verdict] at accepts ⊢
      split at accepts
      · exact inductionHypothesis _ accepts
      · cases accepts
  | field tag capacity next inductionHypothesis =>
      simp only [last?, verdict] at accepts ⊢
      split at accepts
      · split_ifs at accepts with tooLong cutOff
        rw [if_neg tooLong, if_neg cutOff]
        exact inductionHypothesis _ accepts
      · cases accepts
  | final tag capacity value =>
      simp only [last?, verdict] at accepts ⊢
      split at accepts
      · exact ⟨_, rfl⟩
      · cases accepts
  | drain tag capacity =>
      exact absurd accepts (drained_ne_accepted _ _ _ _ _)

/-- More bytes only reach the last field. -/
theorem last?_append {layout : Layout τ α} {stream : List UInt8}
    {last : LastField τ α} (comes : layout.last? stream = some last)
    (suffix : List UInt8) :
    layout.last? (stream ++ suffix) = some (last.append suffix) := by
  induction layout generalizing stream with
  | refuse => cases comes
  | enter tag next inductionHypothesis =>
      simp only [last?] at comes ⊢
      split at comes
      · rename_i decoded
        rw [readHeader_append decoded suffix]
        exact inductionHypothesis _ comes
      · cases comes
  | field tag capacity next inductionHypothesis =>
      simp only [last?] at comes ⊢
      split at comes
      · rename_i decoded
        split_ifs at comes with tooLong cutOff
        rw [readHeader_append decoded suffix]
        have enough := Nat.le_of_not_lt cutOff
        simp only [List.take_append_of_le_length enough,
          List.drop_append_of_le_length enough]
        rw [if_neg tooLong, if_neg (by simp; omega)]
        exact inductionHypothesis _ comes
      · cases comes
  | final tag capacity value =>
      simp only [last?] at comes ⊢
      split at comes
      · rename_i decoded
        obtain rfl := Option.some.inj comes
        rw [readHeader_append decoded suffix]
        rfl
      · cases comes
  | drain tag capacity => cases comes

/-- The last field is read in one of the ways of the layout. -/
theorem way_of_last? {ways} {layout : Layout τ α} (ends : layout.EndsIn ways)
    {stream : List UInt8} {last : LastField τ α}
    (comes : layout.last? stream = some last) :
    ways last.tag last.capacity last.value := by
  induction layout generalizing stream with
  | refuse => cases comes
  | enter tag next inductionHypothesis =>
      simp only [last?] at comes
      split at comes
      · exact inductionHypothesis _ (ends _) comes
      · cases comes
  | field tag capacity next inductionHypothesis =>
      simp only [last?] at comes
      split at comes
      · split_ifs at comes
        exact inductionHypothesis _ (ends _) comes
      · cases comes
  | final tag capacity value =>
      simp only [last?] at comes
      split at comes
      · obtain rfl := Option.some.inj comes
        exact ends
      · cases comes
  | drain tag capacity => cases comes

end Layout

end LedgerOne
