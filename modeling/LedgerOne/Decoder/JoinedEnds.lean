import LedgerOne.Decoder.JoinedStaking
import LedgerOne.Decoder.JoinedTransfer

/-!
# The last fields of a message

A last field is stored as far as it is there.  Of one that is cut off, this
module says which further bytes leave the content as it is: those that lie
behind the content, or the one byte that is stored on the length of the amount
just before this length is recorded.
-/

namespace LedgerOne

open Layout

section Arriving

variable {behind more length : Nat} {bytes : List UInt8} {content : TxContent}

/-- What arrives of a field that is cut off. -/
theorem take_append_of_cutOff (cutOff : bytes.length < length)
    (suffix : List UInt8) :
    (bytes ++ suffix).take length =
      bytes ++ suffix.take (length - bytes.length) := by
  rw [List.take_append, List.take_of_length_le (Nat.le_of_lt cutOff)]

/-- Bytes that can still arrive of a field at an address leave the content and
stay in the context. -/
def HidesRest (behind address length : Nat) (bytes : List UInt8)
    (value : List UInt8 -> TxContent) (more : Nat) : Prop :=
  ∀ suffix : List UInt8, suffix.length ≤ more ->
    exceeds (room behind address)
        ((bytes ++ suffix).take length).length = false ∧
      value ((bytes ++ suffix).take length) = value bytes

/-- All that can arrive stays in the context. -/
theorem HidesRest.inside {address : Nat}
    {value : List UInt8 -> TxContent} (front : address ≤ 528)
    (cutOff : bytes.length < length)
    (leaves : HidesRest behind address length bytes value more) :
    address + min length (bytes.length + more) ≤ 528 + behind := by
  obtain ⟨inside, -⟩ := leaves (List.replicate more 0) (by simp)
  rw [take_append_of_cutOff cutOff, room, exceeds_some,
    decide_eq_false_iff_not, List.length_append, List.length_take,
    List.length_replicate] at inside
  omega

/-- One more byte of the content is another byte. -/
theorem exists_byte_ne {address : Nat} (inside : address < 528)
    (content : TxContent) :
    ∃ byte, (content.poke address [byte]).byteAt address ≠
      content.byteAt address := by
  refine ⟨content.byteAt address + 1, ?_⟩
  rw [TxContent.byteAt_poke _ inside, byteAfter, if_pos (by simp)]
  simp

/-! ## Addresses -/

/-- What is missing of an address lies behind the content. -/
structure AddressHidden (behind more length present : Nat) : Prop where
  hidden : 252 ≤ present
  inside : 276 + min length (present + more) ≤ 528 + behind

theorem addressHidden_iff (cutOff : bytes.length < length) (some : 0 < more) :
    HidesRest behind 276 length bytes
        (fun bytes => content.poke 276 bytes) more ↔
      AddressHidden behind more length bytes.length := by
  constructor
  · intro leaves
    refine ⟨?_, leaves.inside (by decide) cutOff⟩
    by_contra shown
    obtain ⟨byte, other⟩ := exists_byte_ne
      (show 276 + bytes.length < 528 by omega) (content.poke 276 bytes)
    obtain ⟨-, same⟩ := leaves [byte] some
    rw [take_append_of_cutOff cutOff, List.take_of_length_le (by
      simp only [List.length_singleton]
      omega)] at same
    dsimp only at same
    rw [TxContent.poke_append] at same
    exact other (congrArg (TxContent.byteAt · _) same)
  · rintro ⟨hidden, inside⟩ suffix arrives
    rw [take_append_of_cutOff cutOff]
    constructor
    · rw [room, exceeds_some, decide_eq_false_iff_not, List.length_append,
        List.length_take]
      omega
    · dsimp only
      rw [TxContent.poke_append, TxContent.poke_of_behind (by omega)]

/-! ## Amounts -/

/-- What is missing of an amount lies behind the content, or it is the byte on
its length; and if it all arrives, its length is the one that is there. -/
structure AmountHidden (behind more length present : Nat)
    (content : TxContent) : Prop where
  hidden : 462 ≤ present ∨ present = 32 ∧ length = 33
  inside : 66 + min length (present + more) ≤ 528 + behind
  recorded : length ≤ present + more ->
    content.value.length = UInt8.ofNat length

/-- An amount of which further bytes have arrived. -/
theorem pokeFinalInt_append (cutOff : bytes.length < length)
    (rest : List UInt8) :
    Slot.value.pokeFinalInt length (bytes ++ rest) content =
      if bytes.length + rest.length < length then
        (Slot.value.pokeFinalInt length bytes content).poke
          (66 + bytes.length) rest
      else Slot.value.setLength (bytes.length + rest.length)
        ((Slot.value.pokeFinalInt length bytes content).poke
          (66 + bytes.length) rest) := by
  have here : Slot.value.pokeFinalInt length bytes content =
      content.poke 66 bytes := if_pos cutOff
  rw [here, ← TxContent.poke_append, Slot.pokeFinalInt, Slot.pokeInt,
    List.length_append]
  rfl

/-- The length of the amount is one byte of the content. -/
theorem byteAt_setLength {place : Nat} (beside : place ≠ 98) (length : Nat)
    (content : TxContent) :
    (Slot.value.setLength length content).byteAt place =
      content.byteAt place := by
  unfold TxContent.byteAt
  refine ite_congr rfl (fun _ => rfl) fun _ => ?_
  refine ite_congr rfl (fun _ => rfl) fun _ => ?_
  refine ite_congr rfl (fun before => ?_) fun _ => rfl
  rw [TxInt256.byteAt, TxInt256.byteAt, if_pos (by omega), if_pos (by omega)]
  rfl

/-- A length that is there already. -/
theorem setLength_of_recorded
    (recorded : content.value.length = UInt8.ofNat length) :
    Slot.value.setLength length content = content := by
  show { content with value :=
    { content.value with length := UInt8.ofNat length } } = content
  rw [← recorded]

theorem amountHidden_iff (cutOff : bytes.length < length) (some : 0 < more) :
    HidesRest behind 66 length bytes
        (fun bytes => Slot.value.pokeFinalInt length bytes content) more ↔
      AmountHidden behind more length bytes.length
        (Slot.value.pokeFinalInt length bytes content) := by
  generalize here : Slot.value.pokeFinalInt length bytes content = after
  have arriving (suffix : List UInt8) :
      Slot.value.pokeFinalInt length ((bytes ++ suffix).take length) content =
        if bytes.length + (suffix.take (length - bytes.length)).length < length
        then after.poke (66 + bytes.length)
          (suffix.take (length - bytes.length))
        else Slot.value.setLength length (after.poke (66 + bytes.length)
          (suffix.take (length - bytes.length))) := by
    rw [take_append_of_cutOff cutOff, pokeFinalInt_append cutOff, here]
    split
    · rfl
    · next whole =>
      congr 1
      rw [List.length_take] at whole ⊢
      omega
  constructor
  · intro leaves
    have unchanged (suffix : List UInt8) (arrives : suffix.length ≤ more) :=
      (arriving suffix).symm.trans ((leaves suffix arrives).2.trans here)
    refine ⟨?_, leaves.inside (by decide) cutOff, fun all => ?_⟩
    · by_contra shown
      obtain ⟨byte, other⟩ := exists_byte_ne
        (show 66 + bytes.length < 528 by omega) after
      have same := unchanged [byte] some
      rw [List.take_of_length_le (by
        simp only [List.length_singleton]
        omega)] at same
      apply other
      split at same
      · exact congrArg (TxContent.byteAt · _) same
      · next whole =>
        simp only [List.length_singleton] at whole
        have seen := congrArg (TxContent.byteAt · (66 + bytes.length)) same
        rwa [byteAt_setLength (by omega)] at seen
    · have same := unchanged (List.replicate (length - bytes.length) 0) (by
        rw [List.length_replicate]
        omega)
      rw [if_neg (by
        rw [List.length_take, List.length_replicate]
        omega)] at same
      rw [← congrArg (fun content => content.value.length) same]
      rfl
  · rintro ⟨hidden, inside, recorded⟩ suffix arrives
    constructor
    · rw [take_append_of_cutOff cutOff, room, exceeds_some,
        decide_eq_false_iff_not, List.length_append, List.length_take]
      omega
    dsimp only
    rw [arriving, here]
    obtain behindContent | ⟨short, onLength⟩ := hidden
    · rw [TxContent.poke_of_behind (by omega)]
      split
      · rfl
      · next whole =>
        rw [List.length_take] at whole
        exact setLength_of_recorded (recorded (by omega))
    · subst onLength
      rw [short]
      cases suffix with
      | nil =>
          rw [List.take_nil, if_pos (by decide)]
          exact TxContent.poke_nil _
      | cons byte suffix =>
          rw [if_neg (by simp), List.take_succ_cons, List.take_zero,
            TxContent.poke_amountLength]
          exact setLength_of_recorded (recorded (by
            simp only [List.length_cons] at arrives
            omega))

/-! ## The status -/

/-- Two bytes behind the same ones make different numbers. -/
theorem shardFromBytes_concat_ne (bytes : List UInt8) :
    shardFromBytes (bytes ++ [0]) ≠ shardFromBytes (bytes ++ [1]) := by
  unfold shardFromBytes
  rw [List.foldl_append, List.foldl_append]
  generalize bytes.foldl _ 0 = number
  intro same
  simp only [List.foldl_cons, List.foldl_nil] at same
  have lowest : number * 256 % 2 = 1 := by
    simpa using congrArg (Nat.testBit · 0) same
  omega

/-- A byte of the status always changes its number. -/
theorem not_hidesRest_status (cutOff : bytes.length < length)
    (some : 0 < more) :
    ¬HidesRest behind 264 length bytes
      (fun bytes => Staking.showStatus
        (Slot.fromShard.pokeShard length bytes content)) more := by
  intro hides
  have number (byte : UInt8) : shardFromBytes (bytes ++ [byte]) =
      shardFromBytes bytes := by
    obtain ⟨-, same⟩ := hides [byte] some
    rw [take_append_of_cutOff cutOff, List.take_of_length_le (by
      simp only [List.length_singleton]
      omega)] at same
    have announced : length ≠ 0 := by omega
    have shard := congrArg TxContent.fromShard same
    simp only [Staking.showStatus, Slot.pokeShard, if_neg announced] at shard
    exact shard
  exact shardFromBytes_concat_ne bytes ((number 0).trans (number 1).symm)

end Arriving

/-! ## The ends of the two machines -/

/-- How `processTx` reads its last field. -/
inductive TransferEnds (behind : Nat) :
    RlpTxField -> Option Nat -> (Nat -> List UInt8 -> TxContent) -> Prop
  | amount (content : TxContent) :
      TransferEnds behind .amount (room behind 66) fun length bytes =>
        Slot.value.pokeFinalInt length bytes content

/-- How `processStaking` reads its last field. -/
inductive StakingEnds (behind : Nat) :
    RlpStakingField -> Option Nat ->
      (Nat -> List UInt8 -> Option TxContent) -> Prop
  | delegator (content : TxContent) :
      StakingEnds behind .delegatoraddr (room behind 276) fun _ bytes =>
        some (content.poke 276 bytes)
  | amount (content : TxContent) :
      StakingEnds behind .amount (room behind 66) fun length bytes =>
        let after := Slot.value.pokeFinalInt length bytes content
        if Staking.EndsWithAmount after.directive then some after else none
  | status (content : TxContent) :
      StakingEnds behind .editactive (room behind 264) fun length bytes =>
        some (Staking.showStatus
          (Slot.fromShard.pokeShard length bytes content))

theorem JoinedTransfer.message_endsIn (behind : Nat) (content : TxContent) :
    (message behind content).EndsIn (TransferEnds behind) :=
  fun _ _ _ _ _ _ _ => .amount _

theorem JoinedStaking.message_endsIn (behind : Nat) :
    (message behind).EndsIn (StakingEnds behind) := by
  refine Course.endsIn_unfold ?_ _ _
  rintro ⟨content, keyIndex, field⟩ capacity value here
  cases field <;> simp only [course, node, reduceCtorEq] at here
  case delegatoraddr =>
    split at here
    · obtain ⟨rfl, rfl⟩ := Node.final.inj here
      exact .delegator content
    · cases here
  case amount =>
    obtain ⟨rfl, rfl⟩ := Node.final.inj here
    exact .amount content
  case editactive =>
    obtain ⟨rfl, rfl⟩ := Node.final.inj here
    exact .status content

end LedgerOne
