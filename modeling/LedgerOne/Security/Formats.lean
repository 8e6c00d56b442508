import LedgerOne.Decoder.JoinedReader
import LedgerOne.Decoder.JoinedTransfer
import LedgerOne.Firmware.Ui
import LedgerOne.Messages.Staking

/-!
# Telling the two formats apart

Transfers and staking operations are signed in the same way, so that only the
parsers tell them apart.  The kind of every header is decoded and then never
looked at, and a field may run over into the fields behind it; this module says
exactly which byte strings one parser may accept in the other's place.
-/

namespace LedgerOne

open Rlp Layout

/-- A call of a parser that does not end with another code than 0.  Of a call
that stores past the end of the command context nothing is known. -/
def MayAccept (outcome : Except Fault (Int × TxContext)) : Prop :=
  ∀ code left, outcome = .ok (code, left) -> code = 0

/-- `processTx` on a fresh context over the received bytes may return 0. -/
def AcceptsTransfer (build : Build) (buf : Region 1024)
    (bytes : List UInt8) : Prop :=
  MayAccept
    (processTxIn build.stringsSize buf (transferStart bytes.length))

/-- `processStaking` on a fresh context over the received bytes may return
0. -/
def AcceptsStaking (build : Build) (buf : Region 1024)
    (bytes : List UInt8) : Prop :=
  MayAccept
    (processStakingIn build.stringsSize buf (stakingStart bytes.length))

/-- Whether a stream starts with a list. -/
def startsWithList (stream : List UInt8) : Bool :=
  match readHeader stream with
  | .header isList _ _ => isList
  | _ => false

/-- What follows the header of the first item. -/
def insideFirst (stream : List UInt8) : List UInt8 :=
  match readHeader stream with
  | .header _ _ body => body
  | _ => []

/-- What follows the first item. -/
def afterFirst (stream : List UInt8) : List UInt8 :=
  match readHeader stream with
  | .header _ length body => body.drop length
  | _ => []

/-- The outer item is a list, and so is the item after the directive. -/
def HasStakingShape (bytes : List UInt8) : Prop :=
  startsWithList bytes = true ∧
    startsWithList (afterFirst (insideFirst bytes)) = true

instance (bytes : List UInt8) : Decidable (HasStakingShape bytes) :=
  inferInstanceAs (Decidable (_ ∧ _))

/-- A staking transaction with its nonce, gas price and gas limit. -/
def stakingTransaction (message : StakingMessage)
    (nonce gasPrice gasLimit : Int256) (more : List Item) :
    StakingTransaction where
  message := message
  trailing := nonce.item :: gasPrice.item :: gasLimit.item :: more

/-- The two formats are not confused on a byte string. -/
structure FormatsSeparate (build : Build) (buf : Region 1024)
    (bytes : List UInt8) : Prop where
  shape : AcceptsStaking build buf bytes -> HasStakingShape bytes
  transfer : ∀ message : TransferMessage, message.encode = bytes ->
    ¬AcceptsStaking build buf bytes
  staking : ∀ message nonce gasPrice gasLimit more,
    (stakingTransaction message nonce gasPrice gasLimit more).encode =
      bytes ->
    ¬AcceptsTransfer build buf bytes

/-! ## What the parsers accept -/

/-- The announced lengths lead through a staking operation: they come to its
last field, past the end of the command context, or nowhere. -/
def ReadsAsStaking (build : Build) (bytes : List UInt8) : Prop :=
  match joinedStakingVerdict build.stringsSize bytes with
  | .accepted content _ => content ≠ none
  | .overrun => True
  | .refused => False

section Accepts

variable {build : Build} {buf : Region 1024} {bytes : List UInt8}

theorem acceptsTransfer_iff (received : Received buf bytes) :
    AcceptsTransfer build buf bytes ↔
      (JoinedTransfer.message build.stringsSize .zero).MayTake bytes := by
  have agrees : (joinedTransferReader build.stringsSize buf).Agrees
      ((JoinedTransfer.message build.stringsSize .zero).verdict bytes) _ :=
    processTxIn_agrees received
  unfold AcceptsTransfer MayTake MayAccept
  cases verdict : (JoinedTransfer.message build.stringsSize .zero).verdict
      bytes <;> rw [verdict] at agrees
  case accepted =>
    obtain ⟨⟨code, left⟩, same, zero, -⟩ := agrees
    rw [same]
    exact iff_of_true (by rintro _ _ ⟨⟩; exact zero) (by simp)
  case refused =>
    obtain ⟨⟨code, left⟩, same, other⟩ := agrees
    rw [same]
    exact iff_of_false (fun accepts => other (accepts _ _ rfl)) (by simp)
  case overrun =>
    have leaves : _ = Except.error Fault.fieldOverrun := agrees
    rw [leaves]
    exact iff_of_true (by simp) (by simp)

theorem acceptsStaking_iff (received : Received buf bytes) :
    AcceptsStaking build buf bytes ↔ ReadsAsStaking build bytes := by
  have agrees : (joinedStakingReader build.stringsSize buf).Agrees
      (joinedStakingVerdict build.stringsSize bytes) _ :=
    processStakingIn_agrees received
  unfold AcceptsStaking ReadsAsStaking MayAccept
  cases verdict : joinedStakingVerdict build.stringsSize bytes with
  | accepted content complete =>
      rw [verdict] at agrees
      obtain ⟨⟨code, left⟩, same, concludes⟩ := agrees
      rw [same]
      cases content with
      | none =>
          exact iff_of_false (fun accepts => concludes (accepts _ _ rfl))
            (by simp)
      | some content =>
          obtain ⟨zero, -⟩ := concludes
          exact iff_of_true (by rintro _ _ ⟨⟩; exact zero) (by simp)
  | refused =>
      rw [verdict] at agrees
      obtain ⟨⟨code, left⟩, same, other⟩ := agrees
      rw [same]
      exact iff_of_false (fun accepts => other (accepts _ _ rfl)) id
  | overrun =>
      rw [verdict] at agrees
      have leaves : _ = Except.error Fault.fieldOverrun := agrees
      rw [leaves]
      exact iff_of_true (by simp) trivial

end Accepts

/-! ## Looking at encoded items -/

section Items

variable {item : Item} {rest : List UInt8}

theorem startsWithList_encode (small : item.payload.length < 2 ^ 32) :
    startsWithList (item.encode ++ rest) = item.isList := by
  simp only [startsWithList, readHeader_encode item rest small]

theorem insideFirst_encode (small : item.payload.length < 2 ^ 32) :
    insideFirst (item.encode ++ rest) = item.payload ++ rest := by
  simp only [insideFirst, readHeader_encode item rest small]

theorem afterFirst_encode (small : item.payload.length < 2 ^ 32) :
    afterFirst (item.encode ++ rest) = rest := by
  simp only [afterFirst, readHeader_encode item rest small]
  simp

end Items

/-- The item after the nonce of a transfer is a byte string. -/
theorem TransferMessage.not_hasStakingShape {buf : Region 1024}
    (message : TransferMessage)
    (received : Received buf message.encode) :
    ¬HasStakingShape message.encode := by
  have small := length_payload_lt received
  rintro ⟨_, shape⟩
  rw [encode, ← List.append_nil (Item.encode _),
    insideFirst_encode (by exact small), List.append_nil] at shape
  simp only [Item.payload, items, List.cons_append, Item.encodeAll_cons]
    at shape
  rw [afterFirst_encode (lt_of_le_of_lt message.nonce.length_bytes_le
      (by norm_num)),
    startsWithList_encode (lt_of_le_of_lt message.gasPrice.length_bytes_le
      (by norm_num))] at shape
  cases shape

/-! ## Staking transactions read as transfers -/

/-- A staking transaction that reads like a transfer.  The list of the message
is taken for the gas price, and two more items for recipient and amount; where
an item is too long for the command context, nothing is known. -/
def LooksLikeTransfer (build : Build) (message : StakingMessage)
    (more : List Item) : Prop :=
  528 + build.stringsSize < (Item.encodeAll message.items).length ∨
    2 ≤ more.length ∨
    ∃ last, more = [last] ∧ 252 + build.stringsSize < last.payload.length

/-- The payload of an item of a short list is short. -/
theorem length_payload_lt_of_mem {item : Item} {items : List Item}
    (member : item ∈ items) {bound : Nat}
    (small : (Item.encodeAll items).length < bound) :
    item.payload.length < bound :=
  lt_of_le_of_lt
    (item.length_payload_le.trans (length_encode_le_of_mem member)) small

/-- The end of a transfer takes two items. -/
private theorem mayTake_destination_iff (build : Build) (content : TxContent)
    (more : List Item) (small : (Item.encodeAll more).length < 2 ^ 32) :
    (JoinedTransfer.destination build.stringsSize content).MayTake
        (Item.encodeAll more) ↔
      2 ≤ more.length ∨
        ∃ last, more = [last] ∧
          252 + build.stringsSize < last.payload.length := by
  match more with
  | [] => simpa using not_mayTake_nil _
  | [first] =>
      rw [Item.encodeAll_cons, JoinedTransfer.destination,
        mayTake_field_encode _ _ _ (length_payload_lt_of_mem (by simp) small)]
      have nothing := not_mayTake_nil
        (JoinedTransfer.amount build.stringsSize
          (content.poke 276 first.payload))
      simp only [room, exceeds_some, decide_eq_true_eq, Item.encodeAll_nil,
        nothing, or_false]
      simp
      omega
  | first :: second :: rest =>
      rw [Item.encodeAll_cons, JoinedTransfer.destination,
        mayTake_field_encode _ _ _ (length_payload_lt_of_mem (by simp) small),
        Item.encodeAll_cons, JoinedTransfer.amount]
      exact iff_of_true (Or.inr (mayTake_final_encode _ _ _
        (length_payload_lt_of_mem (show second ∈ first :: second :: rest by
          simp) small))) (Or.inl (by simp))

/-- An integer fits between its place and the end of the context. -/
private theorem exceeds_room (behind : Nat) {address : Nat}
    (inside : address ≤ 268) (int : Int256) :
    exceeds (room behind address) int.bytes.length = false := by
  have fits := int.length_bytes_le
  rw [room, exceeds_some, decide_eq_false_iff_not]
  omega

/-- The transfer parser reads an encoded staking transaction item by item, the
list of its message included. -/
theorem acceptsTransfer_stakingTransaction_iff {build : Build}
    {buf : Region 1024} (message : StakingMessage)
    (nonce gasPrice gasLimit : Int256) (more : List Item)
    (received : Received buf
      (stakingTransaction message nonce gasPrice gasLimit more).encode) :
    AcceptsTransfer build buf
        (stakingTransaction message nonce gasPrice gasLimit more).encode ↔
      LooksLikeTransfer build message more := by
  have small := length_payload_lt received
  have within {item : Item} (member : item ∈
      (stakingTransaction message nonce gasPrice gasLimit more).items) :
      item.payload.length < 2 ^ 32 := length_payload_lt_of_mem member small
  have rest : (Item.encodeAll more).length < 2 ^ 32 := by
    simp only [StakingTransaction.items, stakingTransaction,
      Item.encodeAll_append, Item.encodeAll_cons, List.length_append] at small
    omega
  rw [acceptsTransfer_iff received, StakingTransaction.encode,
    JoinedTransfer.message, ← List.append_nil (Item.encode _),
    mayTake_enter_encode _ _ (by exact small), List.append_nil]
  simp only [Item.payload, StakingTransaction.items, stakingTransaction,
    List.cons_append, List.nil_append, Item.encodeAll_cons] at within ⊢
  rw [JoinedTransfer.nonce, mayTake_field_encode _ _ _ (within (by simp)),
    JoinedTransfer.gasprice, mayTake_field_encode _ _ _ (within (by simp)),
    JoinedTransfer.gaslimit, mayTake_field_encode _ _ _ (within (by simp)),
    JoinedTransfer.fromshard, mayTake_field_encode _ _ _ (within (by simp)),
    JoinedTransfer.toshard, mayTake_field_encode _ _ _ (within (by simp)),
    mayTake_destination_iff _ _ _ rest]
  simp only [Item.payload, Int256.item, exceeds_none,
    exceeds_room _ (show 33 ≤ 268 by decide),
    exceeds_room _ (show 264 ≤ 268 by decide), exceeds_room _ le_rfl,
    Bool.false_eq_true, false_or, LooksLikeTransfer]
  rw [room, exceeds_some, decide_eq_true_eq, Nat.sub_zero]

/-! ## The exact condition -/

/-- The two formats are kept apart exactly on the byte strings whose lengths do
not lead through a staking operation or that have the shape of a staking
transaction, and that encode no staking transaction that looks like a
transfer. -/
theorem formatsSeparate_iff {build : Build} {buf : Region 1024}
    {bytes : List UInt8} (received : Received buf bytes) :
    FormatsSeparate build buf bytes ↔
      (ReadsAsStaking build bytes -> HasStakingShape bytes) ∧
        ∀ message nonce gasPrice gasLimit more,
          (stakingTransaction message nonce gasPrice gasLimit more).encode =
            bytes ->
          ¬LooksLikeTransfer build message more := by
  constructor
  · intro separate
    refine ⟨fun reads =>
      separate.shape ((acceptsStaking_iff received).mpr reads), ?_⟩
    rintro message nonce gasPrice gasLimit more rfl looks
    exact separate.staking message nonce gasPrice gasLimit more rfl
      ((acceptsTransfer_stakingTransaction_iff _ _ _ _ _ received).mpr looks)
  · rintro ⟨shape, unlike⟩
    have shape (accepts : AcceptsStaking build buf bytes) :
        HasStakingShape bytes :=
      shape ((acceptsStaking_iff received).mp accepts)
    refine ⟨shape, ?_, ?_⟩
    · rintro message rfl accepts
      exact message.not_hasStakingShape received (shape accepts)
    · rintro message nonce gasPrice gasLimit more rfl accepts
      exact unlike message nonce gasPrice gasLimit more rfl
        ((acceptsTransfer_stakingTransaction_iff _ _ _ _ _ received).mp
          accepts)

/-- A transfer whose nonce is the directive of a claim of rewards. -/
def fifthTransfer : TransferMessage where
  nonce := ⟨4, by decide⟩
  gasPrice := ⟨0, Int256.zero_lt⟩
  gasLimit := ⟨21000, Int256.gasLimit_lt⟩
  shardID := ⟨0, ShardId.zero_lt⟩
  toShardID := ⟨1, ShardId.one_lt⟩
  recipient := some ⟨List.replicate 20 0x5a, length_delegator⟩
  amount := ⟨1000000000000000000, Int256.token_lt⟩
  trailing := []

/-- A delegation with a replay protection of chain 1. -/
def protectedDelegation : StakingTransaction :=
  stakingTransaction
    (.delegate ⟨List.replicate 20 0x5a, length_delegator⟩
      ⟨List.replicate 20 0x5b, length_validator⟩
      ⟨1000000000000000000, Int256.token_lt⟩)
    ⟨7, by decide⟩ ⟨1000000000, Int256.gasPrice_lt⟩ ⟨25000, by decide⟩
    [.number 1, .number 0, .number 0]

/-- A call that is seen to return 0. -/
private theorem mayAccept_of_code {outcome : Except Fault (Int × TxContext)}
    (sees : outcome.toOption.map Prod.fst = some 0) : MayAccept outcome := by
  rintro code left rfl
  exact Option.some.inj sees

/-- A transfer is accepted as a claim of rewards, and a delegation as a
transfer. -/
theorem not_formatsSeparate_fifthTransfer :
    ¬FormatsSeparate .nanoS (Region.ofList fifthTransfer.encode)
        fifthTransfer.encode ∧
      ¬FormatsSeparate .nanoX (Region.ofList protectedDelegation.encode)
        protectedDelegation.encode := by
  constructor
  · intro separate
    exact separate.transfer fifthTransfer rfl
      (mayAccept_of_code (by decide +kernel))
  · intro separate
    refine separate.staking _ _ _ _ _ rfl
      ((acceptsTransfer_stakingTransaction_iff _ _ _ _ _
        (received_ofList (by decide +kernel))).mpr ?_)
    exact Or.inr (Or.inl (by decide))

/-- A claim of rewards with nonce, gas price and gas limit zero and nothing
more. -/
def bareRewards : List UInt8 :=
  [0xda, 0x04, 0xd5, 0x94] ++ List.replicate 20 0x5a ++ [0x80, 0x80, 0x80]

/-- The two formats are kept apart on a claim of rewards that ends with its
gas limit. -/
theorem formatsSeparate_bareRewards :
    FormatsSeparate .nanoS (Region.ofList bareRewards) bareRewards := by
  have received : Received (Region.ofList bareRewards) bareRewards :=
    received_ofList (by decide)
  refine (formatsSeparate_iff received).mpr ⟨fun _ => by decide, ?_⟩
  intro message nonce gasPrice gasLimit more equal looks
  rw [← equal] at received
  have accepts := (acceptsTransfer_stakingTransaction_iff _ _ _ _ _
    received).mpr looks
  rw [acceptsTransfer_iff received, equal] at accepts
  simp [bareRewards, JoinedTransfer.message, JoinedTransfer.nonce,
    JoinedTransfer.gasprice, JoinedTransfer.gaslimit,
    JoinedTransfer.fromshard, JoinedTransfer.toshard,
    JoinedTransfer.destination, MayTake, verdict, readHeader, room,
    Build.stringsSize] at accepts

end LedgerOne
