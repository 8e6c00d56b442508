import LedgerOne.Decoder.Transfer

/-!
# Transfers and their encoding

A transfer as the host encodes it, and the round trip: `processTx` on the
canonical encoding of a transfer leaves the transfer in the content.
-/

namespace LedgerOne

open Rlp Layout

/-- A number of at most 256 bits. -/
abbrev Int256 := { value : Nat // value < 2 ^ 256 }

/-- A shard number. -/
abbrev ShardId := { value : Nat // value < 2 ^ 32 }

/-- A byte string of a fixed length. -/
abbrev ByteString (size : Nat) := { bytes : List UInt8 // bytes.length = size }

/-- An address of `MAX_ECC_ADDRESS` bytes. -/
abbrev Address := ByteString 20

namespace Int256

/-- The minimal big-endian bytes of a number. -/
def bytes (int : Int256) : List UInt8 := natBytes int.val

theorem length_bytes_le (int : Int256) : int.bytes.length ≤ 32 :=
  length_natBytes_le (lt_of_lt_of_le int.property (by norm_num))

/-- The field of an RLP message. -/
def item (int : Int256) : Item := .string int.bytes

/-- The number as the parser stores it. -/
def stored (int : Int256) : TxInt256 :=
  ⟨Region.ofList int.bytes, UInt8.ofNat int.bytes.length⟩

end Int256

theorem ShardId.length_natBytes_le (shard : ShardId) :
    (natBytes shard.val).length ≤ 4 :=
  LedgerOne.length_natBytes_le (lt_of_lt_of_le shard.property (by norm_num))

/-- A transfer `[nonce, gasPrice, gasLimit, shardID, toShardID, to, amount,
...]`; a transfer that creates a contract has no recipient. -/
structure TransferMessage where
  nonce : Int256
  gasPrice : Int256
  gasLimit : Int256
  shardID : ShardId
  toShardID : ShardId
  recipient : Option Address
  amount : Int256
  trailing : List Item

namespace TransferMessage

variable (message : TransferMessage)

/-- The bytes of the recipient; without one there are none. -/
def recipientBytes : List UInt8 :=
  match message.recipient with
  | some address => address.val
  | none => []

theorem length_recipientBytes_le : message.recipientBytes.length ≤ 20 := by
  unfold recipientBytes
  split
  · rename_i address _
    exact Nat.le_of_eq address.property
  · simp

/-- The fields of the message. -/
def items : List Item :=
  [message.nonce.item, message.gasPrice.item, message.gasLimit.item,
    .number message.shardID.val, .number message.toShardID.val,
    .string message.recipientBytes, message.amount.item] ++ message.trailing

/-- The canonical RLP encoding. -/
def encode : List UInt8 := (Item.list message.items).encode

/-- The content that the message stands for. -/
def content : TxContent :=
  { gasprice := message.gasPrice.stored
    startgas := message.gasLimit.stored
    value := message.amount.stored
    fromShard := message.shardID.val
    toShard := message.toShardID.val
    destination := Region.ofList message.recipientBytes }

end TransferMessage

/-! ## Storing encoded values -/

theorem Slot.putInt_bytes (slot : Slot TxInt256) (int : Int256)
    {content : TxContent} (unset : (slot.get content).value = .zero) :
    slot.putInt int.bytes content = slot.set int.stored content := by
  rw [Slot.putInt, unset]
  rfl

theorem Slot.putFinalInt_bytes (slot : Slot TxInt256) (int : Int256)
    {content : TxContent} (unset : (slot.get content).value = .zero) :
    slot.putFinalInt int.bytes.length int.bytes content =
      slot.set int.stored content := by
  rw [Slot.putFinalInt, if_neg (Nat.lt_irrefl _), slot.putInt_bytes int unset]

theorem Slot.putShard_natBytes (slot : Slot Nat) (shard : Nat)
    {content : TxContent} (unset : slot.get content = 0) :
    slot.putShard (natBytes shard).length (natBytes shard) content =
      slot.set shard content := by
  unfold Slot.putShard
  split
  · rename_i empty
    have zero : shard = 0 := by
      rw [← beNat_natBytes shard, List.length_eq_zero_iff.mp empty, beNat_nil]
    rw [zero, ← unset, slot.set_get]
  · rw [beNat_natBytes]

theorem Slot.putBytes_unset (slot : Slot (Region size)) (bytes : List UInt8)
    {content : TxContent} (unset : slot.get content = .zero) :
    slot.putBytes bytes content = slot.set (.ofList bytes) content := by
  rw [Slot.putBytes, unset]
  rfl

/-! ## The round trip -/

theorem exceeds_of_le {capacity count : Nat} (fits : count ≤ capacity) :
    exceeds (some capacity) count = false := by
  simpa using fits

/-- The payload of an encoded list that is received is short. -/
theorem length_payload_lt {buf : Region 1024} {items : List Item}
    (received : Received buf (Item.list items).encode) :
    (Item.encodeAll items).length < 2 ^ 32 := by
  have fits := received.fits
  rw [Item.encode_list] at fits
  have := length_le_encodeList (Item.encodeAll items)
  omega

theorem verdict_field_item {τ α : Type} (tag : τ) (capacity : Nat)
    (next : List UInt8 -> Layout τ α) (bytes rest : List UInt8)
    (small : capacity < 2 ^ 32) (fits : bytes.length ≤ capacity) :
    (field tag (some capacity) next).verdict
        ((Item.string bytes).encode ++ rest) =
      (next bytes).verdict rest := by
  rw [Item.encode_string]
  exact verdict_field_encodeString tag _ next bytes rest (by omega)
    (exceeds_of_le fits)

theorem verdict_skip_item {τ α : Type} (tag : τ)
    (next : List UInt8 -> Layout τ α) (bytes rest : List UInt8)
    (small : bytes.length < 2 ^ 32) :
    (field tag none next).verdict ((Item.string bytes).encode ++ rest) =
      (next bytes).verdict rest := by
  rw [Item.encode_string]
  exact verdict_field_encodeString tag none next bytes rest small rfl

theorem verdict_final_item {τ α : Type} (tag : τ) (capacity : Nat)
    (value : Nat -> List UInt8 -> α) (bytes rest : List UInt8)
    (small : capacity < 2 ^ 32) (fits : bytes.length ≤ capacity) :
    (final tag (some capacity) value).verdict
        ((Item.string bytes).encode ++ rest) =
      .accepted (value bytes.length bytes) true := by
  rw [Item.encode_string]
  exact verdict_final_encodeString tag _ value bytes rest (by omega)
    (exceeds_of_le fits)

theorem verdict_enter_item {τ α : Type} (tag : τ)
    (next : Nat -> Layout τ α) (items : List Item) (rest : List UInt8)
    (small : (Item.encodeAll items).length < 2 ^ 32) :
    (enter tag next).verdict ((Item.list items).encode ++ rest) =
      (next (Item.encodeAll items).length).verdict
        (Item.encodeAll items ++ rest) := by
  rw [Item.encode_list]
  exact verdict_enter_encodeList tag next _ rest small

/-- The transfer layout reads an encoded transfer field by field. -/
theorem transferVerdict_encode (message : TransferMessage)
    (small : (Item.encodeAll message.items).length < 2 ^ 32) :
    transferVerdict message.encode = .accepted message.content true := by
  rw [transferVerdict, Transfer.message, TransferMessage.encode,
    ← List.append_nil (Item.list message.items).encode,
    verdict_enter_item _ _ _ _ small, List.append_nil, TransferMessage.items]
  simp only [List.cons_append, List.nil_append, Item.encodeAll_cons,
    Item.number, Int256.item]
  rw [Transfer.nonce, verdict_skip_item _ _ _ _
      (lt_of_le_of_lt message.nonce.length_bytes_le (by norm_num)),
    Transfer.gasprice, verdict_field_item _ _ _ _ _ (by norm_num)
      message.gasPrice.length_bytes_le,
    Transfer.gaslimit, verdict_field_item _ _ _ _ _ (by norm_num)
      message.gasLimit.length_bytes_le,
    Transfer.fromshard, verdict_field_item _ _ _ _ _ (by norm_num)
      message.shardID.length_natBytes_le,
    Transfer.toshard, verdict_field_item _ _ _ _ _ (by norm_num)
      message.toShardID.length_natBytes_le,
    Transfer.destination, verdict_field_item _ _ _ _ _ (by norm_num)
      message.length_recipientBytes_le,
    Transfer.amount, verdict_final_item _ _ _ _ _ (by norm_num)
      message.amount.length_bytes_le,
    Slot.gasprice.putInt_bytes _ rfl, Slot.startgas.putInt_bytes _ rfl,
    Slot.fromShard.putShard_natBytes _ rfl,
    Slot.toShard.putShard_natBytes _ rfl,
    Slot.destination.putBytes_unset _ rfl,
    Slot.value.putFinalInt_bytes _ rfl]
  rfl

/-- `processTx` decodes what the host encodes: on the canonical encoding of a
transfer it returns 0 and leaves the transfer in the content. -/
theorem processTx_encode (message : TransferMessage) (buf : Region 1024)
    (received : Received buf message.encode) :
    ∃ left,
      processTx buf (transferStart message.encode.length) = .ok (0, left) ∧
      left.content = message.content :=
  (processTx_accepts_iff received _).mpr
    ⟨true, transferVerdict_encode message (length_payload_lt received)⟩

/-! Bounds for the examples. -/

theorem Int256.zero_lt : 0 < 2 ^ 256 := by decide

theorem Int256.gasPrice_lt : 1000000000 < 2 ^ 256 := by decide

theorem Int256.gasLimit_lt : 21000 < 2 ^ 256 := by decide

theorem Int256.token_lt : 1000000000000000000 < 2 ^ 256 := by decide

theorem ShardId.zero_lt : 0 < 2 ^ 32 := by decide

theorem ShardId.one_lt : 1 < 2 ^ 32 := by decide

theorem length_delegator : (List.replicate 20 (0x5a : UInt8)).length = 20 :=
  rfl

/-- A transfer of one token from shard 0 to shard 1. -/
def oneToken : TransferMessage where
  nonce := ⟨0, Int256.zero_lt⟩
  gasPrice := ⟨1000000000, Int256.gasPrice_lt⟩
  gasLimit := ⟨21000, Int256.gasLimit_lt⟩
  shardID := ⟨0, ShardId.zero_lt⟩
  toShardID := ⟨1, ShardId.one_lt⟩
  recipient := some ⟨List.replicate 20 0x5a, length_delegator⟩
  amount := ⟨1000000000000000000, Int256.token_lt⟩
  trailing := [.string []]

theorem length_oneToken_le : oneToken.encode.length ≤ 255 := by
  decide +kernel

theorem processTx_oneToken :
    oneToken.encode.length ≤ 1024 ∧
      ∃ left,
        processTx (Region.ofList oneToken.encode)
          (transferStart oneToken.encode.length) = .ok (0, left) ∧
        left.content = oneToken.content :=
  have fits : oneToken.encode.length ≤ 1024 :=
    length_oneToken_le.trans (by decide)
  ⟨fits, processTx_encode oneToken _ (received_ofList fits)⟩

end LedgerOne
