import LedgerOne.Decoder.Field

/-!
# The destinations of the fields

Each field handler stores the bytes of its field in one component of the
content.  A slot is such a component with the laws of reading and writing it;
the lemmas below say for every kind of slot which byte strings its store
takes and what it leaves.
-/

namespace LedgerOne

open Layout

/-- A component of the content, which starts at an address. -/
structure Slot (β : Type) where
  address : Nat
  get : TxContent -> β
  set : β -> TxContent -> TxContent
  get_set : ∀ value content, get (set value content) = value
  set_set : ∀ value other content,
    set value (set other content) = set value content
  set_get : ∀ content, set (get content) content = content

namespace Slot

def gasprice : Slot TxInt256 where
  address := 0
  get := TxContent.gasprice
  set int content := { content with gasprice := int }
  get_set _ _ := rfl
  set_set _ _ _ := rfl
  set_get _ := rfl

def startgas : Slot TxInt256 where
  address := 33
  get := TxContent.startgas
  set int content := { content with startgas := int }
  get_set _ _ := rfl
  set_set _ _ _ := rfl
  set_get _ := rfl

def value : Slot TxInt256 where
  address := 66
  get := TxContent.value
  set int content := { content with value := int }
  get_set _ _ := rfl
  set_set _ _ _ := rfl
  set_get _ := rfl

def rate : Slot TxInt256 where
  address := 99
  get := TxContent.rate
  set int content := { content with rate := int }
  get_set _ _ := rfl
  set_set _ _ _ := rfl
  set_get _ := rfl

def maxRate : Slot TxInt256 where
  address := 132
  get := TxContent.maxRate
  set int content := { content with maxRate := int }
  get_set _ _ := rfl
  set_set _ _ _ := rfl
  set_get _ := rfl

def maxChangeRate : Slot TxInt256 where
  address := 165
  get := TxContent.maxChangeRate
  set int content := { content with maxChangeRate := int }
  get_set _ _ := rfl
  set_set _ _ _ := rfl
  set_get _ := rfl

def minSelfDelegation : Slot TxInt256 where
  address := 198
  get := TxContent.minSelfDelegation
  set int content := { content with minSelfDelegation := int }
  get_set _ _ := rfl
  set_set _ _ _ := rfl
  set_get _ := rfl

def maxTotalDelegation : Slot TxInt256 where
  address := 231
  get := TxContent.maxTotalDelegation
  set int content := { content with maxTotalDelegation := int }
  get_set _ _ := rfl
  set_set _ _ _ := rfl
  set_get _ := rfl

def fromShard : Slot Nat where
  address := 264
  get := TxContent.fromShard
  set shard content := { content with fromShard := shard }
  get_set _ _ := rfl
  set_set _ _ _ := rfl
  set_get _ := rfl

def toShard : Slot Nat where
  address := 268
  get := TxContent.toShard
  set shard content := { content with toShard := shard }
  get_set _ _ := rfl
  set_set _ _ _ := rfl
  set_get _ := rfl

def destination : Slot (Region 20) where
  address := 276
  get := TxContent.destination
  set bytes content := { content with destination := bytes }
  get_set _ _ := rfl
  set_set _ _ _ := rfl
  set_get _ := rfl

def validatorAddress : Slot (Region 20) where
  address := 296
  get := TxContent.validatorAddress
  set bytes content := { content with validatorAddress := bytes }
  get_set _ _ := rfl
  set_set _ _ _ := rfl
  set_get _ := rfl

def blsPubKey : Slot (Region 48) where
  address := 316
  get := TxContent.blsPubKey
  set bytes content := { content with blsPubKey := bytes }
  get_set _ _ := rfl
  set_set _ _ _ := rfl
  set_get _ := rfl

def name : Slot (Region 30) where
  address := 498
  get := TxContent.name
  set bytes content := { content with name := bytes }
  get_set _ _ := rfl
  set_set _ _ _ := rfl
  set_get _ := rfl

/-- Write bytes at the start of a byte array. -/
def putBytes (slot : Slot (Region size)) (bytes : List UInt8)
    (content : TxContent) : TxContent :=
  slot.set ((slot.get content).splice 0 bytes) content

/-- Write bytes at the start of an integer, whose length stays. -/
def putValue (slot : Slot TxInt256) (bytes : List UInt8)
    (content : TxContent) : TxContent :=
  slot.set { slot.get content with
    value := (slot.get content).value.splice 0 bytes } content

/-- Set the length of an integer. -/
def setLength (slot : Slot TxInt256) (length : Nat) (content : TxContent) :
    TxContent :=
  slot.set { slot.get content with length := UInt8.ofNat length } content

/-- Write an integer with its length. -/
def putInt (slot : Slot TxInt256) (bytes : List UInt8)
    (content : TxContent) : TxContent :=
  slot.set ⟨(slot.get content).value.splice 0 bytes,
    UInt8.ofNat bytes.length⟩ content

/-- Write an integer of which perhaps not all announced bytes are there; only
a complete one gets its length. -/
def putFinalInt (slot : Slot TxInt256) (length : Nat) (bytes : List UInt8)
    (content : TxContent) : TxContent :=
  if bytes.length < length then slot.putValue bytes content
  else slot.putInt bytes content

/-- Write a big-endian shard number; the empty one leaves the slot. -/
def putShard (slot : Slot Nat) (length : Nat) (bytes : List UInt8)
    (content : TxContent) : TxContent :=
  if length = 0 then content else slot.set (beNat bytes) content

end Slot

/-- Write the bytes of the directive, least significant first. -/
def putDirective (length : Nat) (bytes : List UInt8)
    (content : TxContent) : TxContent :=
  if length = 0 then content
  else { content with
    directive :=
      uint32OfBytes ((uint32Bytes content.directive).splice 0 bytes) }

/-! ## What the stores take -/

section Stores

variable {length : Nat} {bytes : List UInt8} {content : TxContent}

theorem stores_some_iff {store : Store} {after : TxContent} :
    Stores (some store) length bytes content after ↔
      if length = 0 then after = content
      else store bytes content = some after := Iff.rfl

theorem stores_skip (content : TxContent) :
    Stores none length bytes content content := rfl

theorem not_overruns_skip (tooLong : exceeds none bytes.length = true) :
    Overruns out bytes content := by
  simp at tooLong

theorem stores_bytes (slot : Slot (Region size))
    (empty : length = 0 -> bytes = [])
    (fits : exceeds (some size) bytes.length = false) :
    Stores (some (storeBytes slot.address slot.get slot.set 0)) length bytes content
      (slot.putBytes bytes content) := by
  simp only [exceeds_some, decide_eq_false_iff_not] at fits
  rw [stores_some_iff]
  split
  · rename_i announced
    rw [empty announced, Slot.putBytes, Region.splice_nil, slot.set_get]
  · show ((slot.get content).write? 0 bytes).map _ = _
    rw [Region.write?_eq_some _ _ _ (by omega)]
    rfl

theorem overruns_bytes (slot : Slot (Region size))
    (tooLong : exceeds (some size) bytes.length = true) :
    Overruns (some (storeBytes slot.address slot.get slot.set 0)) bytes content := by
  simp only [exceeds_some, decide_eq_true_eq] at tooLong
  refine ⟨_, rfl, ?_⟩
  show ((slot.get content).write? 0 bytes).map _ = _
  rw [Region.write?_eq_none _ _ _ (by omega)]
  rfl

theorem stores_int256 (slot : Slot TxInt256)
    (empty : length = 0 -> bytes = [])
    (fits : exceeds (some 32) bytes.length = false) :
    Stores (some (storeInt256 slot.address slot.get slot.set 0)) length bytes content
      (slot.putValue bytes content) := by
  simp only [exceeds_some, decide_eq_false_iff_not] at fits
  rw [stores_some_iff]
  split
  · rename_i announced
    rw [empty announced, Slot.putValue, Region.splice_nil]
    exact slot.set_get content
  · show ((slot.get content).value.write? 0 bytes).map _ = _
    rw [Region.write?_eq_some _ _ _ (by omega)]
    rfl

theorem overruns_int256 (slot : Slot TxInt256)
    (tooLong : exceeds (some 32) bytes.length = true) :
    Overruns (some (storeInt256 slot.address slot.get slot.set 0)) bytes content := by
  simp only [exceeds_some, decide_eq_true_eq] at tooLong
  refine ⟨_, rfl, ?_⟩
  show ((slot.get content).value.write? 0 bytes).map _ = _
  rw [Region.write?_eq_none _ _ _ (by omega)]
  rfl

/-- The loop of `processShard` reads bytes big-endian, in 32 bits. -/
theorem shardFromBytes_eq (bytes : List UInt8) :
    shardFromBytes bytes = beNat bytes % 2 ^ 32 := by
  induction bytes using List.reverseRecOn with
  | nil => rfl
  | append_singleton bytes byte inductionHypothesis =>
      have last := byte.toNat_lt
      unfold shardFromBytes at inductionHypothesis ⊢
      rw [List.foldl_append, inductionHypothesis, List.foldl_cons,
        List.foldl_nil, beNat_concat]
      have shifted : beNat bytes % 2 ^ 32 * 2 ^ 8 % 2 ^ 32 =
          2 ^ 8 * (beNat bytes % 2 ^ 24) := by omega
      rw [shifted, ← Nat.two_pow_add_eq_or_of_lt last]
      omega

/-- A shard of up to four bytes is read as it is. -/
theorem shardFromBytes_of_short {bytes : List UInt8}
    (fits : bytes.length ≤ 4) : shardFromBytes bytes = beNat bytes := by
  have small : beNat bytes < 2 ^ 32 :=
    calc beNat bytes
        < 256 ^ bytes.length := beNat_lt _
      _ ≤ 256 ^ 4 := Nat.pow_le_pow_right (by omega) fits
      _ = 2 ^ 32 := by norm_num
  rw [shardFromBytes_eq, Nat.mod_eq_of_lt small]

theorem stores_shard (slot : Slot Nat)
    (fits : exceeds (some 4) bytes.length = false) :
    Stores (some (storeShard slot.address slot.get slot.set 0)) length bytes content
      (slot.putShard length bytes content) := by
  simp only [exceeds_some, decide_eq_false_iff_not] at fits
  rw [stores_some_iff, Slot.putShard]
  split
  · rfl
  · show ((uint32Bytes (slot.get content)).write? (4 * 0) bytes).map _ = _
    rw [Region.write?_eq_some _ _ _ (by omega), Option.map_some, Nat.mul_zero,
      Region.read_splice_self _ _ _ (by omega),
      shardFromBytes_of_short (by omega)]

theorem overruns_shard (slot : Slot Nat)
    (tooLong : exceeds (some 4) bytes.length = true) :
    Overruns (some (storeShard slot.address slot.get slot.set 0)) bytes content := by
  simp only [exceeds_some, decide_eq_true_eq] at tooLong
  refine ⟨_, rfl, ?_⟩
  show ((uint32Bytes (slot.get content)).write? (4 * 0) bytes).map _ = _
  rw [Region.write?_eq_none _ _ _ (by omega)]
  rfl

theorem stores_directive
    (fits : exceeds (some 4) bytes.length = false) :
    Stores (some (storeDirective 0)) length bytes content
      (putDirective length bytes content) := by
  simp only [exceeds_some, decide_eq_false_iff_not] at fits
  rw [stores_some_iff, putDirective]
  split
  · rfl
  · show ((uint32Bytes content.directive).write? 0 bytes).map _ = _
    rw [Region.write?_eq_some _ _ _ (by omega)]
    rfl

theorem overruns_directive
    (tooLong : exceeds (some 4) bytes.length = true) :
    Overruns (some (storeDirective 0)) bytes content := by
  simp only [exceeds_some, decide_eq_true_eq] at tooLong
  refine ⟨_, rfl, ?_⟩
  show ((uint32Bytes content.directive).write? 0 bytes).map _ = _
  rw [Region.write?_eq_none _ _ _ (by omega)]
  rfl

end Stores

/-! ## The handlers as fields -/

section Handlers

variable {buf : Region 1024} {before ready : TxContext} {length : Nat}
  {body : List UInt8}

/-- The second half of `processGas` and `processValue`. -/
def recordInt256 (slot : Slot TxInt256) (context : TxContext) : TxContext :=
  advanceBoth { context with
    content := slot.setLength context.currentFieldLength context.content }

theorem processInt256_eq [Memory] (slot : Slot TxInt256)
    (atField : Ready buf before ready length body) :
    processInt256 buf slot.address slot.get slot.set ready =
      takeField buf (some (storeInt256 slot.address slot.get slot.set 0))
        (recordInt256 slot) ready := by
  simp only [processInt256, atField.currentFieldPos]
  rfl

theorem processBytes_eq [Memory] (slot : Slot (Region size))
    (atField : Ready buf before ready length body) :
    processBytes buf slot.address slot.get slot.set ready =
      takeField buf (some (storeBytes slot.address slot.get slot.set 0)) advanceBoth
        ready := by
  simp only [processBytes, atField.currentFieldPos]
  rfl

/-- Advance the transfer enumeration. -/
def advanceTx (context : TxContext) : TxContext :=
  { context with txCurrentField := context.txCurrentField.next }

/-- Advance the staking enumeration. -/
def advanceStaking (context : TxContext) : TxContext :=
  { context with stakeCurrentField := context.stakeCurrentField.next }

theorem processShard_eq [Memory] (slot : Slot Nat)
    (atField : Ready buf before ready length body) :
    processShard buf slot.address slot.get slot.set ready =
      takeField buf (some (storeShard slot.address slot.get slot.set 0)) advanceTx
        ready := by
  simp only [processShard, atField.currentFieldPos]
  rfl

theorem processDirective_eq [Memory]
    (atField : Ready buf before ready length body) :
    processDirective buf ready =
      takeField buf (some (storeDirective 0)) advanceStaking ready := by
  simp only [processDirective, atField.currentFieldPos]
  rfl

end Handlers

/-- What holds of a context after a complete field. -/
structure Handled (buf : Region 1024) (handled : TxContext)
    (tx : RlpTxField) (staking : RlpStakingField) (keyIndex : Nat)
    (content : TxContent) (rest : List UInt8) : Prop where
  clean : Clean buf handled rest
  txCurrentField : handled.txCurrentField = tx
  stakeCurrentField : handled.stakeCurrentField = staking
  currentBlsKeyIndex : handled.currentBlsKeyIndex = keyIndex
  content : handled.content = content

namespace Copied

variable {buf : Region 1024} {before copied : TxContext} {after : TxContent}
  {length : Nat} {rest : List UInt8}

theorem recorded (facts : Copied buf before copied after length rest)
    (record : TxContext -> TxContext)
    (kept : (record copied).workBuffer = copied.workBuffer ∧
      (record copied).commandLength = copied.commandLength ∧
      (record copied).rlpBufferPos = copied.rlpBufferPos) :
    Clean buf { record copied with processingField := false } rest where
  holds := facts.holds.of_eq kept.1 kept.2.1
  idle := rfl
  rlpBufferPos := kept.2.2.trans facts.rlpBufferPos

theorem advanceBoth (facts : Copied buf before copied after length rest) :
    Handled buf { advanceBoth copied with processingField := false }
      before.txCurrentField.next before.stakeCurrentField.next
      before.currentBlsKeyIndex after rest where
  clean := facts.recorded _ ⟨rfl, rfl, rfl⟩
  txCurrentField := congrArg RlpTxField.next facts.txCurrentField
  stakeCurrentField := congrArg RlpStakingField.next facts.stakeCurrentField
  currentBlsKeyIndex := facts.currentBlsKeyIndex
  content := facts.content

theorem advanceTx (facts : Copied buf before copied after length rest) :
    Handled buf { advanceTx copied with processingField := false }
      before.txCurrentField.next before.stakeCurrentField
      before.currentBlsKeyIndex after rest where
  clean := facts.recorded _ ⟨rfl, rfl, rfl⟩
  txCurrentField := congrArg RlpTxField.next facts.txCurrentField
  stakeCurrentField := facts.stakeCurrentField
  currentBlsKeyIndex := facts.currentBlsKeyIndex
  content := facts.content

theorem advanceStaking (facts : Copied buf before copied after length rest) :
    Handled buf { advanceStaking copied with processingField := false }
      before.txCurrentField before.stakeCurrentField.next
      before.currentBlsKeyIndex after rest where
  clean := facts.recorded _ ⟨rfl, rfl, rfl⟩
  txCurrentField := facts.txCurrentField
  stakeCurrentField := congrArg RlpStakingField.next facts.stakeCurrentField
  currentBlsKeyIndex := facts.currentBlsKeyIndex
  content := facts.content

theorem recordLength {slot : Slot TxInt256}
    (facts : Copied buf before copied after length rest) :
    Handled buf { recordInt256 slot copied with processingField := false }
      before.txCurrentField.next before.stakeCurrentField.next
      before.currentBlsKeyIndex (slot.setLength length after) rest where
  clean := facts.recorded _ ⟨rfl, rfl, rfl⟩
  txCurrentField := congrArg RlpTxField.next facts.txCurrentField
  stakeCurrentField := congrArg RlpStakingField.next facts.stakeCurrentField
  currentBlsKeyIndex := facts.currentBlsKeyIndex
  content := by
    show slot.setLength copied.currentFieldLength copied.content = _
    rw [facts.content, facts.currentFieldLength]

theorem recordInt256 {slot : Slot TxInt256} {bytes : List UInt8}
    {content : TxContent}
    (facts : Copied buf before copied (slot.putValue bytes content) length
      rest)
    (full : bytes.length = length) :
    Handled buf { recordInt256 slot copied with processingField := false }
      before.txCurrentField.next before.stakeCurrentField.next
      before.currentBlsKeyIndex (slot.putInt bytes content) rest := by
  have recorded : slot.setLength length (slot.putValue bytes content) =
      slot.putInt bytes content := by
    rw [Slot.setLength, Slot.putValue, slot.get_set, slot.set_set, ← full]
    rfl
  rw [← recorded]
  exact facts.recordLength

end Copied

end LedgerOne
