import LedgerOne.Decoder.Keys
import LedgerOne.Messages.Transfer

/-!
# Staking operations and their encoding

The five staking operations as the host encodes them, and the round trip:
`processStaking` on the canonical encoding of an operation leaves the
operation in the content.
-/

namespace LedgerOne

open Rlp Layout

/-- The description of a validator; only the name is kept. -/
structure Description where
  name : { bytes : List UInt8 // bytes.length ≤ 30 }
  identity : List UInt8
  website : List UInt8
  securityContact : List UInt8
  details : List UInt8

/-- The commission rates of a new validator. -/
structure CommissionRates where
  rate : Int256
  maxRate : Int256
  maxChangeRate : Int256

/-- A new validator, with one signature for each BLS key. -/
structure CreateValidator where
  validator : Address
  description : Description
  commission : CommissionRates
  minSelfDelegation : Int256
  maxTotalDelegation : Int256
  slotPubKeys : List (ByteString 48)
  slotKeySigs : List (ByteString 96)
  amount : Int256
  slotPubKeys_ne_nil : slotPubKeys ≠ []
  length_slotKeySigs : slotKeySigs.length = slotPubKeys.length

/-- A change of a validator; what is absent is not changed.  The status is the
EPoS status, a `uint32_t` for the parser. -/
structure EditValidator where
  validator : Address
  description : Description
  commissionRate : Option Int256
  minSelfDelegation : Int256
  maxTotalDelegation : Int256
  slotKeyToRemove : Option (ByteString 48)
  slotKeyToAdd : Option (ByteString 48)
  slotKeyToAddSig : Option (ByteString 96)
  status : { value : Nat // value < 2 ^ 32 }

/-- A staking operation. -/
inductive StakingMessage
  | createValidator (message : CreateValidator)
  | editValidator (message : EditValidator)
  | delegate (delegator validator : Address) (amount : Int256)
  | undelegate (delegator validator : Address) (amount : Int256)
  | collectRewards (delegator : Address)

/-! ## Encoding -/

/-- The bytes of an optional byte string. -/
def optionalBytes : Option (ByteString size) -> List UInt8
  | some bytes => bytes.val
  | none => []

theorem length_optionalBytes_le (bytes : Option (ByteString size)) :
    (optionalBytes bytes).length ≤ size := by
  cases bytes with
  | none => simp [optionalBytes]
  | some bytes => exact Nat.le_of_eq bytes.property

def Description.items (description : Description) : List Item :=
  [.string description.name.val, .string description.identity,
    .string description.website, .string description.securityContact,
    .string description.details]

/-- Each rate is a list of its own. -/
def CommissionRates.items (commission : CommissionRates) : List Item :=
  [.list [commission.rate.item], .list [commission.maxRate.item],
    .list [commission.maxChangeRate.item]]

/-- The items of byte strings of one length. -/
def stringItems (strings : List (ByteString size)) : List Item :=
  strings.map fun bytes => .string bytes.val

def CreateValidator.items (message : CreateValidator) : List Item :=
  [.string message.validator.val,
    .list message.description.items,
    .list message.commission.items,
    message.minSelfDelegation.item,
    message.maxTotalDelegation.item,
    .list (stringItems message.slotPubKeys),
    .list (stringItems message.slotKeySigs),
    message.amount.item]

def EditValidator.items (message : EditValidator) : List Item :=
  [.string message.validator.val,
    .list message.description.items,
    .list (message.commissionRate.map Int256.item).toList,
    message.minSelfDelegation.item,
    message.maxTotalDelegation.item,
    .string (optionalBytes message.slotKeyToRemove),
    .string (optionalBytes message.slotKeyToAdd),
    .string (optionalBytes message.slotKeyToAddSig),
    .number message.status.val]

/-- The number of an operation's directive. -/
def StakingMessage.directive : StakingMessage -> Nat
  | .createValidator _ => DirectiveCreateValidator
  | .editValidator _ => DirectiveEditValidator
  | .delegate _ _ _ => DirectiveDelegate
  | .undelegate _ _ _ => DirectiveUndelegate
  | .collectRewards _ => DirectiveCollectRewards

def StakingMessage.items : StakingMessage -> List Item
  | .createValidator message => message.items
  | .editValidator message => message.items
  | .delegate delegator validator amount
  | .undelegate delegator validator amount =>
      [.string delegator.val, .string validator.val, amount.item]
  | .collectRewards delegator => [.string delegator.val]

/-- A staking transaction `[directive, [message...], nonce, gasPrice, gasLimit,
...]`; nothing after the message is read. -/
structure StakingTransaction where
  message : StakingMessage
  trailing : List Item

namespace StakingTransaction

def items (transaction : StakingTransaction) : List Item :=
  [.number transaction.message.directive, .list transaction.message.items] ++
    transaction.trailing

/-- The canonical RLP encoding. -/
def encode (transaction : StakingTransaction) : List UInt8 :=
  (Item.list transaction.items).encode

end StakingTransaction

/-! ## The content of an operation -/

/-- The stored name. -/
def Description.storedName (description : Description) : Region 30 :=
  Region.ofList description.name.val

def CreateValidator.content (message : CreateValidator) : TxContent :=
  { directive := DirectiveCreateValidator
    validatorAddress := Region.ofList message.validator.val
    name := message.description.storedName
    rate := message.commission.rate.stored
    maxRate := message.commission.maxRate.stored
    maxChangeRate := message.commission.maxChangeRate.stored
    minSelfDelegation := message.minSelfDelegation.stored
    maxTotalDelegation := message.maxTotalDelegation.stored
    blsPubKeySize := message.slotPubKeys.length
    value := message.amount.stored }

def EditValidator.content (message : EditValidator) : TxContent :=
  { directive := DirectiveEditValidator
    validatorAddress := Region.ofList message.validator.val
    name := message.description.storedName
    rate := (message.commissionRate.map Int256.stored).getD {}
    minSelfDelegation := message.minSelfDelegation.stored
    maxTotalDelegation := message.maxTotalDelegation.stored
    fromShard := message.status.val
    destination := Region.ofList (statusText message.status.val) }

/-- The content that an operation stands for, apart from the BLS keys that
are kept for the screen. -/
def StakingMessage.content : StakingMessage -> TxContent
  | .createValidator message => message.content
  | .editValidator message => message.content
  | .delegate delegator validator amount =>
      { directive := DirectiveDelegate
        destination := Region.ofList delegator.val
        validatorAddress := Region.ofList validator.val
        value := amount.stored }
  | .undelegate delegator validator amount =>
      { directive := DirectiveUndelegate
        destination := Region.ofList delegator.val
        validatorAddress := Region.ofList validator.val
        value := amount.stored }
  | .collectRewards delegator =>
      { directive := DirectiveCollectRewards
        destination := Region.ofList delegator.val }

/-- A content without the BLS keys that are kept for the screen. -/
def TxContent.withoutKeys (content : TxContent) : TxContent :=
  { content with blsPubKey := .zero, blsKeyStr := .zero }

/-! ## What the parser leaves -/

/-- A new validator's keys, as `slots` reads them. -/
def CreateValidator.keys (message : CreateValidator) : List (List UInt8) :=
  message.slotPubKeys.map Subtype.val

/-- The content in which the keys of a new validator are put. -/
def CreateValidator.opening (message : CreateValidator) : TxContent :=
  { message.content with blsPubKeySize := 0, value := {} }

/-- The content that a new validator leaves. -/
def CreateValidator.read (message : CreateValidator) : TxContent :=
  Slot.value.putFinalInt message.amount.bytes.length message.amount.bytes
    (Staking.setKeyCount message.slotKeySigs.length
      (showKeys message.keys 0
        (Staking.setKeyCount message.slotPubKeys.length message.opening)))

/-- The keys that a change names, as the parser reads them. -/
def EditValidator.changes (message : EditValidator) : Changes where
  removed := optionalBytes message.slotKeyToRemove
  added := optionalBytes message.slotKeyToAdd
  signature := optionalBytes message.slotKeyToAddSig
  statusLength := (natBytes message.status.val).length
  statusBytes := natBytes message.status.val

/-- The content in which a change of a validator is put. -/
def EditValidator.opening (message : EditValidator) : TxContent :=
  { message.content with fromShard := 0, destination := .zero }

/-- The content that a change leaves. -/
def EditValidator.read (message : EditValidator) : TxContent :=
  message.changes.content message.opening

/-- The content that the parser leaves of an operation. -/
def StakingMessage.read : StakingMessage -> TxContent
  | .createValidator message => message.read
  | .editValidator message => message.read
  | message => message.content

/-! ## Sizes -/

theorem length_encode_le_of_mem {item : Item} {items : List Item}
    (member : item ∈ items) :
    item.encode.length ≤ (Item.encodeAll items).length := by
  induction items with
  | nil => simp at member
  | cons first items inductionHypothesis =>
      rw [Item.encodeAll_cons, List.length_append]
      obtain rfl | later := List.mem_cons.mp member
      · omega
      · have := inductionHypothesis later
        omega

/-- A list inside a short list is short. -/
theorem length_encodeAll_lt_of_mem {nested items : List Item}
    (member : Item.list nested ∈ items) {bound : Nat}
    (small : (Item.encodeAll items).length < bound) :
    (Item.encodeAll nested).length < bound := by
  have within := length_encode_le_of_mem member
  rw [Item.encode_list] at within
  have := length_le_encodeList (Item.encodeAll nested)
  omega

/-- A string inside a short list is short. -/
theorem length_string_lt_of_mem {bytes : List UInt8} {items : List Item}
    (member : Item.string bytes ∈ items) {bound : Nat}
    (small : (Item.encodeAll items).length < bound) :
    bytes.length < bound := by
  have within := length_encode_le_of_mem member
  rw [Item.encode_string] at within
  have := length_le_encodeString bytes
  omega

/-- Byte strings of one length of at most 255 bytes are encoded in the same
number of bytes each. -/
theorem length_encodeAll_stringItems (strings : List (ByteString size))
    (width : Nat)
    (each : ∀ bytes : ByteString size,
      (encodeString bytes.val).length = width) :
    (Item.encodeAll (stringItems strings)).length = width * strings.length := by
  induction strings with
  | nil => simp [stringItems]
  | cons bytes strings inductionHypothesis =>
      simp only [stringItems, List.map_cons, Item.encodeAll_cons,
        Item.encode_string, List.length_append, each bytes,
        List.length_cons] at inductionHypothesis ⊢
      rw [inductionHypothesis]
      ring

theorem length_encode_slotPubKey (key : ByteString 48) :
    (encodeString key.val).length = 49 := by
  rw [length_encodeString_of_short (by simp [key.property])
    (by simp [key.property]), key.property]

theorem length_encode_slotKeySig (signature : ByteString 96) :
    (encodeString signature.val).length = 98 := by
  obtain ⟨bytes, length⟩ := signature
  match bytes, length with
  | first :: second :: rest, length =>
      simp only [encodeString, header, length]
      simp [length_natBytes]
      simp at length
      omega

/-! ## Reading the parts -/

/-- The rest of the parser sees the same content as without the keys. -/
def Same (left right : TxContent) : Prop :=
  left.withoutKeys = right.withoutKeys

theorem Same.directive {left right : TxContent} (same : Same left right) :
    left.directive = right.directive := by
  show left.withoutKeys.directive = right.withoutKeys.directive
  rw [same]

theorem same_showText (offset : Nat) (bytes : List UInt8)
    (content : TxContent) :
    Same (Staking.showText offset bytes content) content := rfl

theorem same_putBlsPubKey (bytes : List UInt8) (content : TxContent) :
    Same (Slot.blsPubKey.putBytes bytes content) content := rfl

theorem same_showKeyAt (offset : Nat) (content : TxContent) :
    Same (Staking.showKeyAt offset content) content :=
  same_showText _ _ _

theorem same_showKey (index : Nat) (content : TxContent) :
    Same (Staking.showKey index content) content := by
  unfold Staking.showKey
  split
  · exact same_showKeyAt _ _
  · rfl

theorem Same.trans {first second third : TxContent}
    (left : Same first second) (right : Same second third) :
    Same first third :=
  Eq.trans left right

theorem same_showKeys (keys : List (List UInt8)) (index : Nat)
    (content : TxContent) : Same (showKeys keys index content) content := by
  induction keys generalizing index content with
  | nil => rfl
  | cons key keys inductionHypothesis =>
      rw [showKeys]
      exact (inductionHypothesis _ _).trans
        ((same_showKey _ _).trans (same_putBlsPubKey _ _))

/-- The keys of a new validator are read and shown one by one. -/
theorem verdict_keys (keys : List (ByteString 48)) (index : Nat)
    (content : TxContent) (rest : List UInt8) :
    (Staking.keys content index keys.length).verdict
        (Item.encodeAll (stringItems keys) ++ rest) =
      (Staking.blssigs (showKeys (keys.map Subtype.val) index
        content)).verdict rest := by
  induction keys generalizing content index with
  | nil => simp [stringItems, Staking.keys, showKeys]
  | cons key keys inductionHypothesis =>
      rw [stringItems, List.map_cons, Item.encodeAll_cons, List.append_assoc,
        List.length_cons, Staking.keys,
        verdict_field_item _ _ _ _ _ (by norm_num)
          (Nat.le_of_eq key.property)]
      exact inductionHypothesis _ _

/-- The signatures of a new validator are skipped one by one. -/
theorem verdict_signatures (signatures : List (ByteString 96))
    (content : TxContent) (rest : List UInt8) :
    (Staking.signatures content signatures.length).verdict
        (Item.encodeAll (stringItems signatures) ++ rest) =
      (Staking.amount content).verdict rest := by
  induction signatures with
  | nil => simp [stringItems, Staking.signatures]
  | cons signature signatures inductionHypothesis =>
      rw [stringItems, List.map_cons, Item.encodeAll_cons, List.append_assoc,
        List.length_cons, Staking.signatures,
        verdict_skip_item _ _ _ _ (by rw [signature.property]; norm_num)]
      exact inductionHypothesis

/-- The description of a validator is read, and its name kept. -/
theorem verdict_description (description : Description)
    (content : TxContent) (rest : List UInt8)
    (small : (Item.encodeAll description.items).length < 2 ^ 32) :
    (Staking.description content).verdict
        ((Item.list description.items).encode ++ rest) =
      (if content.directive = DirectiveEditValidator then
          Staking.rate (Slot.name.set description.storedName content)
        else
          Staking.commissionrates
            (Slot.name.set description.storedName content)).verdict rest := by
  have skips : ∀ bytes, Item.string bytes ∈ description.items ->
      bytes.length < 2 ^ 32 := fun bytes member =>
    length_string_lt_of_mem member small
  rw [Staking.description, verdict_enter_item _ _ _ _ small]
  simp only [Description.items, Item.encodeAll_cons, List.append_assoc,
    Item.encodeAll_nil, List.nil_append] at skips ⊢
  rw [Staking.name, verdict_field_item _ _ _ _ _ (by norm_num)
      description.name.property,
    Staking.identity, verdict_skip_item _ _ _ _ (skips _ (by simp)),
    Staking.website, verdict_skip_item _ _ _ _ (skips _ (by simp)),
    Staking.securitycontact, verdict_skip_item _ _ _ _ (skips _ (by simp)),
    Staking.details, verdict_skip_item _ _ _ _ (skips _ (by simp))]
  rfl

/-- The three rates of a new validator are read. -/
theorem verdict_commission (commission : CommissionRates)
    (content : TxContent) (rest : List UInt8)
    (small : (Item.encodeAll commission.items).length < 2 ^ 32)
    (creates : content.directive = DirectiveCreateValidator)
    (rate : content.rate.value = .zero)
    (maxRate : content.maxRate.value = .zero)
    (maxChangeRate : content.maxChangeRate.value = .zero) :
    (Staking.commissionrates content).verdict
        ((Item.list commission.items).encode ++ rest) =
      (Staking.minselfdelegation { content with
        rate := commission.rate.stored
        maxRate := commission.maxRate.stored
        maxChangeRate := commission.maxChangeRate.stored }).verdict rest := by
  have nested : ∀ items, Item.list items ∈ commission.items ->
      (Item.encodeAll items).length < 2 ^ 32 := fun items member =>
    length_encodeAll_lt_of_mem member small
  have notEdit : content.directive ≠ DirectiveEditValidator := by
    rw [creates]
    decide
  rw [Staking.commissionrates, verdict_enter_item _ _ _ _ small]
  simp only [CommissionRates.items, Int256.item, Item.encodeAll_cons,
    List.append_assoc, Item.encodeAll_nil, List.nil_append] at nested ⊢
  rw [Staking.rate, verdict_enter_item _ _ _ _ (nested _ (by simp)),
    if_neg (fun both => notEdit both.1)]
  simp only [Item.encodeAll_cons, Item.encodeAll_nil, List.append_assoc,
    List.nil_append]
  rw [Staking.rateValue, verdict_field_item _ _ _ _ _ (by norm_num)
      commission.rate.length_bytes_le, if_neg notEdit,
    Slot.rate.putInt_bytes _ rate,
    Staking.maxrate, verdict_enter_item _ _ _ _ (nested _ (by simp))]
  simp only [Item.encodeAll_cons, Item.encodeAll_nil, List.append_assoc,
    List.nil_append]
  rw [Staking.maxrateValue, verdict_field_item _ _ _ _ _ (by norm_num)
      commission.maxRate.length_bytes_le, Slot.maxRate.putInt_bytes _ (by exact maxRate),
    Staking.maxchangerate, verdict_enter_item _ _ _ _ (nested _ (by simp))]
  simp only [Item.encodeAll_cons, Item.encodeAll_nil, List.append_assoc,
    List.nil_append]
  rw [Staking.maxchangerateValue, verdict_field_item _ _ _ _ _ (by norm_num)
      commission.maxChangeRate.length_bytes_le,
    Slot.maxChangeRate.putInt_bytes _ (by exact maxChangeRate)]
  rfl

/-- The two delegation bounds are read. -/
theorem verdict_bounds (minSelf maxTotal : Int256) (content : TxContent)
    (rest : List UInt8)
    (unset : content.minSelfDelegation.value = .zero)
    (unsetTotal : content.maxTotalDelegation.value = .zero) :
    (Staking.minselfdelegation content).verdict
        (minSelf.item.encode ++ (maxTotal.item.encode ++ rest)) =
      (let read := { content with
        minSelfDelegation := minSelf.stored
        maxTotalDelegation := maxTotal.stored }
      if content.directive = DirectiveCreateValidator then
        Staking.slotpubkeys read
      else if content.directive = DirectiveEditValidator then
        Staking.slotkeytoremove read
      else .refuse).verdict rest := by
  simp only [Int256.item]
  rw [Staking.minselfdelegation, verdict_field_item _ _ _ _ _ (by norm_num)
      minSelf.length_bytes_le,
    Slot.minSelfDelegation.putInt_bytes _ unset,
    Staking.maxtotaldelegation, verdict_field_item _ _ _ _ _ (by norm_num)
      maxTotal.length_bytes_le,
    Slot.maxTotalDelegation.putInt_bytes _ (by exact unsetTotal)]
  rfl

/-- The keys and signatures of a new validator and its amount are read. -/
theorem verdict_slots (message : CreateValidator) (rest : List UInt8)
    (smallKeys :
      (Item.encodeAll (stringItems message.slotPubKeys)).length < 2 ^ 32)
    (smallSigs :
      (Item.encodeAll (stringItems message.slotKeySigs)).length < 2 ^ 32) :
    (Staking.slotpubkeys message.opening).verdict
        ((Item.list (stringItems message.slotPubKeys)).encode ++
          ((Item.list (stringItems message.slotKeySigs)).encode ++
            (message.amount.item.encode ++ rest))) =
      .accepted message.read true := by
  have somePubKeys : 0 < message.slotPubKeys.length :=
    List.length_pos_iff.mpr message.slotPubKeys_ne_nil
  have someSigs : 0 < message.slotKeySigs.length := by
    rw [message.length_slotKeySigs]
    exact somePubKeys
  have keyCount : (Item.encodeAll (stringItems message.slotPubKeys)).length /
      (MAX_BLS_ADDRESS + 1) = message.slotPubKeys.length := by
    rw [length_encodeAll_stringItems _ 49 length_encode_slotPubKey]
    exact Nat.mul_div_cancel_left _ (by norm_num)
  have sigCount : (Item.encodeAll (stringItems message.slotKeySigs)).length /
      (MAX_SIG_ADDRESS + 2) = message.slotKeySigs.length := by
    rw [length_encodeAll_stringItems _ 98 length_encode_slotKeySig]
    exact Nat.mul_div_cancel_left _ (by norm_num)
  have amounts : Staking.EndsWithAmount (showKeys message.keys 0
      (Staking.setKeyCount message.slotPubKeys.length
        message.opening)).directive := by
    rw [(same_showKeys _ _ _).directive]
    exact Or.inr (Or.inr rfl)
  rw [Staking.slotpubkeys, verdict_enter_item _ _ _ _ smallKeys, keyCount,
    Staking.blspubkey_of_pos _ somePubKeys, verdict_keys,
    Staking.blssigs, verdict_enter_item _ _ _ _ smallSigs, sigCount,
    Staking.blssignature_of_pos _ someSigs, verdict_signatures,
    Staking.amount, if_pos (by exact amounts), Int256.item,
    verdict_final_item _ _ _ _ _ (by norm_num) message.amount.length_bytes_le]
  rfl

/-- A new validator leaves its content, apart from the keys. -/
theorem CreateValidator.same_read (message : CreateValidator) :
    Same message.read message.content := by
  have same := same_showKeys message.keys 0
    (Staking.setKeyCount message.slotPubKeys.length message.opening)
  rw [CreateValidator.read]
  generalize showKeys message.keys 0 _ = after at same ⊢
  have unset : after.value.value = .zero :=
    congrArg (fun stripped : TxContent => stripped.value.value) same
  rw [Slot.value.putFinalInt_bytes _ (by exact unset),
    message.length_slotKeySigs]
  exact congrArg (fun stripped =>
    { stripped with
      blsPubKeySize := message.slotPubKeys.length
      value := message.amount.stored }) same

private theorem create_ne_edit :
    DirectiveCreateValidator ≠ DirectiveEditValidator := by
  decide

/-- The fields of a new validator are read. -/
theorem verdict_createValidator (message : CreateValidator)
    (rest : List UInt8)
    (small : (Item.encodeAll message.items).length < 2 ^ 32) :
    (Staking.validatoraddr
        { TxContent.zero with directive := DirectiveCreateValidator }).verdict
        (Item.encodeAll message.items ++ rest) =
      .accepted message.read true := by
  have nested : ∀ items, Item.list items ∈ message.items ->
      (Item.encodeAll items).length < 2 ^ 32 := fun items member =>
    length_encodeAll_lt_of_mem member small
  simp only [CreateValidator.items, Item.encodeAll_cons, List.append_assoc,
    Item.encodeAll_nil, List.nil_append] at nested ⊢
  rw [Staking.validatoraddr, verdict_field_item _ _ _ _ _ (by norm_num)
      (Nat.le_of_eq message.validator.property),
    if_neg (by decide), Slot.validatorAddress.putBytes_unset _ rfl,
    verdict_description _ _ _ (nested _ (by simp)),
    if_neg (by exact create_ne_edit),
    verdict_commission _ _ _ (nested _ (by simp)) rfl rfl rfl rfl,
    verdict_bounds _ _ _ _ rfl rfl]
  dsimp only
  rw [if_pos (by rfl)]
  exact verdict_slots message rest (nested _ (by simp)) (nested _ (by simp))

/-- The optional rate of a changed validator is read. -/
theorem verdict_rate (rate : Option Int256) (content : TxContent)
    (rest : List UInt8)
    (small : (Item.encodeAll (rate.map Int256.item).toList).length < 2 ^ 32)
    (edits : content.directive = DirectiveEditValidator)
    (unset : content.rate = {}) :
    (Staking.rate content).verdict
        ((Item.list (rate.map Int256.item).toList).encode ++ rest) =
      (Staking.minselfdelegation { content with
        rate := (rate.map Int256.stored).getD {} }).verdict rest := by
  rw [Staking.rate, verdict_enter_item _ _ _ _ small]
  cases rate with
  | none =>
      rw [if_pos ⟨edits, by simp⟩]
      simp [← unset]
  | some rate =>
      have announced : (Item.encodeAll
          ((some rate).map Int256.item).toList).length ≠ 0 := by
        simp only [Option.map_some, Option.toList_some, Item.encodeAll_cons,
          Item.encodeAll_nil, List.append_nil, Int256.item, Item.encode_string]
        exact Nat.pos_iff_ne_zero.mp (length_encodeString_pos _)
      rw [if_neg (fun both => announced both.2)]
      simp only [Option.map_some, Option.toList_some, Item.encodeAll_cons,
        Item.encodeAll_nil, List.append_assoc, List.nil_append, Int256.item,
        Option.getD_some]
      rw [Staking.rateValue, verdict_field_item _ _ _ _ _ (by norm_num)
          rate.length_bytes_le, if_pos edits,
        Slot.rate.putInt_bytes _ (by rw [show Slot.rate.get content = _ from
          unset])]
      rfl

/-- The keys and the status of a changed validator are read. -/
theorem verdict_changes (message : EditValidator) (rest : List UInt8) :
    (Staking.slotkeytoremove message.opening).verdict
        ((Item.string (optionalBytes message.slotKeyToRemove)).encode ++
          ((Item.string (optionalBytes message.slotKeyToAdd)).encode ++
            ((Item.string (optionalBytes message.slotKeyToAddSig)).encode ++
              ((Item.number message.status.val).encode ++ rest)))) =
      .accepted message.read true := by
  rw [Staking.slotkeytoremove, verdict_field_item _ _ _ _ _ (by norm_num)
      (length_optionalBytes_le message.slotKeyToRemove),
    Staking.slotkeytoadd, verdict_field_item _ _ _ _ _ (by norm_num)
      (length_optionalBytes_le message.slotKeyToAdd),
    if_pos (by rfl),
    Staking.slotkeytoaddsignature, verdict_skip_item _ _ _ _
      (lt_of_le_of_lt (length_optionalBytes_le message.slotKeyToAddSig)
        (by norm_num)),
    Staking.editactive, Item.number, verdict_final_item _ _ _ _ _
      (by norm_num) (ShardId.length_natBytes_le message.status)]
  rfl

theorem same_captioned (start : Nat) (caption key : List UInt8)
    (content : TxContent) : Same (captioned start caption key content) content :=
  (same_showKeyAt _ _).trans
    ((same_putBlsPubKey _ _).trans (same_showText _ _ _))

/-- A change of a validator leaves its content, apart from the keys. -/
theorem EditValidator.same_read (message : EditValidator) :
    Same message.read message.content := by
  have same : Same (captioned 20 (ascii ",add:") message.changes.added
      (captioned 0 (ascii "remove:") message.changes.removed
        message.opening)) message.opening :=
    (same_captioned _ _ _ _).trans (same_captioned _ _ _ _)
  rw [EditValidator.read, Changes.content]
  generalize captioned 20 _ _ _ = after at same ⊢
  have unset : after.destination = .zero := congrArg TxContent.destination same
  rw [EditValidator.changes, Slot.fromShard.putShard_natBytes _ (by
    exact congrArg TxContent.fromShard same)]
  have shown := congrArg (fun stripped : TxContent => { stripped with
    fromShard := message.status.val
    destination := Region.ofList (statusText message.status.val) }) same
  refine Eq.trans ?_ shown
  simp only [TxContent.withoutKeys, Staking.showStatus, Slot.fromShard,
    unset, Region.ofList]

/-- The fields of a change of a validator are read. -/
theorem verdict_editValidator (message : EditValidator)
    (rest : List UInt8)
    (small : (Item.encodeAll message.items).length < 2 ^ 32) :
    (Staking.validatoraddr
        { TxContent.zero with directive := DirectiveEditValidator }).verdict
        (Item.encodeAll message.items ++ rest) =
      .accepted message.read true := by
  have nested : ∀ items, Item.list items ∈ message.items ->
      (Item.encodeAll items).length < 2 ^ 32 := fun items member =>
    length_encodeAll_lt_of_mem member small
  simp only [EditValidator.items, Item.encodeAll_cons, List.append_assoc,
    Item.encodeAll_nil, List.nil_append] at nested ⊢
  rw [Staking.validatoraddr, verdict_field_item _ _ _ _ _ (by norm_num)
      (Nat.le_of_eq message.validator.property),
    if_neg (by decide), Slot.validatorAddress.putBytes_unset _ rfl,
    verdict_description _ _ _ (nested _ (by simp)),
    if_pos (by rfl),
    verdict_rate _ _ _ (nested _ (by simp)) (by rfl) (by rfl),
    verdict_bounds _ _ _ _ rfl rfl]
  dsimp only
  rw [if_neg (by exact create_ne_edit.symm), if_pos (by rfl)]
  exact verdict_changes message rest

/-- A delegation or its withdrawal is read. -/
theorem verdict_delegation {directive : Nat}
    (delegates : Staking.Delegates directive)
    (delegator validator : Address) (amount : Int256) (rest : List UInt8) :
    (Staking.delegatoraddr
        { TxContent.zero with directive := directive }).verdict
        (Item.encodeAll [.string delegator.val, .string validator.val,
          amount.item] ++ rest) =
      .accepted { TxContent.zero with
        directive := directive
        destination := Region.ofList delegator.val
        validatorAddress := Region.ofList validator.val
        value := amount.stored } true := by
  have amounts : Staking.EndsWithAmount directive :=
    delegates.elim Or.inl fun undelegate => Or.inr (Or.inl undelegate)
  have notCollect : directive ≠ DirectiveCollectRewards := by
    obtain rfl | rfl := delegates <;> decide
  simp only [Item.encodeAll_cons, Item.encodeAll_nil, List.append_assoc,
    List.nil_append, Int256.item]
  rw [Staking.delegatoraddr, if_neg (by exact notCollect),
    verdict_field_item _ _ _ _ _ (by norm_num)
      (Nat.le_of_eq delegator.property),
    Slot.destination.putBytes_unset _ rfl,
    Staking.validatoraddr, verdict_field_item _ _ _ _ _ (by norm_num)
      (Nat.le_of_eq validator.property),
    if_pos (by exact delegates),
    Slot.validatorAddress.putBytes_unset _ rfl,
    Staking.amount, if_pos (by exact amounts),
    verdict_final_item _ _ _ _ _ (by norm_num) amount.length_bytes_le,
    Slot.value.putFinalInt_bytes _ rfl]
  rfl

/-- The directive is stored as its number. -/
theorem putDirective_natBytes {directive : Nat} (small : directive < 256) :
    putDirective (natBytes directive).length (natBytes directive) .zero =
      { TxContent.zero with directive := directive } := by
  unfold putDirective
  by_cases zero : directive = 0
  · subst zero
    simp [TxContent.zero]
  · have single := natBytes_of_lt (Nat.pos_of_ne_zero zero) small
    have unset : uint32Bytes TxContent.zero.directive = .zero := by
      simp [uint32Bytes, Region.zero, TxContent.zero]
    rw [single, if_neg (by simp), unset]
    have stored := leNat_toList_ofList [UInt8.ofNat directive]
      (show 1 ≤ 4 by omega)
    rw [Region.ofList] at stored
    rw [uint32OfBytes, stored, leNat_cons, leNat_nil]
    simp [Nat.mod_eq_of_lt small]

/-- Which messages start with the validator. -/
private theorem namesValidatorFirst (message : StakingMessage) :
    Staking.NamesValidatorFirst message.directive ↔
      (∃ create, message = .createValidator create) ∨
      ∃ edit, message = .editValidator edit := by
  cases message <;>
    simp [StakingMessage.directive, Staking.NamesValidatorFirst,
      DirectiveCreateValidator, DirectiveEditValidator, DirectiveDelegate, DirectiveUndelegate,
      DirectiveCollectRewards]

theorem StakingMessage.directive_lt (message : StakingMessage) :
    message.directive < 256 := by
  cases message <;> simp only [StakingMessage.directive] <;> decide

/-- An operation leaves its content, apart from the keys. -/
theorem StakingMessage.same_read (message : StakingMessage) :
    Same message.read message.content := by
  cases message with
  | createValidator message => exact message.same_read
  | editValidator message => exact message.same_read
  | _ => rfl

/-- The staking layout reads an encoded operation field by field. -/
theorem stakingVerdict_encode (transaction : StakingTransaction)
    (small : (Item.encodeAll transaction.items).length < 2 ^ 32) :
    stakingVerdict transaction.encode =
      .accepted transaction.message.read true := by
  obtain ⟨message, trailing⟩ := transaction
  have smallMessage : (Item.encodeAll message.items).length < 2 ^ 32 :=
    length_encodeAll_lt_of_mem (by simp [StakingTransaction.items]) small
  have directiveFits : (natBytes message.directive).length ≤ 4 :=
    length_natBytes_le (lt_trans message.directive_lt (by norm_num))
  rw [stakingVerdict, Staking.message, StakingTransaction.encode,
    ← List.append_nil (Item.list _).encode,
    verdict_enter_item _ _ _ _ small, List.append_nil]
  simp only [StakingTransaction.items, List.cons_append, List.nil_append,
    Item.encodeAll_cons, Item.number]
  rw [Staking.directive, verdict_field_item _ _ _ _ _ (by norm_num)
      directiveFits, putDirective_natBytes message.directive_lt,
    Staking.stakemessage, verdict_enter_item _ _ _ _ smallMessage]
  cases message with
  | createValidator message =>
      rw [if_pos ((namesValidatorFirst _).mpr (by simp))]
      exact verdict_createValidator message _ smallMessage
  | editValidator message =>
      rw [if_pos ((namesValidatorFirst _).mpr (by simp))]
      exact verdict_editValidator message _ smallMessage
  | delegate delegator validator amount =>
      rw [if_neg ((namesValidatorFirst _).not.mpr (by simp))]
      exact verdict_delegation (Or.inl rfl) delegator validator amount _
  | undelegate delegator validator amount =>
      rw [if_neg ((namesValidatorFirst _).not.mpr (by simp))]
      exact verdict_delegation (Or.inr rfl) delegator validator amount _
  | collectRewards delegator =>
      rw [if_neg ((namesValidatorFirst _).not.mpr (by simp))]
      simp only [StakingMessage.items, Item.encodeAll_cons, List.append_assoc]
      rw [Staking.delegatoraddr, if_pos (by rfl),
        verdict_final_item _ _ _ _ _ (by norm_num)
          (Nat.le_of_eq delegator.property),
        Slot.destination.putBytes_unset _ rfl]
      rfl

/-- `processStaking` decodes what the host encodes: on the canonical encoding
of a staking transaction it returns 0 and leaves the operation in the
content. -/
theorem processStaking_encode (transaction : StakingTransaction)
    (buf : Region 1024) (received : Received buf transaction.encode) :
    ∃ left,
      processStaking buf (stakingStart transaction.encode.length) =
        .ok (0, left) ∧
      left.content.withoutKeys = transaction.message.content := by
  have accepts :=
    stakingVerdict_encode transaction (length_payload_lt received)
  obtain ⟨left, returns, reads⟩ :=
    (processStaking_accepts_iff received _).mpr ⟨true, accepts⟩
  refine ⟨left, returns, ?_⟩
  rw [reads]
  refine Eq.trans transaction.message.same_read ?_
  cases transaction.message <;> rfl

theorem length_validator : (List.replicate 20 (0x5b : UInt8)).length = 20 :=
  rfl

theorem length_alice_le : (ascii "Alice").length ≤ 30 := by decide

/-- A delegation of one token. -/
def delegateOneToken : StakingTransaction where
  message := .delegate ⟨List.replicate 20 0x5a, length_delegator⟩
    ⟨List.replicate 20 0x5b, length_validator⟩ ⟨1000000000000000000, Int256.token_lt⟩
  trailing := [.number 7]

theorem processStaking_delegateOneToken :
    delegateOneToken.encode.length ≤ 1024 ∧
      ∃ left,
        processStaking (Region.ofList delegateOneToken.encode)
          (stakingStart delegateOneToken.encode.length) = .ok (0, left) ∧
        left.content.withoutKeys = delegateOneToken.message.content :=
  have fits : delegateOneToken.encode.length ≤ 1024 := by decide +kernel
  ⟨fits, processStaking_encode delegateOneToken _ (received_ofList fits)⟩

end LedgerOne
