import LedgerOne.Firmware.Approval
import LedgerOne.Firmware.Replies
import LedgerOne.Firmware.StakingFlows
import LedgerOne.Firmware.TransferReview
import LedgerOne.Messages.Keys
import LedgerOne.Security.KeyList

/-!
# The pages of the Nano X

What the user pages through before signing, read off the operation that the
host has encoded: for every operation whose texts fit their arrays each page
shows its own part of the operation, and the whole message is what is signed.
-/

namespace LedgerOne

open Rlp Layout StakingArray

/-! ## Texts -/

theorem zero_not_mem_addressText (address : Region 20) :
    0 ∉ addressText address := by
  obtain ⟨data, checksum, encodes, -, -, small, -⟩ :=
    bech32GetAddress_eq (Region.length_toList address)
  have printable : ∀ value < 32, Bip173.character value ≠ 0 := by decide
  rw [addressText, encodes, Option.getD_some]
  intro member
  obtain caption | character := List.mem_append.mp member
  · exact absurd caption (by decide)
  · obtain ⟨value, listed, same⟩ := List.mem_map.mp character
    exact printable value (small value listed) same

theorem zero_not_mem_amountText (value : Nat) : 0 ∉ amountText value :=
  fun member => ne_zero_of_mem_amountText member rfl

/-- The parts of a text have no NUL. -/
def Part.Proper : Part -> Prop
  | .text bytes => 0 ∉ bytes
  | _ => True

theorem zero_not_mem_partsText {parts : List Part}
    (proper : ∀ part ∈ parts, part.Proper) : 0 ∉ partsText parts := by
  intro member
  obtain ⟨part, listed, shown⟩ := List.mem_flatMap.mp member
  have none := proper part listed
  cases part with
  | text bytes => exact none shown
  | rate int => exact ne_zero_of_mem_rateText shown rfl
  | amount int => exact ne_zero_of_mem_amountText shown rfl

theorem proper_commissionParts (content : TxContent) :
    ∀ part ∈ commissionParts content, part.Proper := by
  have captions : (0 : UInt8) ∉ ascii "rate:" ∧ (0 : UInt8) ∉ ascii ",max:" ∧
      (0 : UInt8) ∉ ascii ",change:" := by decide
  unfold commissionParts
  split
  · simp [Part.Proper, captions]
  · simp [Part.Proper, captions]

theorem proper_limitParts (content : TxContent) :
    ∀ part ∈ limitParts content, part.Proper := by
  have captions : (0 : UInt8) ∉ ascii "min:" ∧ (0 : UInt8) ∉ ascii ",max:" := by
    decide
  simp [limitParts, Part.Proper, captions]

theorem zero_not_mem_nameStrText (content : TxContent) :
    0 ∉ nameStrText content := by
  unfold nameStrText
  split_ifs
  · decide
  · exact ne_zero_of_mem_nameText content

/-- A name with a NUL leaves room for it. -/
theorem length_nameStrText_lt {content : TxContent}
    (ends : 0 ∈ content.name.toList) : (nameStrText content).length < 30 := by
  unfold nameStrText
  split_ifs
  · decide
  · have prefixed : nameText content <+: content.name.toList :=
      List.takeWhile_prefix _
    have whole := prefixed.length_le
    rw [Region.length_toList] at whole
    refine lt_of_le_of_ne whole fun full => ?_
    have same := prefixed.eq_of_length (by rw [full, Region.length_toList])
    exact ne_zero_of_mem_nameText content (same ▸ ends)

theorem zero_not_mem_statusStrText (status : Nat) :
    0 ∉ statusStrText status := by
  unfold statusStrText
  split_ifs <;> decide

/-- Behind the limits of a delegation there is room for a NUL: the last amount
is shorter than what it clears. -/
theorem length_limitParts_lt {content : TxContent}
    (converts : ∀ part ∈ limitParts content, part.Converts)
    (room : PartsFit 132 0 (limitParts content)) :
    (partsText (limitParts content)).length < 132 := by
  obtain ⟨-, -, -, last, -⟩ := room
  have most := length_amountText (TxInt256.number_lt
    (converts (.amount content.maxTotalDelegation) (by simp [limitParts])))
  change _ + 78 ≤ 132 at last
  simp only [limitParts, partsText, List.flatMap_cons, List.flatMap_nil,
    List.append_nil, List.length_append, Part.shown] at last ⊢
  omega

/-! ## Pages -/

section Page

variable {display : Display build} {place : Place} {text : List UInt8}
  (holds : display.strings.Holds place.start place.size text)
  (inside : place.start + place.size ≤ build.stringsSize)

include holds inside

theorem text_of_holds (ends : text.length < place.size) :
    display.text place.start = text.takeWhile fun byte => byte ≠ 0 :=
  holds.cString ends inside

theorem page_of_holds (title : String) (ends : text.length < place.size)
    (proper : 0 ∉ text) :
    display.page title place.start = [ascii title, text] := by
  rw [Display.page, text_of_holds holds inside ends,
    takeWhile_eq_of_not_mem proper]

end Page

/-! ## Staking operations -/

/-- The name of a directive. -/
def directiveName (directive : Nat) : List UInt8 :=
  ((directiveText directive).getD []).takeWhile fun byte => byte ≠ 0

section Staking

variable (content : TxContent)

/-- The pages about a validator. -/
def validatorTexts : List (List UInt8) :=
  [ascii "Description", nameStrText content,
    ascii "ValidatorAddress", addressText content.validatorAddress,
    ascii "CommissionRate", partsText (commissionParts content),
    ascii "Delegation", partsText (limitParts content),
    ascii "BlsKey", (shownKeys content).takeWhile fun byte => byte ≠ 0]

/-- The pages of an operation, read off the content. -/
def stakingPages : List (List UInt8) :=
  [ascii "Verify", ascii "Staking", ascii "Directive",
      directiveName content.directive] ++
    (match flowOf content.directive with
    | .createValidator => validatorTexts content ++
        [ascii "Amount", amountText content.value.number]
    | .editValidator => validatorTexts content ++
        [ascii "EposStatus", statusStrText content.fromShard]
    | .delegate => [ascii "DelegatorAddress", addressText content.destination,
        ascii "ValidatorAddress", addressText content.validatorAddress,
        ascii "Amount", amountText content.value.number]
    | .collectRewards =>
        [ascii "DelegatorAddress", addressText content.destination]) ++
    stakingDecision

/-- The strings that the review leaves. -/
def reviewedNanoX (title : List UInt8) (display : Display .nanoX) :
    Display .nanoX :=
  display.performed
    (writesOf (reviewStakingOperationsNanoX content title) display)

variable {content} {title : List UInt8} {display : Display .nanoX}
  (blank : ∀ position, display.strings.get position = 0)

include blank

/-- The page of an array in which the review leaves a text. -/
theorem page_reviewed (place : Place) (caption : String) {text : List UInt8}
    (leaves : Leaves (reviewStakingOperationsNanoX content title) place []
      text)
    (inside : place.start + place.size ≤ 736)
    (ends : text.length < place.size) (proper : 0 ∉ text) :
    (reviewedNanoX content title display).page caption place.start =
      [ascii caption, text] :=
  page_of_holds (leaves display (.of_zero fun _ _ => blank _)) inside caption
    ends proper

variable (fits : FitsNanoX content)
  (titled : directiveText content.directive = some title)

include fits titled

theorem stakingStart_reviewed :
    (reviewedNanoX content title display).stakingStart =
      [ascii "Verify", ascii "Staking", ascii "Directive",
        directiveName content.directive] := by
  have few := length_directiveText titled
  have directive := text_of_holds (leaves_partialStr fits few display
    (.of_zero fun _ _ => blank _)) (by decide) (by show _ < 18; omega)
  have shown : (reviewedNanoX content title display).text
      (SignStaking.partialStr .nanoX) = directiveName content.directive := by
    rw [directiveName, titled]
    exact directive
  rw [Display.stakingStart, Display.page, shown]
  rfl

theorem delegator_reviewed (other : ¬IsValidatorOperation content.directive) :
    (reviewedNanoX content title display).page "DelegatorAddress"
        SignStaking.delegatorAddr =
      [ascii "DelegatorAddress", addressText content.destination] :=
  page_reviewed blank delegatorAddr _
    (leaves_composed fits (length_directiveText titled) (by decide)
      (leaves_delegatorAddr fits other)) (by decide)
    (by rw [length_addressText]; decide) (zero_not_mem_addressText _)

theorem validator_reviewed
    (notCollect : content.directive ≠ DirectiveCollectRewards) :
    (reviewedNanoX content title display).page "ValidatorAddress"
        SignStaking.validatorAddr =
      [ascii "ValidatorAddress", addressText content.validatorAddress] :=
  page_reviewed blank validatorAddr _
    (leaves_composed fits (length_directiveText titled) (by decide)
      (leaves_validatorAddr fits notCollect)) (by decide)
    (by rw [length_addressText]; decide) (zero_not_mem_addressText _)

theorem amount_reviewed
    (notEdit : content.directive ≠ DirectiveEditValidator)
    (notCollect : content.directive ≠ DirectiveCollectRewards) :
    (reviewedNanoX content title display).page "Amount"
        SignStaking.amountStr =
      [ascii "Amount", amountText content.value.number] := by
  have short := length_amountText (TxInt256.number_lt fits.amount)
  exact page_reviewed blank amountStr _
    (leaves_composed fits (length_directiveText titled) (by decide)
      (leaves_amountStr fits notEdit notCollect)) (by decide)
    (by show _ < 128; omega) (zero_not_mem_amountText _)

theorem status_reviewed
    (edits : content.directive = DirectiveEditValidator) :
    (reviewedNanoX content title display).page "EposStatus"
        SignStaking.statusStr =
      [ascii "EposStatus", statusStrText content.fromShard] := by
  have short := length_statusStrText content.fromShard
  exact page_reviewed blank statusStr _
    (leaves_statusStr fits (length_directiveText titled) edits) (by decide)
    (by show _ < 30; omega) (zero_not_mem_statusStrText _)

/-- The five pages about a validator. -/
theorem validatorPages_reviewed
    (validator : IsValidatorOperation content.directive) :
    (reviewedNanoX content title display).validatorPages =
      validatorTexts content := by
  have few := length_directiveText titled
  have short := length_nameStrText_lt fits.name
  have keys := length_shownKeys content
  obtain ⟨-, commission⟩ := fits.commission validator
  obtain ⟨converts, room⟩ := fits.delegation validator
  have name : (reviewedNanoX content title display).page "Description"
      SignStaking.nameStr = _ :=
    page_reviewed blank nameStr _ (leaves_nameStr fits few) (by decide) short
      (zero_not_mem_nameStrText content)
  have address := validator_reviewed blank fits titled (by
    obtain same | same := validator <;> rw [same] <;> decide)
  have rates : (reviewedNanoX content title display).page "CommissionRate"
      SignStaking.commissionRateStr = _ :=
    page_reviewed blank commissionRateStr _
      (leaves_composed fits few (by decide)
        (leaves_commissionRateStr fits validator)) (by decide) commission
      (zero_not_mem_partsText (proper_commissionParts content))
  have limits : (reviewedNanoX content title display).page "Delegation"
      SignStaking.delegationStr = _ :=
    page_reviewed blank delegationStr _
      (leaves_composed fits few (by decide)
        (leaves_delegationStr fits validator)) (by decide)
      (length_limitParts_lt converts room)
      (zero_not_mem_partsText (proper_limitParts content))
  have listed := text_of_holds (leaves_composed fits few (by decide)
    (leaves_fullStr fits validator) display (.of_zero fun _ _ => blank _))
    (by decide) (by show _ < 132; omega)
  have shown : (reviewedNanoX content title display).text SignStaking.fullStr =
      (shownKeys content).takeWhile fun byte => byte ≠ 0 := listed
  rw [Display.validatorPages, name, address, rates, limits, Display.page,
    shown]
  rfl

/-- The review puts on each page what is to be there. -/
theorem stakingFlow_reviewed :
    (reviewedNanoX content title display).stakingFlow
      (flowOf content.directive) = stakingPages content := by
  have start := stakingStart_reviewed blank fits titled
  unfold stakingPages flowOf
  by_cases creates : content.directive = DirectiveCreateValidator
  · rw [if_pos creates, Display.stakingFlow, start,
      validatorPages_reviewed blank fits titled (Or.inl creates),
      amount_reviewed blank fits titled (by rw [creates]; decide)
        (by rw [creates]; decide)]
    simp only [List.append_assoc]
  by_cases edits : content.directive = DirectiveEditValidator
  · rw [if_neg creates, if_pos edits, Display.stakingFlow, start,
      validatorPages_reviewed blank fits titled (Or.inr edits),
      status_reviewed blank fits titled edits]
    simp only [List.append_assoc]
  have other : ¬IsValidatorOperation content.directive :=
    not_or.mpr ⟨creates, edits⟩
  have delegator := delegator_reviewed blank fits titled other
  by_cases collects : content.directive = DirectiveCollectRewards
  · rw [if_neg creates, if_neg edits, if_pos collects, Display.stakingFlow,
      start, delegator]
  · rw [if_neg creates, if_neg edits, if_neg collects, Display.stakingFlow,
      start, delegator, validator_reviewed blank fits titled collects,
      amount_reviewed blank fits titled edits collects]
    simp only [List.cons_append, List.nil_append]

end Staking

/-! ## Encoded operations -/

/-- The name of a validator on the screen, "null" for the empty one. -/
def Description.shownName (description : Description) : List UInt8 :=
  let name := description.name.val.takeWhile fun byte => byte ≠ 0
  if name = [] then ascii "null" else name

def CommissionRates.text (commission : CommissionRates) : List UInt8 :=
  ascii "rate:" ++ rateText commission.rate.val ++ ascii ",max:" ++
    rateText commission.maxRate.val ++ ascii ",change:" ++
    rateText commission.maxChangeRate.val

/-- The text of the limits of a delegation. -/
def limitsText (minSelfDelegation maxTotalDelegation : Int256) : List UInt8 :=
  ascii "min:" ++ amountText minSelfDelegation.val ++ ascii ",max:" ++
    amountText maxTotalDelegation.val

/-- The text of an address. -/
def Address.text (address : Address) : List UInt8 :=
  addressText (.ofList address.val)

def CreateValidator.pages (message : CreateValidator) : List (List UInt8) :=
  [ascii "Description", message.description.shownName,
    ascii "ValidatorAddress", message.validator.text,
    ascii "CommissionRate", message.commission.text,
    ascii "Delegation",
    limitsText message.minSelfDelegation message.maxTotalDelegation,
    ascii "BlsKey", keysText (message.keys.take 10),
    ascii "Amount", amountText message.amount.val]

/-- The start of an optional key; where there is none, what is read instead. -/
def keyStartOr (key : Option (ByteString 48)) (instead : List UInt8) :
    List UInt8 :=
  (key.map fun bytes => bytes.val.take 5).getD instead

/-- The summary of the keys: without a key to add, the key to remove is shown
in its place. -/
def EditValidator.summary (message : EditValidator) : List UInt8 :=
  let removed := keyStartOr message.slotKeyToRemove (List.replicate 5 0)
  ascii "remove:" ++ keyText removed ++
    (ascii ",add:" ++ keyText (keyStartOr message.slotKeyToAdd removed))

/-- An unset rate is shown as zero. -/
def EditValidator.pages (message : EditValidator) : List (List UInt8) :=
  [ascii "Description", message.description.shownName,
    ascii "ValidatorAddress", message.validator.text,
    ascii "CommissionRate",
    ascii "rate:" ++ rateText ((message.commissionRate.map Subtype.val).getD 0),
    ascii "Delegation",
    limitsText message.minSelfDelegation message.maxTotalDelegation,
    ascii "BlsKey", message.summary,
    ascii "EposStatus", statusStrText message.status.val]

/-- The pages of an operation, between the first two and the decision. -/
def StakingMessage.pages : StakingMessage -> List (List UInt8)
  | .createValidator message =>
      [ascii "Directive", ascii "Create Validator"] ++ message.pages
  | .editValidator message =>
      [ascii "Directive", ascii "Edit Validator"] ++ message.pages
  | .delegate delegator validator amount =>
      [ascii "Directive", ascii "Delegate",
        ascii "DelegatorAddress", delegator.text,
        ascii "ValidatorAddress", validator.text,
        ascii "Amount", amountText amount.val]
  | .undelegate delegator validator amount =>
      [ascii "Directive", ascii "Undelegate",
        ascii "DelegatorAddress", delegator.text,
        ascii "ValidatorAddress", validator.text,
        ascii "Amount", amountText amount.val]
  | .collectRewards delegator =>
      [ascii "Directive", ascii "Collect Rewards",
        ascii "DelegatorAddress", delegator.text]

theorem Int256.length_stored_le (int : Int256) :
    int.stored.length.toNat ≤ 32 := by
  have short := int.length_bytes_le
  show (UInt8.ofNat int.bytes.length).toNat ≤ 32
  simp
  omega

theorem Int256.number_stored (int : Int256) : int.stored.number = int.val := by
  have short := int.length_bytes_le
  have length : (UInt8.ofNat int.bytes.length).toNat = int.bytes.length := by
    simp
    omega
  have whole : (Region.ofList int.bytes : Region 32).read 0 int.bytes.length =
      int.bytes := Region.read_splice_self .zero 0 int.bytes (by omega)
  rw [TxInt256.number, Int256.stored, length, whole, Int256.bytes,
    beNat_natBytes]

theorem Description.nameText_eq (description : Description) {content : TxContent}
    (named : content.name = description.storedName) :
    nameText content = description.name.val.takeWhile fun byte => byte ≠ 0 := by
  have holds : description.storedName.Holds 0 30 description.name.val :=
    .ofList description.name.property
  rw [nameText, named, Region.toList_eq_read, holds.read_whole,
    takeWhile_padded]

/-! ## The keys -/

section Keys

variable {content : TxContent}

theorem CreateValidator.whole_keys (message : CreateValidator) :
    ∀ key ∈ message.keys, key.length = 48 := by
  intro key member
  obtain ⟨bytes, -, rfl⟩ := List.mem_map.mp member
  exact bytes.property

/-- All of the first ten keys of a new validator are shown. -/
theorem shownKeys_createValidator (message : CreateValidator)
    (creates : content.directive = DirectiveCreateValidator)
    (size : content.blsPubKeySize = message.slotPubKeys.length)
    (kept : content.blsKeyStr = .ofList (keysText (message.keys.take 10))) :
    shownKeys content = keysText (message.keys.take 10) := by
  have length := length_keysText_take message.whole_keys
  rw [CreateValidator.keys, List.length_map] at length
  have count : 13 * (if content.blsPubKeySize > 10 then 10
      else content.blsPubKeySize) =
        (keysText (message.keys.take 10)).length := by
    rw [CreateValidator.keys, length, size]
    split <;> omega
  have whole := Region.read_splice_self (Region.zero : Region 130) 0
    (keysText (message.keys.take 10)) (by rw [CreateValidator.keys]; omega)
  unfold shownKeys
  dsimp only
  rw [if_pos creates, count, kept]
  exact whole

/-- What is read of an optional key in the buffer of the keys. -/
theorem read_optionalBytes (buffer : Region 48) (key : Option (ByteString 48)) :
    (buffer.splice 0 (optionalBytes key)).read 0 5 =
      keyStartOr key (buffer.read 0 5) := by
  cases key with
  | none =>
      rw [optionalBytes, Region.splice_nil]
      rfl
  | some bytes =>
      have length := bytes.property
      exact read_start buffer (by show 5 ≤ bytes.val.length; omega)
        (by show bytes.val.length ≤ 48; omega)

theorem shownKeys_editValidator (message : EditValidator)
    {before : TxContent}
    (start : keyPart before = (DirectiveEditValidator, .zero, .zero, .zero))
    (decoded : content = message.changes.content before) :
    shownKeys content = message.summary := by
  obtain ⟨front, back⟩ := message.changes.blsKeyStr_content start
  have edits : before.directive = DirectiveEditValidator :=
    congrArg Prod.fst start
  have other : content.directive ≠ DirectiveCreateValidator := by
    rw [decoded, message.changes.directive_content, edits]
    decide
  have both := (List.take_append_drop 20 (content.blsKeyStr.read 0 38)).symm
  rw [Region.take_read, Region.drop_read] at both
  have blank : (Region.zero : Region 48).read 0 5 = List.replicate 5 0 := rfl
  unfold shownKeys
  dsimp only
  rw [if_neg other, both, decoded]
  show (message.changes.content before).blsKeyStr.read 0 20 ++
    (message.changes.content before).blsKeyStr.read 20 18 = _
  rw [front, back]
  unfold EditValidator.changes EditValidator.summary
  dsimp only
  rw [read_optionalBytes, read_optionalBytes, read_optionalBytes, blank]

theorem EditValidator.zero_not_mem_summary (message : EditValidator) :
    0 ∉ message.summary := by
  have key : ∀ start, 0 ∉ keyText start := by
    intro start member
    obtain digit | dot := List.mem_append.mp member
    · exact zero_not_mem_hexText _ digit
    · exact absurd dot (by decide)
  have captions : (0 : UInt8) ∉ ascii "remove:" ∧ (0 : UInt8) ∉ ascii ",add:" := by
    decide
  simp [EditValidator.summary, key, captions]

end Keys

/-! ## From the message to the pages -/

section Encoded

variable {transaction : StakingTransaction} {content : TxContent}
  (same : content.withoutKeys = transaction.message.content)

include same

/-- The fields of the content but for the keys. -/
theorem exists_keys : ∃ key keyStr, content =
    { transaction.message.content with
      blsPubKey := key
      blsKeyStr := keyStr } := by
  refine ⟨content.blsPubKey, content.blsKeyStr, ?_⟩
  rw [← same]
  rfl

end Encoded

theorem nameStrText_eq {description : Description} {content : TxContent}
    (named : content.name = description.storedName) :
    nameStrText content = description.shownName := by
  rw [nameStrText, description.nameText_eq named]
  rfl

theorem directiveName_eq :
    directiveName DirectiveCreateValidator = ascii "Create Validator" ∧
    directiveName DirectiveEditValidator = ascii "Edit Validator" ∧
    directiveName DirectiveDelegate = ascii "Delegate" ∧
    directiveName DirectiveUndelegate = ascii "Undelegate" ∧
    directiveName DirectiveCollectRewards = ascii "Collect Rewards" := by
  decide

section Encoded

variable {content : TxContent}

theorem limitParts_text {minSelfDelegation maxTotalDelegation : Int256}
    (least : content.minSelfDelegation = minSelfDelegation.stored)
    (most : content.maxTotalDelegation = maxTotalDelegation.stored) :
    partsText (limitParts content) =
      limitsText minSelfDelegation maxTotalDelegation := by
  simp only [limitParts, partsText, List.flatMap_cons, List.flatMap_nil,
    Part.shown, least, most, Int256.number_stored, limitsText,
    List.append_nil, List.append_assoc]

theorem validatorTexts_eq {address : Address} {description : Description}
    {minSelfDelegation maxTotalDelegation : Int256} {rates keys : List UInt8}
    (addressed : content.validatorAddress = .ofList address.val)
    (named : content.name = description.storedName)
    (least : content.minSelfDelegation = minSelfDelegation.stored)
    (most : content.maxTotalDelegation = maxTotalDelegation.stored)
    (rated : partsText (commissionParts content) = rates)
    (listed : shownKeys content = keys) (proper : 0 ∉ keys) :
    validatorTexts content =
      [ascii "Description", description.shownName,
        ascii "ValidatorAddress", address.text,
        ascii "CommissionRate", rates,
        ascii "Delegation", limitsText minSelfDelegation maxTotalDelegation,
        ascii "BlsKey", keys] := by
  rw [validatorTexts, nameStrText_eq named, addressed, rated,
    limitParts_text least most, listed, takeWhile_eq_of_not_mem proper]
  rfl

/-- The rates of a new validator. -/
theorem commissionParts_createValidator (message : CreateValidator) {key keyStr}
    (fields : content = { message.content with
      blsPubKey := key
      blsKeyStr := keyStr }) :
    partsText (commissionParts content) = message.commission.text := by
  have creates : content.directive = DirectiveCreateValidator := by
    rw [fields]
    rfl
  rw [commissionParts, if_pos creates, fields]
  simp only [partsText, List.flatMap_cons, List.flatMap_nil, Part.shown,
    CreateValidator.content, Int256.number_stored, CommissionRates.text,
    List.append_nil, List.append_assoc]

/-- The rate of a validator that is changed. -/
theorem commissionParts_editValidator (message : EditValidator) {key keyStr}
    (fields : content = { message.content with
      blsPubKey := key
      blsKeyStr := keyStr }) :
    partsText (commissionParts content) = ascii "rate:" ++
      rateText ((message.commissionRate.map Subtype.val).getD 0) := by
  have other : content.directive ≠ DirectiveCreateValidator := by
    rw [fields]
    show DirectiveEditValidator ≠ _
    decide
  have rate : content.rate.number =
      (message.commissionRate.map Subtype.val).getD 0 := by
    rw [fields]
    cases set : message.commissionRate with
    | none =>
        simp only [EditValidator.content, set]
        rfl
    | some rate =>
        simp only [EditValidator.content, set]
        exact rate.number_stored
  rw [commissionParts, if_neg other]
  simp only [partsText, List.flatMap_cons, List.flatMap_nil, Part.shown, rate,
    List.append_nil]

theorem pages_createValidator (message : CreateValidator) {key keyStr}
    (fields : content = { message.content with
      blsPubKey := key
      blsKeyStr := keyStr })
    (kept : content.blsKeyStr = .ofList (keysText (message.keys.take 10))) :
    stakingPages content = [ascii "Verify", ascii "Staking"] ++
      ([ascii "Directive", ascii "Create Validator"] ++ message.pages) ++
      stakingDecision := by
  have creates : content.directive = DirectiveCreateValidator := by
    rw [fields]
    rfl
  have amount : content.value.number = message.amount.val := by
    rw [fields]
    exact message.amount.number_stored
  have rates := commissionParts_createValidator message fields
  have texts := validatorTexts_eq (by rw [fields]; rfl)
    (by rw [fields]; rfl) (by rw [fields]; rfl) (by rw [fields]; rfl) rates
    (shownKeys_createValidator message creates (by rw [fields]; rfl) kept)
    (zero_not_mem_keysText _)
  unfold stakingPages flowOf
  rw [if_pos creates]
  dsimp only
  rw [texts, amount, creates, directiveName_eq.1]
  rfl

theorem pages_editValidator (message : EditValidator) {key keyStr}
    (fields : content = { message.content with
      blsPubKey := key
      blsKeyStr := keyStr })
    (listed : shownKeys content = message.summary) :
    stakingPages content = [ascii "Verify", ascii "Staking"] ++
      ([ascii "Directive", ascii "Edit Validator"] ++ message.pages) ++
      stakingDecision := by
  have edits : content.directive = DirectiveEditValidator := by
    rw [fields]
    rfl
  have other : content.directive ≠ DirectiveCreateValidator := by
    rw [edits]
    decide
  have status : content.fromShard = message.status.val := by
    rw [fields]
    rfl
  have rates := commissionParts_editValidator message fields
  have texts := validatorTexts_eq (by rw [fields]; rfl)
    (by rw [fields]; rfl) (by rw [fields]; rfl) (by rw [fields]; rfl) rates
    listed message.zero_not_mem_summary
  unfold stakingPages flowOf
  rw [if_neg other, if_pos edits]
  dsimp only
  rw [texts, status, edits, directiveName_eq.2.1]
  rfl

/-- The flow of the operations that name a delegator. -/
theorem flowOf_delegation {directive : Nat}
    (delegates : directive = DirectiveDelegate ∨
      directive = DirectiveUndelegate) :
    flowOf directive = .delegate := by
  obtain rfl | rfl := delegates <;> decide

theorem pages_delegation {directive : Nat}
    (delegates : directive = DirectiveDelegate ∨
      directive = DirectiveUndelegate)
    (delegator validator : Address) (amount : Int256) {key keyStr}
    (fields : content = { TxContent.zero with
      directive := directive
      destination := .ofList delegator.val
      validatorAddress := .ofList validator.val
      value := amount.stored
      blsPubKey := key
      blsKeyStr := keyStr }) :
    stakingPages content = [ascii "Verify", ascii "Staking"] ++
      [ascii "Directive", directiveName directive,
        ascii "DelegatorAddress", delegator.text,
        ascii "ValidatorAddress", validator.text,
        ascii "Amount", amountText amount.val] ++ stakingDecision := by
  subst fields
  unfold stakingPages
  rw [flowOf_delegation delegates]
  dsimp only
  rw [amount.number_stored]
  rfl

/-- The pages that are read off the content are those of the operation. -/
theorem stakingPages_encoded {transaction : StakingTransaction}
    (same : content.withoutKeys = transaction.message.content)
    (small : (Item.encodeAll transaction.items).length < 2 ^ 32)
    (accepts : stakingVerdict transaction.encode = .accepted content true) :
    stakingPages content = [ascii "Verify", ascii "Staking"] ++
      transaction.message.pages ++ stakingDecision := by
  obtain ⟨created, edited⟩ := stakingVerdict_shown transaction small accepts
  obtain ⟨key, keyStr, fields⟩ := exists_keys same
  obtain ⟨-, -, delegate, undelegate, collect⟩ := directiveName_eq
  cases message : transaction.message with
  | createValidator create =>
      rw [message] at fields
      exact pages_createValidator create fields (created create message)
  | editValidator edit =>
      rw [message] at fields
      obtain ⟨before, start, decoded⟩ := edited edit message
      exact pages_editValidator edit fields
        (shownKeys_editValidator edit start decoded)
  | delegate delegator validator amount =>
      rw [message] at fields
      rw [pages_delegation (Or.inl rfl) delegator validator amount fields,
        delegate]
      rfl
  | undelegate delegator validator amount =>
      rw [message] at fields
      rw [pages_delegation (Or.inr rfl) delegator validator amount fields,
        undelegate]
      rfl
  | collectRewards delegator =>
      rw [message] at fields
      subst fields
      have flow : flowOf DirectiveCollectRewards = .collectRewards := by decide
      unfold stakingPages
      dsimp only [StakingMessage.content]
      rw [flow, collect]
      rfl

end Encoded

/-! ## Transfers -/

section Transfers

theorem mem_decimalText {value : Nat} {character : UInt8}
    (member : character ∈ decimalText value) : character ≠ 0 := by
  have digits : ∀ number, character ∈ decimalDigits number -> character ≠ 0 := by
    intro number listed
    obtain ⟨digit, small, rfl⟩ := digit_of_mem_decimalDigits listed
    interval_cases digit <;> decide
  unfold decimalText at member
  split_ifs at member
  · exact digits _ member
  · obtain sign | listed := List.mem_append.mp member
    · rintro rfl
      exact absurd sign (by decide)
    · exact digits _ listed

theorem length_decimalText_le {value : Nat} (small : value < 2 ^ 32) :
    (decimalText value).length ≤ 11 := by
  have digits : ∀ number, number < 10 ^ 10 ->
      (decimalDigits number).length ≤ 10 :=
    fun number => length_decimalDigits_le (by decide)
  unfold decimalText
  split_ifs
  · have := digits value (by omega)
    omega
  · have := digits (2 ^ 32 - value) (by omega)
    rw [List.length_append]
    show 1 + _ ≤ 11
    omega

/-- The line of the shards. -/
def shardsText (source target : Nat) : List UInt8 :=
  ascii "from:" ++ decimalText source ++ ascii " to:" ++ decimalText target

theorem zero_not_mem_shardsText (source target : Nat) :
    0 ∉ shardsText source target := by
  have captions : (0 : UInt8) ∉ ascii "from:" ∧ (0 : UInt8) ∉ ascii " to:" := by
    decide
  have number : ∀ value, (0 : UInt8) ∉ decimalText value :=
    fun value member => mem_decimalText member rfl
  simp [shardsText, captions, number]

theorem length_shardsText {source target : Nat} (from_small : source < 2 ^ 32)
    (to_small : target < 2 ^ 32) : (shardsText source target).length ≤ 31 := by
  have front := length_decimalText_le from_small
  have back := length_decimalText_le to_small
  simp only [shardsText, List.length_append]
  show 5 + _ + 4 + _ ≤ 31
  omega

/-- The pages of a transfer. -/
def TransferMessage.pages (message : TransferMessage) : List (List UInt8) :=
  [ascii "Amount", amountText message.amount.val,
    ascii "Address", addressText (.ofList message.recipientBytes),
    ascii "Shard", shardsText message.shardID.val message.toShardID.val]

/-- What the Nano X shows of the content of a transfer. -/
theorem approvalTxFlow_reviewed (message : TransferMessage)
    (display : Display .nanoX) :
    (transferReviewed message.content display).approvalTxFlow =
      [ascii "Review", ascii "Transaction"] ++ message.pages ++
        [ascii "Accept", ascii "and send", ascii "Reject"] := by
  have number : message.content.value.number = message.amount.val :=
    message.amount.number_stored
  let address := addressText (.ofList message.recipientBytes)
  let amount := amountText message.amount.val
  let shards := shardsText message.shardID.val message.toShardID.val
  have addressLength : address.length = 42 := length_addressText _
  have amountLength : amount.length ≤ 70 :=
    length_amountText message.amount.property
  have shardsLength : shards.length ≤ 31 :=
    length_shardsText message.shardID.property message.toShardID.property
  have counter : ∀ value, (uint32Bytes value).toList.length = 4 :=
    fun value => Region.length_toList _
  have line : shardText message.content = shards ++ [0] :=
    congrArg (· ++ [0]) (List.take_of_length_le
      (show shards.length ≤ 63 by omega))
  let addressed := display.put SignTxn.toAddr (address ++ [0])
  let valued := addressed.put SignTxn.amountStr (padded 78 amount)
  let counted := valued.put SignTxn.amountLength
    (uint32Bytes amount.length).toList
  have reviewed : transferReviewed message.content display =
      counted.put SignTxn.shardStr (shards ++ [0]) := by
    rw [transferReviewed, number, line]
    rfl
  have recipient : (counted.put SignTxn.shardStr
      (shards ++ [0])).strings.Holds SignTxn.toAddr 43 address :=
    (((Region.Holds.overwritten _ 1 (by omega) (by omega) (by decide)).frame
      _ _ (Or.inl (by decide))).frame _ _ (Or.inl (by decide))).frame _ _
        (Or.inl (by decide))
  have value : (counted.put SignTxn.shardStr
      (shards ++ [0])).strings.Holds SignTxn.amountStr 78 amount :=
    ((Region.Holds.overwritten _ (78 - amount.length) (by omega) (by omega)
      (by decide)).frame _ _ (Or.inl (by decide))).frame _ _
        (Or.inl (by decide))
  have shard : (counted.put SignTxn.shardStr
      (shards ++ [0])).strings.Holds SignTxn.shardStr (shards.length + 1)
        shards :=
    .overwritten _ 1 le_rfl (Nat.le_succ _) (by show 153 + _ ≤ 736; omega)
  have amountPage : (counted.put SignTxn.shardStr (shards ++ [0])).page
      "Amount" (⟨SignTxn.amountStr, 78⟩ : Place).start =
        [ascii "Amount", amount] :=
    page_of_holds value (by decide) "Amount"
      (by show _ < 78; omega) (zero_not_mem_amountText _)
  have addressPage : (counted.put SignTxn.shardStr (shards ++ [0])).page
      "Address" (⟨SignTxn.toAddr, 43⟩ : Place).start =
        [ascii "Address", address] :=
    page_of_holds recipient (by decide) "Address"
      (by show _ < 43; omega) (zero_not_mem_addressText _)
  have shardPage : (counted.put SignTxn.shardStr (shards ++ [0])).page
      "Shard" (⟨SignTxn.shardStr, shards.length + 1⟩ : Place).start =
        [ascii "Shard", shards] :=
    page_of_holds shard (by show 153 + (shards.length + 1) ≤ 736; omega)
      "Shard" (Nat.lt_succ_self _) (zero_not_mem_shardsText _ _)
  rw [reviewed, Display.approvalTxFlow, amountPage, addressPage, shardPage]
  rfl

end Transfers

/-! ## The decision -/

/-- The last word is the user's: agreeing signs the message, declining
refuses it. -/
structure Device.Decides (env : Env) (device : Device build)
    (message : List UInt8) (agree decline : Press) : Prop where
  agrees : ∃ next, (firmware env build).step device (.press agree) =
    .ok (next, [.hash message,
      .respond (env.signature (env.keccak message)) SW_OK])
  declines : ∃ next, (firmware env build).step device (.press decline) =
    .ok (next, [.respond [] SW_USER_REJECTED])

section Decides

variable {env : Env} {message : List UInt8}

/-- The buttons of a review that sign and reject. -/
theorem decides_of_sign {device : Device build} {agree decline : Press}
    (hashAt : Nat) (inside : hashAt + 32 ≤ build.stringsSize)
    (holds : device.ctx.message = message)
    (signs : pressed env build device agree = device.sign env hashAt)
    (rejects : pressed env build device decline = .ok device.reject) :
    device.Decides env message agree decline where
  agrees := by
    subst holds
    obtain ⟨display, written⟩ := (device.ctx.display.succeeds_write hashAt
      (env.keccak device.ctx.message)
      (by rwa [env.length_keccak])).exists_ok
    obtain ⟨outcome, ends⟩ : ∃ outcome, device.sign env hashAt =
        .ok outcome := ⟨_, by rw [Device.sign, written]; rfl⟩
    obtain ⟨thrown, -, effects⟩ := (ensures_sign hashAt).value _ ends
    refine ⟨outcome.device, ?_⟩
    rw [step_of_pressed agree (signs.trans ends),
      caught_of_quiet thrown, effects]
  declines := ⟨_, by
    rw [step_of_pressed decline rejects]
    rfl⟩

/-- The flows of the Nano X end with the decision. -/
theorem decides_flow {device : Device .nanoX}
    (screen : device.screen = .approvalTxFlow ∨
      ∃ flow, device.screen = .stakingFlow flow)
    (holds : device.ctx.message = message) :
    device.Decides env message .accept .cancel := by
  obtain screen | ⟨flow, screen⟩ := screen
  · apply decides_of_sign SignTxn.hash (by decide) holds
    · simp only [pressed, pressNanoX, screen, approvalTxFlowStep]
    · simp only [pressed, pressNanoX, screen, approvalTxFlowStep]
  · apply decides_of_sign SignStaking.hash (by decide) holds
    · simp only [pressed, pressNanoX, screen, stakingFlowStep]
    · simp only [pressed, pressNanoX, screen, stakingFlowStep]

end Decides

/-! ## Sessions -/

/-- A session leads to pages, and to the decision whether to sign the
message. -/
def ShowsPages (env : Env) (device : Device .nanoX) (front : List Apdu)
    (last : Apdu) (pages : List (List UInt8)) : Prop :=
  ∃ opened replies asking,
    (firmware env .nanoX).run (front.map .apdu) device =
      .ok (opened, replies) ∧
    (firmware env .nanoX).step opened (.apdu last) = .ok (asking, []) ∧
    asking.shown = pages ∧
    asking.Decides env (messageOf (front ++ [last])) .accept .cancel

section Sessions

variable {env : Env} {device : Device .nanoX} {front : List Apdu}
  {last : Apdu}

/-- The keys make no difference to whether the texts fit. -/
theorem fitsNanoX_of_withoutKeys {content expected : TxContent}
    (same : content.withoutKeys = expected) (fits : FitsNanoX expected) :
    FitsNanoX content := by
  subst same
  exact ⟨fits.amount, fits.commission, fits.delegation, fits.name⟩

/-- The operations that have no validator of their own always fit. -/
theorem fitsNanoX_content {message : StakingMessage}
    (fits : IsValidatorOperation message.directive ->
      FitsNanoX message.content) : FitsNanoX message.content := by
  have amount := Int256.length_stored_le
  have unnamed : 0 ∈ (Region.zero : Region 30).toList := by decide
  have other : ∀ directive, directive = DirectiveDelegate ∨
      directive = DirectiveUndelegate ∨ directive = DirectiveCollectRewards ->
        ¬IsValidatorOperation directive := by
    rintro directive (rfl | rfl | rfl) <;> decide
  cases message with
  | createValidator create => exact fits (Or.inl rfl)
  | editValidator edit => exact fits (Or.inr rfl)
  | delegate delegator validator int =>
      have not := other DirectiveDelegate (by simp)
      exact ⟨amount int, fun is => absurd is not, fun is => absurd is not,
        unnamed⟩
  | undelegate delegator validator int =>
      have not := other DirectiveUndelegate (by simp)
      exact ⟨amount int, fun is => absurd is not, fun is => absurd is not,
        unnamed⟩
  | collectRewards delegator =>
      have not := other DirectiveCollectRewards (by simp)
      exact ⟨Nat.zero_le _, fun is => absurd is not, fun is => absurd is not,
        unnamed⟩

theorem exists_directiveText_message (message : StakingMessage) :
    ∃ title, directiveText message.directive = some title := by
  cases message <;> exact ⟨_, rfl⟩

/-- What the Nano X shows of an encoded staking transaction is the
transaction's operation, and what is signed is the transaction. -/
theorem staking_showsPages {transaction : StakingTransaction}
    (fits : IsValidatorOperation transaction.message.directive ->
      FitsNanoX transaction.message.content)
    (short : transaction.encode.length ≤ 1020)
    (session : Signing.staking.Session front last)
    (sends : messageOf (front ++ [last]) = transaction.encode) :
    ShowsPages env device front last ([ascii "Verify", ascii "Staking"] ++
      transaction.message.pages ++ stakingDecision) := by
  obtain ⟨opened, replies, runs, -, presents, blank, steps⟩ :=
    run_session env device session (by rwa [sends])
  rw [sends] at presents
  have received : Received (Region.ofList transaction.encode)
      transaction.encode := received_ofList (by omega)
  have small := length_payload_lt received
  have accepts := stakingVerdict_encode transaction small
  obtain ⟨context, returns, reads⟩ :=
    (processStaking_accepts_iff received _).mpr ⟨true, accepts⟩
  rw [← reads] at accepts
  have stripped : context.content.withoutKeys =
      transaction.message.content := by
    rw [reads]
    exact Eq.trans transaction.message.same_read
      (by cases transaction.message <;> rfl)
  have directive : context.content.directive =
      transaction.message.directive := by
    rw [show context.content.directive =
      context.content.withoutKeys.directive from rfl, stripped]
    cases transaction.message <;> rfl
  obtain ⟨title, titled⟩ := exists_directiveText_message transaction.message
  rw [← directive] at titled
  have fitting := fitsNanoX_of_withoutKeys stripped (fitsNanoX_content fits)
  have zero := blank.eq (by decide)
  have parses : processStaking
      (Signing.staking.finished last opened.ctx).buf
      (Signing.staking.finished last opened.ctx).txContext =
        .ok (0, context) := by
    rw [presents.buf, presents.txContext]
    exact returns
  have raises : Signing.staking.review env (opened.received last)
      (Signing.staking.finished last opened.ctx) = _ :=
    parseStaking_raises_nanoX env (opened.received last) parses titled fitting
  rw [raises] at steps
  refine ⟨opened, replies, _, runs, steps, ?_, ?_⟩
  · have zeros : ∀ position, (Signing.staking.finished last
        opened.ctx).display.strings.get position = 0 := by
      rw [zero]
      exact Region.get_zero
    exact (stakingFlow_reviewed zeros fitting titled).trans
      (stakingPages_encoded stripped small accepts)
  · have message := message_of_presents presents (by omega)
    refine decides_flow (Or.inr ⟨_, rfl⟩) ?_
    rw [sends, ← message]
    rfl

/-- What the Nano X shows of an encoded transfer is the transfer, and what is
signed is the transfer. -/
theorem transfer_showsPages {message : TransferMessage}
    (short : message.encode.length ≤ 1020)
    (session : Signing.tx.Session front last)
    (sends : messageOf (front ++ [last]) = message.encode) :
    ShowsPages env device front last ([ascii "Review", ascii "Transaction"] ++
      message.pages ++ [ascii "Accept", ascii "and send", ascii "Reject"]) := by
  obtain ⟨opened, replies, runs, -, presents, -, steps⟩ :=
    run_session env device session (by rwa [sends])
  rw [sends] at presents
  have received : Received (Region.ofList message.encode) message.encode :=
    received_ofList (by omega)
  obtain ⟨context, returns, content⟩ :=
    (processTx_accepts_iff received message.content).mpr
      ⟨true, transferVerdict_encode message (length_payload_lt received)⟩
  have parses : processTx (Signing.tx.finished last opened.ctx).buf
      (Signing.tx.finished last opened.ctx).txContext = .ok (0, context) := by
    rw [presents.buf, presents.txContext]
    exact returns
  have few : context.content.value.length.toNat ≤ 32 := by
    rw [content]
    exact message.amount.length_stored_le
  have raises : Signing.tx.review env (opened.received last)
      (Signing.tx.finished last opened.ctx) = _ :=
    reviewTx_raises_nanoX env (opened.received last) parses few
  rw [raises] at steps
  refine ⟨opened, replies, _, runs, steps, ?_, ?_⟩
  · show (transferReviewed context.content _).approvalTxFlow = _
    rw [content]
    exact approvalTxFlow_reviewed message _
  · have message := message_of_presents presents (by omega)
    refine decides_flow (Or.inl rfl) ?_
    rw [sends, ← message]
    rfl

end Sessions

end LedgerOne
