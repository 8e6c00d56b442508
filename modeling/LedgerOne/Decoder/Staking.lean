import LedgerOne.Decoder.Store

/-!
# The layout of staking operations

What `processStaking` expects in each state of its machine, one definition for
each state, from the last fields to the first.  The directive decides which
fields follow; it is read from the content.
-/

namespace LedgerOne

open Layout

namespace Staking

/-- The directives that end with an amount. -/
abbrev EndsWithAmount (directive : Nat) : Prop :=
  directive = DirectiveDelegate ∨ directive = DirectiveUndelegate ∨
    directive = DirectiveCreateValidator

/-- The directives that go on with an amount after the validator. -/
abbrev Delegates (directive : Nat) : Prop :=
  directive = DirectiveDelegate ∨ directive = DirectiveUndelegate

/-- The directives whose message starts with the validator. -/
abbrev NamesValidatorFirst (directive : Nat) : Prop :=
  directive = DirectiveCreateValidator ∨ directive = DirectiveEditValidator

section Layouts

variable (content : TxContent)

def amount : Layout RlpStakingField TxContent :=
  if EndsWithAmount content.directive then
    .final .amount (some 32) fun length bytes =>
      Slot.value.putFinalInt length bytes content
  else .field .amount (some 32) fun _ => .refuse

/-- The signatures that are left. -/
def signatures : Nat -> Layout RlpStakingField TxContent
  | 0 => amount content
  | left + 1 => .field .blssignature none fun _ => signatures left

/-- The signatures of a list that announces `count` of them; with none the
parser never sees the last one. -/
def blssignature : Nat -> Layout RlpStakingField TxContent
  | 0 => .drain .blssignature none
  | count + 1 => signatures content (count + 1)

theorem blssignature_of_pos {count : Nat} (positive : 0 < count) :
    blssignature content count = signatures content count := by
  cases count with
  | zero => omega
  | succ count => rfl

/-- Record the number of keys or signatures that a list announces. -/
def setKeyCount (count : Nat) (content : TxContent) : TxContent :=
  { content with blsPubKeySize := count }

def blssigs : Layout RlpStakingField TxContent :=
  .enter .blssigs fun length =>
    blssignature (setKeyCount (length / (MAX_SIG_ADDRESS + 2)) content)
      (length / (MAX_SIG_ADDRESS + 2))

/-- Write a text into the list of keys that is shown. -/
def showText (offset : Nat) (bytes : List UInt8) (content : TxContent) :
    TxContent :=
  { content with blsKeyStr := content.blsKeyStr.splice offset bytes }

/-- Write the current key into the list of keys. -/
def showKeyAt (offset : Nat) (content : TxContent) : TxContent :=
  showText offset (toHex content.blsPubKey 10 ++ ascii "...") content

/-- A BLS key in the list, while there is room for it. -/
def showKey (index : Nat) (content : TxContent) : TxContent :=
  if index * 13 < BLS_KEY_STR_LEN then showKeyAt (index * 13) content
  else content

/-- The BLS keys that are left, from the one at an index on. -/
def keys (content : TxContent) (index : Nat) :
    Nat -> Layout RlpStakingField TxContent
  | 0 => blssigs content
  | left + 1 => .field .blspubkey (some 48) fun bytes =>
      keys (showKey index (Slot.blsPubKey.putBytes bytes content))
        (index + 1) left

/-- The keys of a list that announces `count` of them; with none the parser
never sees the last one. -/
def blspubkey (index : Nat) : Nat -> Layout RlpStakingField TxContent
  | 0 => .drain .blspubkey (some 48)
  | count + 1 => keys content index (count + 1)

theorem blspubkey_of_pos {index count : Nat} (positive : 0 < count) :
    blspubkey content index count = keys content index count := by
  cases count with
  | zero => omega
  | succ count => rfl

def slotpubkeys : Layout RlpStakingField TxContent :=
  .enter .slotpubkeys fun length =>
    blspubkey (setKeyCount (length / (MAX_BLS_ADDRESS + 1)) content) 0
      (length / (MAX_BLS_ADDRESS + 1))

/-- The status of an edited validator, in the place of the recipient. -/
def showStatus (content : TxContent) : TxContent :=
  { content with
    destination := content.destination.splice 0 (statusText content.fromShard) }

def editactive : Layout RlpStakingField TxContent :=
  .final .editactive (some 4) fun length bytes =>
    showStatus (Slot.fromShard.putShard length bytes content)

def slotkeytoaddsignature : Layout RlpStakingField TxContent :=
  .field .slotkeytoaddsignature none fun _ => editactive content

def slotkeytoadd : Layout RlpStakingField TxContent :=
  .field .slotkeytoadd (some 48) fun bytes =>
    if content.directive = DirectiveEditValidator then
      slotkeytoaddsignature (showKeyAt 25
        (Slot.blsPubKey.putBytes bytes
          (showText 20 (ascii ",add:") content)))
    else .refuse

def slotkeytoremove : Layout RlpStakingField TxContent :=
  .field .slotkeytoremove (some 48) fun bytes =>
    slotkeytoadd (showKeyAt 7
      (Slot.blsPubKey.putBytes bytes
        (showText 0 (ascii "remove:") content)))

def maxtotaldelegation : Layout RlpStakingField TxContent :=
  .field .maxtotaldelegation (some 32) fun bytes =>
    if content.directive = DirectiveCreateValidator then
      slotpubkeys (Slot.maxTotalDelegation.putInt bytes content)
    else if content.directive = DirectiveEditValidator then
      slotkeytoremove (Slot.maxTotalDelegation.putInt bytes content)
    else .refuse

def minselfdelegation : Layout RlpStakingField TxContent :=
  .field .minselfdelegation (some 32) fun bytes =>
    maxtotaldelegation (Slot.minSelfDelegation.putInt bytes content)

def maxchangerateValue : Layout RlpStakingField TxContent :=
  .field .maxchangerateValue (some 32) fun bytes =>
    minselfdelegation (Slot.maxChangeRate.putInt bytes content)

def maxchangerate : Layout RlpStakingField TxContent :=
  .enter .maxchangerate fun _ => maxchangerateValue content

def maxrateValue : Layout RlpStakingField TxContent :=
  .field .maxrateValue (some 32) fun bytes =>
    maxchangerate (Slot.maxRate.putInt bytes content)

def maxrate : Layout RlpStakingField TxContent :=
  .enter .maxrate fun _ => maxrateValue content

def rateValue : Layout RlpStakingField TxContent :=
  .field .rateValue (some 32) fun bytes =>
    if content.directive = DirectiveEditValidator then
      minselfdelegation (Slot.rate.putInt bytes content)
    else maxrate (Slot.rate.putInt bytes content)

def rate : Layout RlpStakingField TxContent :=
  .enter .rate fun length =>
    if content.directive = DirectiveEditValidator ∧ length = 0 then
      minselfdelegation content
    else rateValue content

def commissionrates : Layout RlpStakingField TxContent :=
  .enter .commissionrates fun _ => rate content

def details : Layout RlpStakingField TxContent :=
  .field .details none fun _ =>
    if content.directive = DirectiveEditValidator then rate content
    else commissionrates content

def securitycontact : Layout RlpStakingField TxContent :=
  .field .securitycontact none fun _ => details content

def website : Layout RlpStakingField TxContent :=
  .field .website none fun _ => securitycontact content

def identity : Layout RlpStakingField TxContent :=
  .field .identity none fun _ => website content

/-- The content with its name cleared. -/
def clearName (content : TxContent) : TxContent :=
  { content with name := .zero }

def name : Layout RlpStakingField TxContent :=
  .field .name (some 30) fun bytes =>
    identity (Slot.name.putBytes bytes (clearName content))

def description : Layout RlpStakingField TxContent :=
  .enter .description fun _ => name content

def validatoraddr : Layout RlpStakingField TxContent :=
  .field .validatoraddr (some 20) fun bytes =>
    if Delegates content.directive then
      amount (Slot.validatorAddress.putBytes bytes content)
    else description (Slot.validatorAddress.putBytes bytes content)

def delegatoraddr : Layout RlpStakingField TxContent :=
  if content.directive = DirectiveCollectRewards then
    .final .delegatoraddr (some 20) fun _ bytes =>
      Slot.destination.putBytes bytes content
  else .field .delegatoraddr (some 20) fun bytes =>
    validatoraddr (Slot.destination.putBytes bytes content)

def stakemessage : Layout RlpStakingField TxContent :=
  .enter .stakemessage fun _ =>
    if NamesValidatorFirst content.directive then validatoraddr content
    else delegatoraddr content

def directive : Layout RlpStakingField TxContent :=
  .field .directive (some 4) fun bytes =>
    stakemessage (putDirective bytes.length bytes content)

/-- The layout of a whole staking operation. -/
def message : Layout RlpStakingField TxContent :=
  .enter .content fun _ => directive content

/-- What `processStaking` still expects in a state between two fields. -/
def expected (keyIndex : Nat) (field : RlpStakingField) :
    Layout RlpStakingField TxContent :=
  match field with
  | .content => message content
  | .directive => directive content
  | .stakemessage => stakemessage content
  | .delegatoraddr => delegatoraddr content
  | .validatoraddr => validatoraddr content
  | .amount => amount content
  | .description => description content
  | .name => name content
  | .identity => identity content
  | .website => website content
  | .securitycontact => securitycontact content
  | .details => details content
  | .commissionrates => commissionrates content
  | .rate => rate content
  | .rateValue => rateValue content
  | .maxrate => maxrate content
  | .maxrateValue => maxrateValue content
  | .maxchangerate => maxchangerate content
  | .maxchangerateValue => maxchangerateValue content
  | .minselfdelegation => minselfdelegation content
  | .maxtotaldelegation => maxtotaldelegation content
  | .slotpubkeys => slotpubkeys content
  | .blspubkey =>
      blspubkey content keyIndex (content.blsPubKeySize - keyIndex)
  | .slotkeytoremove => slotkeytoremove content
  | .slotkeytoadd => slotkeytoadd content
  | .blssigs => blssigs content
  | .blssignature =>
      blssignature content (content.blsPubKeySize - keyIndex)
  | .slotkeytoaddsignature => slotkeytoaddsignature content
  | .editactive => editactive content
  | _ => .refuse

end Layouts

/-! ## The number of headers entered -/

section EntersAtMost

variable (content : TxContent) (more : Nat)

theorem amount_entersAtMost : (amount content).EntersAtMost more := by
  unfold amount
  split <;> simp [EntersAtMost]

theorem signatures_entersAtMost (left : Nat) :
    (signatures content left).EntersAtMost more := by
  induction left with
  | zero => exact amount_entersAtMost content more
  | succ left inductionHypothesis =>
      simpa [signatures, EntersAtMost] using inductionHypothesis

theorem blssigs_entersAtMost : (blssigs content).EntersAtMost (more + 1) := by
  intro length
  dsimp only [blssignature]
  split
  · simp [EntersAtMost]
  · exact signatures_entersAtMost _ _ _

theorem keys_entersAtMost (index left : Nat) :
    (keys content index left).EntersAtMost (more + 1) := by
  induction left generalizing content index with
  | zero => exact blssigs_entersAtMost content more
  | succ left inductionHypothesis =>
      simpa [keys, EntersAtMost] using fun bytes => inductionHypothesis _ _

theorem slotpubkeys_entersAtMost :
    (slotpubkeys content).EntersAtMost (more + 2) := by
  intro length
  dsimp only [blspubkey]
  split
  · simp [EntersAtMost]
  · exact keys_entersAtMost _ _ _ _

theorem slotkeytoremove_entersAtMost :
    (slotkeytoremove content).EntersAtMost more := by
  simp only [slotkeytoremove, EntersAtMost, slotkeytoadd]
  intro removed added
  split <;> simp [slotkeytoaddsignature, editactive, EntersAtMost]

theorem maxtotaldelegation_entersAtMost :
    (maxtotaldelegation content).EntersAtMost (more + 2) := by
  simp only [maxtotaldelegation, EntersAtMost]
  intro bytes
  split_ifs
  · exact slotpubkeys_entersAtMost _ _
  · exact slotkeytoremove_entersAtMost _ _
  · simp [EntersAtMost]

theorem rate_entersAtMost : (rate content).EntersAtMost (more + 5) := by
  intro length
  dsimp only
  split_ifs
  · simpa [minselfdelegation, EntersAtMost] using fun _ =>
      maxtotaldelegation_entersAtMost _ _
  · simp only [rateValue, EntersAtMost]
    intro bytes
    split_ifs
    · simpa [minselfdelegation, EntersAtMost] using fun _ =>
        maxtotaldelegation_entersAtMost _ _
    · simpa [maxrate, maxrateValue, maxchangerate, maxchangerateValue,
        minselfdelegation, EntersAtMost] using fun _ _ _ =>
        maxtotaldelegation_entersAtMost _ _

theorem details_entersAtMost : (details content).EntersAtMost (more + 6) := by
  simp only [details, EntersAtMost]
  intro bytes
  split_ifs
  · exact rate_entersAtMost _ _
  · simpa [commissionrates, EntersAtMost] using rate_entersAtMost _ _

theorem validatoraddr_entersAtMost :
    (validatoraddr content).EntersAtMost (more + 7) := by
  simp only [validatoraddr, EntersAtMost]
  intro bytes
  split_ifs
  · exact amount_entersAtMost _ _
  · simpa [description, name, identity, website, securitycontact,
      EntersAtMost] using fun _ => details_entersAtMost _ _

theorem message_entersAtMost : (message content).EntersAtMost 9 := by
  simp only [message, directive, stakemessage, EntersAtMost]
  intro _ bytes _
  split_ifs
  · exact validatoraddr_entersAtMost _ 0
  · unfold delegatoraddr
    split_ifs
    · simp [EntersAtMost]
    · simpa [EntersAtMost] using fun _ => validatoraddr_entersAtMost _ 0

end EntersAtMost

end Staking

end LedgerOne
