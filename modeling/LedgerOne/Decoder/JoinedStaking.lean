import LedgerOne.Decoder.Joined
import LedgerOne.Decoder.Staking
import LedgerOne.Lib.Unfolding

/-!
# The machine of `processStaking` in one piece of memory

Where the components of the content lie in one piece, a field that is longer
than its array may overwrite the directive or the number of keys, and the
machine goes on with what it finds there.  So the place of the machine carries
the content, and every item decides what is expected next.
-/

namespace LedgerOne

open Layout Staking

/-- Where the machine of `processStaking` stands between two fields. -/
structure StakingPlace where
  content : TxContent
  keyIndex : Nat
  field : RlpStakingField

/-- The place of a parser context. -/
def TxContext.place (context : TxContext) : StakingPlace :=
  ⟨context.content, context.currentBlsKeyIndex, context.stakeCurrentField⟩

/-- Go on in a field, with some content. -/
def StakingPlace.go (place : StakingPlace) (field : RlpStakingField)
    (content : TxContent) : StakingPlace :=
  { place with field := field, content := content }

namespace JoinedStaking

/-- What each state of the machine reads, and where it goes. -/
def node (behind : Nat) (place : StakingPlace) :
    Node StakingPlace (Option TxContent) :=
  let content := place.content
  let go := place.go
  match place.field with
  | .content => .enter fun _ => go .directive content
  | .directive => .field (room behind 272) fun bytes =>
      some (go .stakemessage (content.poke 272 bytes))
  | .stakemessage => .enter fun _ =>
      go (if NamesValidatorFirst content.directive then .validatoraddr
        else .delegatoraddr) content
  | .delegatoraddr =>
      -- The directive lies before the recipient and is what it was.
      if content.directive = DirectiveCollectRewards then
        .final (room behind 276) fun _ bytes => some (content.poke 276 bytes)
      else .field (room behind 276) fun bytes =>
        some (go .validatoraddr (content.poke 276 bytes))
  | .validatoraddr => .field (room behind 296) fun bytes =>
      let after := content.poke 296 bytes
      some (go (if Delegates after.directive then .amount else .description)
        after)
  | .amount => .final (room behind 66) fun length bytes =>
      let after := Slot.value.pokeFinalInt length bytes content
      if EndsWithAmount after.directive then some after else none
  | .description => .enter fun _ => go .name content
  | .name => .field (room behind 498) fun bytes =>
      some (go .identity ((clearName content).poke 498 bytes))
  | .identity => .field none fun _ => some (go .website content)
  | .website => .field none fun _ => some (go .securitycontact content)
  | .securitycontact => .field none fun _ => some (go .details content)
  | .details => .field none fun _ =>
      some (go (if content.directive = DirectiveEditValidator then .rate
        else .commissionrates) content)
  | .commissionrates => .enter fun _ => go .rate content
  | .rate => .enter fun length =>
      go (if content.directive = DirectiveEditValidator ∧ length = 0 then
        .minselfdelegation else .rateValue) content
  | .rateValue => .field (room behind 99) fun bytes =>
      let after := Slot.rate.pokeInt bytes content
      some (go (if after.directive = DirectiveEditValidator then
        .minselfdelegation else .maxrate) after)
  | .maxrate => .enter fun _ => go .maxrateValue content
  | .maxrateValue => .field (room behind 132) fun bytes =>
      some (go .maxchangerate (Slot.maxRate.pokeInt bytes content))
  | .maxchangerate => .enter fun _ => go .maxchangerateValue content
  | .maxchangerateValue => .field (room behind 165) fun bytes =>
      some (go .minselfdelegation (Slot.maxChangeRate.pokeInt bytes content))
  | .minselfdelegation => .field (room behind 198) fun bytes =>
      some (go .maxtotaldelegation
        (Slot.minSelfDelegation.pokeInt bytes content))
  | .maxtotaldelegation => .field (room behind 231) fun bytes =>
      let after := Slot.maxTotalDelegation.pokeInt bytes content
      if after.directive = DirectiveCreateValidator then
        some (go .slotpubkeys after)
      else if after.directive = DirectiveEditValidator then
        some (go .slotkeytoremove after)
      else none
  | .slotpubkeys => .enter fun length =>
      ⟨setKeyCount (length / (MAX_BLS_ADDRESS + 1)) content, 0, .blspubkey⟩
  | .blspubkey => .field (room behind 316) fun bytes =>
      let after := content.poke 316 bytes
      some ⟨showKey place.keyIndex after, place.keyIndex + 1,
        if place.keyIndex + 1 = after.blsPubKeySize then .blssigs
        else .blspubkey⟩
  | .blssigs => .enter fun length =>
      ⟨setKeyCount (length / (MAX_SIG_ADDRESS + 2)) content, 0, .blssignature⟩
  | .blssignature => .field none fun _ =>
      some ⟨content, place.keyIndex + 1,
        if place.keyIndex + 1 = content.blsPubKeySize then .amount
        else .blssignature⟩
  | .slotkeytoremove => .field (room behind 316) fun bytes =>
      some (go .slotkeytoadd (showKeyAt 7
        ((showText 0 (ascii "remove:") content).poke 316 bytes)))
  | .slotkeytoadd => .field (room behind 316) fun bytes =>
      let after := (showText 20 (ascii ",add:") content).poke 316 bytes
      if after.directive = DirectiveEditValidator then
        some (go .slotkeytoaddsignature (showKeyAt 25 after))
      else none
  | .slotkeytoaddsignature => .field none fun _ =>
      some (go .editactive content)
  | .editactive => .final (room behind 264) fun length bytes =>
      some (showStatus (Slot.fromShard.pokeShard length bytes content))
  | _ => .refuse

/-- The machine of `processStaking`. -/
def course (behind : Nat) :
    Course StakingPlace RlpStakingField (Option TxContent) where
  tag := StakingPlace.field
  node := node behind

/-- How many headers are at most entered from a field on. -/
def enters : RlpStakingField -> Nat
  | .content => 9
  | .directive | .stakemessage => 8
  | .delegatoraddr | .validatoraddr | .description => 7
  | .name | .identity | .website | .securitycontact | .details
  | .commissionrates => 6
  | .rate => 5
  | .rateValue | .maxrate => 4
  | .maxrateValue | .maxchangerate => 3
  | .maxchangerateValue | .minselfdelegation | .maxtotaldelegation
  | .slotpubkeys => 2
  | .blspubkey | .blssigs => 1
  | _ => 0

/-- The fields in which the machine reads something. -/
def Reads : RlpStakingField -> Prop
  | .none | .nonce | .gasprice | .gaslimit | .done | .past _ => False
  | _ => True

theorem node_ne_refuse {behind : Nat} {place : StakingPlace}
    (reads : Reads place.field) : (course behind).node place ≠ .refuse := by
  obtain ⟨content, keyIndex, field⟩ := place
  cases field <;> first | exact reads.elim | simp [course, node]
  case delegatoraddr => split <;> simp

/-- Entering a header leads to a field that is read, with fewer headers
left. -/
theorem enter_goes {behind : Nat} {place : StakingPlace}
    {next : Nat -> StakingPlace}
    (here : (course behind).node place = .enter next) (length : Nat) :
    enters (next length).field < enters place.field ∧
      Reads (next length).field := by
  obtain ⟨content, keyIndex, field⟩ := place
  cases field <;> simp only [course, node, reduceCtorEq] at here
  case delegatoraddr => split at here <;> cases here
  all_goals
    obtain rfl := Node.enter.inj here
    dsimp only [StakingPlace.go]
    try split
  all_goals exact ⟨by decide, trivial⟩

/-- A field that is taken leads to a field that is read. -/
theorem field_goes {behind : Nat} {place after : StakingPlace}
    {capacity : Option Nat} {next : List UInt8 -> Option StakingPlace}
    {bytes : List UInt8}
    (here : (course behind).node place = .field capacity next)
    (goesOn : next bytes = some after) :
    enters after.field ≤ enters place.field ∧ Reads after.field := by
  obtain ⟨content, keyIndex, field⟩ := place
  cases field <;> simp only [course, node, reduceCtorEq] at here
  case delegatoraddr =>
    split at here
    · cases here
    · obtain ⟨-, rfl⟩ := Node.field.inj here
      obtain rfl := Option.some.inj goesOn
      exact ⟨by simp [enters, StakingPlace.go], trivial⟩
  all_goals
    obtain ⟨-, rfl⟩ := Node.field.inj here
    dsimp only [StakingPlace.go] at goesOn
  case maxtotaldelegation | slotkeytoadd =>
    split_ifs at goesOn <;> obtain rfl := Option.some.inj goesOn
    all_goals exact ⟨by simp [enters], trivial⟩
  all_goals
    obtain rfl := Option.some.inj goesOn
    dsimp only
    try split
  all_goals exact ⟨by simp [enters], trivial⟩

theorem course_bounds (behind : Nat) :
    (course behind).Bounds fun place => enters place.field where
  enter here length := (enter_goes here length).1
  field here goesOn := (field_goes here goesOn).1

/-- The layout of a staking operation that the buffer can hold: no more items
than bytes, and the headers that are entered. -/
def message (behind : Nat) : Layout RlpStakingField (Option TxContent) :=
  (course behind).unfold (1024 + 9 + 1) ⟨.zero, 0, .content⟩

theorem message_entersAtMost (behind : Nat) :
    (message behind).EntersAtMost 9 :=
  (course_bounds behind).entersAtMost (by decide)

end JoinedStaking

end LedgerOne
