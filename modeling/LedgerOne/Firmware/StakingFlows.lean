import LedgerOne.Firmware.Arrays
import LedgerOne.Firmware.Main
import LedgerOne.Firmware.StakingTexts

/-!
# The review of a staking operation on the Nano X

All strings of a flow are composed when the message is finished, each in an
array of its own.
-/

namespace LedgerOne

open StakingArray

/-! ## The operations -/

/-- The name on the Nano X, "null" for the empty one. -/
def Operation.name (content : TxContent) : Operation .nanoX := fun display =>
  match nameLength content display with
  | .error _ => []
  | .ok length => [⟨nameStr, 0, if length = 0 then ascii "null"
      else (content.name.toList ++ display.strings.toList).take length⟩]

section Operations

variable (content : TxContent)

/-- The amount of an operation. -/
def valueOperations : List (Operation .nanoX) :=
  [.number content.value,
    .amount amountStr 0 (some (fullStrLength .nanoX)) content.value]

/-- The operations of `showOwnAmount`. -/
def ownAmountOperations : List (Operation .nanoX) :=
  if content.directive = DirectiveCreateValidator then valueOperations content
  else []

/-- The address of the validator and the commission rates. -/
def commissionOperations : List (Operation .nanoX) :=
  [.address validatorAddr content.validatorAddress, .clear commissionRateStr] ++
    partsOperations commissionRateStr 0 (commissionParts content)

/-- The limits of the delegation, and the keys. -/
def delegationOperations : List (Operation .nanoX) :=
  partsOperations delegationStr 0 (limitParts content) ++
    [.clear fullStr, .put fullStr 0 (shownKeys content)]

/-- The operations of `composeValidatorNanoX`. -/
def validatorOperations : List (Operation .nanoX) :=
  commissionOperations content ++
    (ownAmountOperations content ++ delegationOperations content)

/-- The operations of `composeDelegatorNanoX`. -/
def delegatorOperations : List (Operation .nanoX) :=
  .address delegatorAddr content.destination ::
    if content.directive = DirectiveCollectRewards then []
    else .address validatorAddr content.validatorAddress ::
      valueOperations content

/-- The operations of `composeNanoX`. -/
def composeOperations : List (Operation .nanoX) :=
  if IsValidatorOperation content.directive then validatorOperations content
  else delegatorOperations content

/-- The name, or "null" for the empty one. -/
def nameStrText : List UInt8 :=
  if nameText content = [] then ascii "null" else nameText content

/-- The operations of `showStatusNanoX`. -/
def statusOperations : List (Operation .nanoX) :=
  if content.directive = DirectiveEditValidator then
    [.put statusStr 0 (statusStrText content.fromShard)]
  else []

/-- The operations on a finished message on the Nano X. -/
def reviewStakingOperationsNanoX (title : List UInt8) :
    List (Operation .nanoX) :=
  [.put (partialStr .nanoX) 0 title, .clear fullStr] ++
    (composeOperations content ++ .name content :: statusOperations content)

end Operations

theorem length_nameStrText (content : TxContent) :
    (nameStrText content).length ≤ 30 := by
  unfold nameStrText
  split_ifs
  · decide
  · exact length_nameText content

theorem length_statusStrText (status : Nat) :
    (statusStrText status).length ≤ 8 := by
  unfold statusStrText
  split_ifs <;> decide

/-- The texts of an operation fit the arrays of the Nano X, with the NULs
behind them and the 78 bytes that an amount clears. -/
structure FitsNanoX (content : TxContent) : Prop where
  amount : content.value.length.toNat ≤ 32
  commission : IsValidatorOperation content.directive ->
    (∀ part ∈ commissionParts content, part.Converts) ∧
      (partsText (commissionParts content)).length < 132
  delegation : IsValidatorOperation content.directive ->
    (∀ part ∈ limitParts content, part.Converts) ∧
      PartsFit 132 0 (limitParts content)
  name : 0 ∈ content.name.toList

/-! ## What the source composes -/

section Composing

variable {content : TxContent} (fits : FitsNanoX content)

include fits

theorem writeStakingAmount_value (display : Display .nanoX) :
    writeStakingAmount SignStaking.amountStr
        (some (SignStaking.fullStrLength .nanoX)) content.value display =
      .ok (display.performed (writesOf (valueOperations content) display),
        amountConversion content.value.number) := by
  obtain ⟨scratch, numbers, numbered, -⟩ :=
    writeNumberBuf_eq fits.amount display
  have performed : scratch.performed (Operation.amount amountStr 0
      (some (fullStrLength .nanoX)) content.value scratch) = _ :=
    performed_amount amountStr 0 (some (fullStrLength .nanoX)) fits.amount
      scratch (by decide)
  rw [writeStakingAmount, numbers, bind_ok, valueOperations,
    performed_writesOf_cons, numbered, performed_writesOf_cons, performed]
  exact scratch.writeAmount_some fits.amount (by decide) (by decide)

theorem showOwnAmount_eq (display : Display .nanoX) :
    showOwnAmount content display =
      .ok (display.performed (writesOf (ownAmountOperations content) display),
        some 0) := by
  unfold showOwnAmount ownAmountOperations
  by_cases creates : content.directive = DirectiveCreateValidator
  · rw [if_pos creates, if_pos creates, writeStakingAmount_value fits]
    rfl
  · rw [if_neg creates, if_neg creates]
    rfl

omit fits in
/-- The limits of the delegation as parts. -/
theorem composeLimits_eq (content : TxContent) {β : Type}
    (display : Display .nanoX) (next : Composed .nanoX -> Except Fault β) :
    (appendText SignStaking.delegationStr (ascii "min:") (display, some 0) >>=
      fun composed => appendAmount SignStaking.delegationStr
        content.minSelfDelegation composed >>=
      fun composed => appendText SignStaking.delegationStr (ascii ",max:")
        composed >>=
      fun composed => appendAmount SignStaking.delegationStr
        content.maxTotalDelegation composed >>= next) =
      composeParts SignStaking.delegationStr (limitParts content)
        (display, some 0) >>= next := by
  simp [composeParts, limitParts, Part.append]

theorem composeValidatorNanoX_eq
    (validator : IsValidatorOperation content.directive)
    (display : Display .nanoX) :
    composeValidatorNanoX content display =
      .ok (display.performed (writesOf (validatorOperations content) display),
        some 0) := by
  obtain ⟨ratesConvert, short⟩ := fits.commission validator
  obtain ⟨limitsConvert, room⟩ := fits.delegation validator
  have keys := length_shownKeys content
  have rates : ∀ display : Display .nanoX,
      composeParts SignStaking.commissionRateStr (commissionParts content)
        (display, some 0) = _ :=
    composeParts_eq (show commissionRateStr.start + 476 ≤ _ by decide)
      ratesConvert (partsFit_of_length (by omega))
  have limits : ∀ display : Display .nanoX,
      composeParts SignStaking.delegationStr (limitParts content)
        (display, some 0) = _ :=
    composeParts_eq (show delegationStr.start + 132 ≤ _ by decide)
      limitsConvert room
  unfold composeValidatorNanoX
  rw [Display.writeAddress_eq _ _ (by decide), bind_ok,
    Display.clear_eq _ (by decide), bind_ok, composeCommission_eq, rates,
    bind_ok]
  dsimp only
  rw [if_neg (Option.some_ne_none _), showOwnAmount_eq fits, bind_ok]
  dsimp only
  rw [if_neg (Option.some_ne_none _), composeLimits_eq, limits, bind_ok]
  dsimp only
  rw [if_neg (Option.some_ne_none _), Display.clear_eq _ (by decide), bind_ok,
    Display.write_eq _ (by show 32 + _ ≤ 736; omega), bind_ok]
  unfold validatorOperations commissionOperations delegationOperations
  simp only [performed_writesOf_append]
  rfl

theorem composeDelegatorNanoX_eq (display : Display .nanoX) :
    composeDelegatorNanoX content display =
      .ok (display.performed (writesOf (delegatorOperations content) display),
        some 0) := by
  unfold composeDelegatorNanoX delegatorOperations
  rw [Display.writeAddress_eq _ _ (by decide), bind_ok]
  by_cases collects : content.directive = DirectiveCollectRewards
  · rw [if_pos collects, if_pos collects]
    rfl
  · rw [if_neg collects, if_neg collects,
      Display.writeAddress_eq _ _ (by decide), bind_ok,
      writeStakingAmount_value fits]
    rfl

theorem composeNanoX_eq (display : Display .nanoX) :
    composeNanoX content display =
      .ok (display.performed (writesOf (composeOperations content) display),
        some 0) := by
  unfold composeNanoX composeOperations
  split_ifs with validator
  · exact composeValidatorNanoX_eq fits validator display
  · exact composeDelegatorNanoX_eq fits display

/-- A name with a NUL is copied up to it. -/
theorem name_eq (display : Display .nanoX) :
    Operation.name content display = [⟨nameStr, 0, nameStrText content⟩] := by
  rw [Operation.name, nameLength_eq content (.inl fits.name)]
  dsimp only
  rw [take_nameText, nameStrText]
  simp only [List.length_eq_zero_iff]

theorem showName_eq (display : Display .nanoX) :
    showName content display =
      .ok (display.performed (Operation.name content display)) := by
  have short := length_nameText content
  rw [name_eq fits, showName, nameLength_eq content (.inl fits.name), bind_ok,
    nameStrText]
  by_cases unnamed : nameText content = []
  · rw [if_pos (by rw [unnamed]; rfl), if_pos unnamed,
      Display.write_eq _ (by decide)]
    rfl
  · rw [if_neg (by simpa using unnamed), if_neg unnamed, copyName,
      nameLength_eq content (.inl fits.name), bind_ok, take_nameText,
      Display.write_eq _ (by show 652 + _ ≤ 736; omega)]
    rfl

/-- What is left when the review is raised. -/
theorem reviewStakingNanoX_eq (env : Env) (device : Device .nanoX)
    {ctx : Ctx .nanoX} (keeps : ctx.txContent = content) :
    let composed := ctx.display.performed (writesOf
      (.clear fullStr :: (composeOperations content ++
        .name content :: statusOperations content)) ctx.display)
    reviewStakingNanoX env device ctx =
      .ok (device.proceed { ctx with display := composed }
        (.stakingFlow (flowOf content.directive))) := by
  intro composed
  have status : ∀ display : Display .nanoX,
      showStatusNanoX content display = .ok (display.performed
        (writesOf (statusOperations content) display)) := by
    intro display
    have short := length_statusStrText content.fromShard
    unfold showStatusNanoX statusOperations
    split_ifs
    · exact Display.write_eq _ (by show 682 + _ ≤ 736; omega)
    · rfl
  subst keeps
  unfold reviewStakingNanoX
  rw [Display.clear_eq _ (by decide), bind_ok, composeNanoX_eq fits, bind_ok]
  dsimp only
  rw [if_neg (Option.some_ne_none _), showName_eq fits, bind_ok, status,
    bind_ok]
  dsimp only [composed]
  rw [performed_writesOf_cons, performed_writesOf_append,
    performed_writesOf_cons]
  rfl

end Composing

/-! ## What is left in the arrays -/

/-- The arrays of `composeNanoX`. -/
def composedArrays : List Place :=
  [delegatorAddr, validatorAddr, commissionRateStr, delegationStr, amountStr,
    fullStr, hashArray, fullStrLength .nanoX]

section Confined

variable {content : TxContent} (fits : FitsNanoX content)

include fits

theorem confined_valueOperations :
    Confined [hashArray, amountStr, fullStrLength .nanoX]
      (valueOperations content) :=
  .cons (Operation.stays_number _) (Operation.writesTo_number (by simp) _)
    (.single (Operation.stays_amount fits.amount (by decide) (by decide))
      (Operation.writesTo_amount (by simp) _ (by simp) _))

theorem confined_commissionOperations
    (validator : IsValidatorOperation content.directive) :
    Confined [validatorAddr, commissionRateStr, hashArray]
      (commissionOperations content) := by
  obtain ⟨converts, short⟩ := fits.commission validator
  have parts : Confined [commissionRateStr, hashArray]
      (partsOperations commissionRateStr 0 (commissionParts content) :
        List (Operation .nanoX)) :=
    .parts converts (partsFit_of_room (room_commissionParts content) (by
      show 0 + _ ≤ 132
      omega))
  refine .append (.cons (Operation.stays_address _ (by decide))
    (Operation.writesTo_address (by simp) _)
    (.single (Operation.stays_clear _)
      (Operation.writesTo_put (by simp) _ _))) (parts.mono (by simp))

theorem confined_delegationOperations
    (validator : IsValidatorOperation content.directive) :
    Confined [delegationStr, hashArray, fullStr]
      (delegationOperations content) := by
  obtain ⟨converts, room⟩ := fits.delegation validator
  have keys := length_shownKeys content
  have parts : Confined [delegationStr, hashArray]
      (partsOperations delegationStr 0 (limitParts content) :
        List (Operation .nanoX)) := .parts converts room
  refine .append (parts.mono (by simp))
    (.cons (Operation.stays_clear _) (Operation.writesTo_put (by simp) _ _)
      (.single (Operation.stays_put ?_)
        (Operation.writesTo_put (by simp) _ _)))
  show 0 + _ ≤ 132
  omega

theorem confined_ownAmountOperations :
    Confined [hashArray, amountStr, fullStrLength .nanoX]
      (ownAmountOperations content) := by
  unfold ownAmountOperations
  split_ifs
  · exact confined_valueOperations fits
  · exact .nil

theorem confined_composeOperations :
    Confined composedArrays (composeOperations content) := by
  have value := (confined_valueOperations fits).mono
    (show _ ⊆ composedArrays by simp [composedArrays])
  have own := (confined_ownAmountOperations fits).mono
    (show _ ⊆ composedArrays by simp [composedArrays])
  have validator : Confined composedArrays
      [(.address validatorAddr content.validatorAddress :
        Operation .nanoX)] :=
    .single (Operation.stays_address _ (by decide))
      (Operation.writesTo_address (by simp [composedArrays]) _)
  have delegator : Confined composedArrays
      [(.address delegatorAddr content.destination : Operation .nanoX)] :=
    .single (Operation.stays_address _ (by decide))
      (Operation.writesTo_address (by simp [composedArrays]) _)
  unfold composeOperations validatorOperations delegatorOperations
  split_ifs with operation collects
  · have commission := (confined_commissionOperations fits operation).mono
      (show _ ⊆ composedArrays by simp [composedArrays])
    have delegation := (confined_delegationOperations fits operation).mono
      (show _ ⊆ composedArrays by simp [composedArrays])
    exact commission.append (own.append delegation)
  · exact delegator
  · exact delegator.append (validator.append value)

omit fits in
theorem confined_title {title : List UInt8} (few : title.length ≤ 17) :
    Confined [partialStr .nanoX]
      [(.put (partialStr .nanoX) 0 title : Operation .nanoX)] :=
  .single (Operation.stays_put (by show 0 + title.length ≤ 18; omega))
    (Operation.writesTo_put (by simp) _ _)

theorem confined_name : Confined [nameStr] [Operation.name content] := by
  have short := length_nameStrText content
  refine .single ?_ ?_
  · intro display write member
    rw [name_eq fits] at member
    obtain rfl := List.mem_singleton.mp member
    show 0 + (nameStrText content).length ≤ 30
    omega
  · intro display write member
    rw [name_eq fits] at member
    obtain rfl := List.mem_singleton.mp member
    simp

omit fits in
theorem confined_statusOperations (content : TxContent) :
    Confined [statusStr] (statusOperations content) := by
  have short := length_statusStrText content.fromShard
  unfold statusOperations
  split_ifs
  · refine .single (Operation.stays_put ?_)
      (Operation.writesTo_put (by simp) _ _)
    show 0 + (statusStrText content.fromShard).length ≤ 30
    omega
  · exact .nil

end Confined

section Leaves

variable {content : TxContent} (fits : FitsNanoX content)

section Compose

include fits

/-- An array of a validator's operation that the commission leaves alone. -/
theorem leaves_validator {place : Place} {before text : List UInt8}
    (validator : IsValidatorOperation content.directive)
    (apart : ∀ other ∈ [validatorAddr, commissionRateStr, hashArray],
      place.Apart other)
    (composed : Leaves (ownAmountOperations content ++
      delegationOperations content) place before text) :
    Leaves (composeOperations content) place before text := by
  rw [composeOperations, if_pos validator]
  exact .append (.frame (confined_commissionOperations fits validator) apart _)
    composed

/-- An array that is written with the commission. -/
theorem leaves_commission {place : Place} {before text : List UInt8}
    (validator : IsValidatorOperation content.directive)
    (apart : ∀ other ∈ [delegationStr, amountStr, fullStr, hashArray,
      fullStrLength .nanoX], place.Apart other)
    (composed : Leaves (commissionOperations content) place before text) :
    Leaves (composeOperations content) place before text := by
  have own := (confined_ownAmountOperations fits).mono
    (show _ ⊆ [delegationStr, amountStr, fullStr, hashArray,
      fullStrLength .nanoX] by simp)
  have delegation := (confined_delegationOperations fits validator).mono
    (show _ ⊆ [delegationStr, amountStr, fullStr, hashArray,
      fullStrLength .nanoX] by simp)
  rw [composeOperations, if_pos validator]
  exact .append composed (.frame (own.append delegation) apart _)

theorem leaves_commissionRateStr
    (validator : IsValidatorOperation content.directive) :
    Leaves (composeOperations content) commissionRateStr []
      (partsText (commissionParts content)) := by
  obtain ⟨converts, short⟩ := fits.commission validator
  have room : PartsFit 476 0 (commissionParts content) :=
    partsFit_of_length (by omega)
  have address : Confined [validatorAddr]
      [(.address validatorAddr content.validatorAddress :
        Operation .nanoX)] :=
    .single (Operation.stays_address _ (by decide))
      (Operation.writesTo_address (by simp) _)
  refine leaves_commission fits validator (by decide) ?_
  exact .cons (.frame address (by decide) _) (.cons (.clear (by decide))
    (.parts (by decide) (by decide) (by decide) converts room (le_of_lt short)))

theorem leaves_delegationStr
    (validator : IsValidatorOperation content.directive) :
    Leaves (composeOperations content) delegationStr []
      (partsText (limitParts content)) := by
  obtain ⟨converts, room⟩ := fits.delegation validator
  have short := length_of_partsFit converts (by decide) room
  have keys := length_shownKeys content
  have shown : Confined [fullStr] [(.clear fullStr : Operation .nanoX),
      .put fullStr 0 (shownKeys content)] :=
    .cons (Operation.stays_clear _) (Operation.writesTo_put (by simp) _ _)
      (.single (Operation.stays_put (by show 0 + _ ≤ 132; omega))
        (Operation.writesTo_put (by simp) _ _))
  have text : Leaves (delegationOperations content) delegationStr []
      (partsText (limitParts content)) :=
    .append (.parts (by decide) (by decide) (by decide) converts room (by
      show _ ≤ 132
      omega)) (.frame shown (by decide) _)
  exact leaves_validator fits validator (by decide) (.append
    (.frame (confined_ownAmountOperations fits) (by decide) _) text)

theorem leaves_fullStr
    (validator : IsValidatorOperation content.directive) :
    Leaves (composeOperations content) fullStr [] (shownKeys content) := by
  obtain ⟨converts, room⟩ := fits.delegation validator
  have keys := length_shownKeys content
  have limits : Confined [delegationStr, hashArray]
      (partsOperations delegationStr 0 (limitParts content) :
        List (Operation .nanoX)) := .parts converts room
  have text : Leaves (delegationOperations content) fullStr []
      (shownKeys content) :=
    .append (.frame limits (by decide) _)
      (.cons (.clear (by decide)) (.put (by decide) (by
        show _ ≤ 132
        omega)))
  exact leaves_validator fits validator (by decide) (.append
    (.frame (confined_ownAmountOperations fits) (by decide) _) text)

theorem leaves_valueOperations :
    Leaves (valueOperations content) amountStr []
      (amountText content.value.number) := by
  have number : Confined [hashArray]
      [(.number content.value : Operation .nanoX)] :=
    .single (Operation.stays_number _) (Operation.writesTo_number (by simp) _)
  exact .cons (.frame number (by decide) _)
    (.amount (by decide) fits.amount (by decide) (by decide) rfl)

/-- Every operation but the change of a validator and the collection of
rewards shows its amount. -/
theorem leaves_amountStr
    (notEdit : content.directive ≠ DirectiveEditValidator)
    (notCollect : content.directive ≠ DirectiveCollectRewards) :
    Leaves (composeOperations content) amountStr []
      (amountText content.value.number) := by
  by_cases validator : IsValidatorOperation content.directive
  · have creates := validator.resolve_right notEdit
    have text : Leaves (ownAmountOperations content) amountStr []
        (amountText content.value.number) := by
      rw [ownAmountOperations, if_pos creates]
      exact leaves_valueOperations fits
    exact leaves_validator fits validator (by decide) (.append text
      (.frame (confined_delegationOperations fits validator) (by decide) _))
  · have addresses : Confined [delegatorAddr, validatorAddr]
        [(.address delegatorAddr content.destination : Operation .nanoX),
          .address validatorAddr content.validatorAddress] :=
      .cons (Operation.stays_address _ (by decide))
        (Operation.writesTo_address (by simp) _)
        (.single (Operation.stays_address _ (by decide))
          (Operation.writesTo_address (by simp) _))
    rw [composeOperations, if_neg validator, delegatorOperations,
      if_neg notCollect]
    exact .append (.frame addresses (by decide) _)
      (leaves_valueOperations fits)

/-- Every operation but the collection of rewards shows the validator. -/
theorem leaves_validatorAddr
    (notCollect : content.directive ≠ DirectiveCollectRewards) :
    Leaves (composeOperations content) validatorAddr []
      (addressText content.validatorAddress) := by
  by_cases validator : IsValidatorOperation content.directive
  · obtain ⟨converts, short⟩ := fits.commission validator
    have rates : Confined [commissionRateStr, hashArray]
        (.clear commissionRateStr :: partsOperations commissionRateStr 0
          (commissionParts content) : List (Operation .nanoX)) :=
      .cons (Operation.stays_clear _) (Operation.writesTo_put (by simp) _ _)
        (.parts converts (partsFit_of_room (room_commissionParts content) (by
          show 0 + _ ≤ 132
          omega)))
    refine leaves_commission fits validator (by decide) ?_
    exact .cons (.address (by decide) _ (by decide))
      (.frame rates (by decide) _)
  · have delegator : Confined [delegatorAddr]
        [(.address delegatorAddr content.destination : Operation .nanoX)] :=
      .single (Operation.stays_address _ (by decide))
        (Operation.writesTo_address (by simp) _)
    rw [composeOperations, if_neg validator, delegatorOperations,
      if_neg notCollect]
    exact .cons (.frame delegator (by decide) _)
      (.cons (.address (by decide) _ (by decide))
        (.frame (confined_valueOperations fits) (by decide) _))

theorem leaves_delegatorAddr
    (other : ¬IsValidatorOperation content.directive) :
    Leaves (composeOperations content) delegatorAddr []
      (addressText content.destination) := by
  have validator : Confined [validatorAddr]
      [(.address validatorAddr content.validatorAddress :
        Operation .nanoX)] :=
    .single (Operation.stays_address _ (by decide))
      (Operation.writesTo_address (by simp) _)
  have rest : Confined [validatorAddr, hashArray, amountStr,
      fullStrLength .nanoX] (if content.directive = DirectiveCollectRewards
        then [] else .address validatorAddr content.validatorAddress ::
          valueOperations content) := by
    split_ifs
    · exact .nil
    · exact .append (validator.mono (by simp))
        ((confined_valueOperations fits).mono (by simp))
  rw [composeOperations, if_neg other, delegatorOperations]
  exact .cons (.address (by decide) _ (by decide))
    (.frame rest (by decide) _)

/-- What is composed is left in its array by the whole review. -/
theorem leaves_composed {place : Place} {text title : List UInt8}
    (few : title.length ≤ 17) (listed : place ∈ composedArrays)
    (composed : Leaves (composeOperations content) place [] text) :
    Leaves (reviewStakingOperationsNanoX content title) place [] text := by
  have apart : ∀ place ∈ composedArrays, place.Apart (partialStr .nanoX) ∧
      place.Apart nameStr ∧ place.Apart statusStr ∧
      (place = fullStr ∨ place.Apart fullStr) := by decide
  obtain ⟨fromTitle, fromName, fromStatus, full⟩ := apart place listed
  have cleared : Leaves [(.clear fullStr : Operation .nanoX)] place [] [] := by
    obtain rfl | fromFull := full
    · exact .clear (by decide)
    · exact .frame (.single (Operation.stays_clear _)
        (Operation.writesTo_put (List.mem_singleton_self _) _ _))
        (by simpa using fromFull) _
  exact .append
    (.append (.frame (confined_title few) (by simpa using fromTitle) _) cleared)
    (.append composed (.cons (.frame (confined_name fits)
      (by simpa using fromName) _) (.frame (confined_statusOperations content)
      (by simpa using fromStatus) _)))

theorem leaves_partialStr {title : List UInt8} (few : title.length ≤ 17) :
    Leaves (reviewStakingOperationsNanoX content title) (partialStr .nanoX) []
      title := by
  have cleared : Confined [fullStr] [(.clear fullStr : Operation .nanoX)] :=
    .single (Operation.stays_clear _) (Operation.writesTo_put (by simp) _ _)
  have put : Leaves [(.put (partialStr .nanoX) 0 title : Operation .nanoX)]
      (partialStr .nanoX) [] title :=
    .put (by decide) (by show _ ≤ 18; omega)
  exact .append (.cons put (.frame cleared (by decide) _))
    (.append (.frame (confined_composeOperations fits) (by decide) _)
      (.cons (.frame (confined_name fits) (by decide) _)
        (.frame (confined_statusOperations content) (by decide) _)))

/-- What the review does before the name. -/
theorem confined_beforeName {title : List UInt8} (few : title.length ≤ 17) :
    Confined (partialStr .nanoX :: composedArrays)
      ([.put (partialStr .nanoX) 0 title, .clear fullStr] ++
        composeOperations content) := by
  have cleared : Confined [fullStr] [(.clear fullStr : Operation .nanoX)] :=
    .single (Operation.stays_clear _) (Operation.writesTo_put (by simp) _ _)
  refine .append (.append ((confined_title few).mono (by simp))
    (cleared.mono (by simp [composedArrays])))
    ((confined_composeOperations fits).mono (by simp))

theorem leaves_nameStr {title : List UInt8} (few : title.length ≤ 17) :
    Leaves (reviewStakingOperationsNanoX content title) nameStr []
      (nameStrText content) := by
  have named : Leaves [Operation.name content] nameStr []
      (nameStrText content) := by
    intro display holds
    rw [performed_writesOf_cons, name_eq fits]
    exact holds.write (length_nameStrText content) (by decide)
  rw [reviewStakingOperationsNanoX, ← List.append_assoc]
  exact .append (.frame (confined_beforeName fits few) (by decide) _)
    (.cons named (.frame (confined_statusOperations content) (by decide) _))

theorem leaves_statusStr {title : List UInt8} (few : title.length ≤ 17)
    (edits : content.directive = DirectiveEditValidator) :
    Leaves (reviewStakingOperationsNanoX content title) statusStr []
      (statusStrText content.fromShard) := by
  have short := length_statusStrText content.fromShard
  have put : Leaves (statusOperations content) statusStr []
      (statusStrText content.fromShard) := by
    rw [statusOperations, if_pos edits]
    exact .put (by decide) (by show _ ≤ 30; omega)
  rw [reviewStakingOperationsNanoX, ← List.append_assoc]
  exact .append (.frame (confined_beforeName fits few) (by decide) _)
    (.cons (.frame (confined_name fits) (by decide) _) put)

end Compose

end Leaves

/-- The review of a staking operation that the parser reads. -/
theorem parseStaking_raises_nanoX (env : Env) (device : Device .nanoX)
    {ctx : Ctx .nanoX} {context : TxContext} {title : List UInt8}
    (accepts : LedgerOne.processStaking ctx.buf ctx.txContext =
      .ok (0, context))
    (titled : directiveText context.content.directive = some title)
    (fits : FitsNanoX context.content) :
    let reviewed := ctx.display.performed (writesOf
      (reviewStakingOperationsNanoX context.content title) ctx.display)
    parseStaking env device ctx =
      .ok (device.proceed { ctx with
          display := reviewed
          txContext := context }
        (.stakingFlow (flowOf context.content.directive))) := by
  intro reviewed
  have few := length_directiveText titled
  have parsed : ctx.processStaking =
      .ok (0, { ctx with txContext := context }) := by
    rw [Ctx.processStaking, accepts]
    rfl
  rw [parseStaking, parsed, bind_ok]
  dsimp only [Ctx.txContent]
  rw [if_neg (by decide), titled]
  dsimp only
  rw [Display.write_eq _ (by show 716 + _ ≤ 736; omega), bind_ok]
  exact reviewStakingNanoX_eq fits env device rfl

end LedgerOne
