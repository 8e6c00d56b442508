import LedgerOne.Security.Walks

/-!
# The screens of a staking operation on the Nano S

Every screen but the first and the last scrolls through a text of the
operation.  At offset 0 the user goes on to the next screen, which starts at
offset 0 again.
-/

namespace LedgerOne

open Rlp Layout

/-! ## On a screen -/

/-- A device on a screen of a staking operation, at an index. -/
structure OnStaking (content : TxContent) (message : List UInt8)
    (screen : Screen) (offset : Nat) (device : Device .nanoS) : Prop where
  stands : device.screen = screen
  stage : StakingStage content device.ctx screen
  windows : ∀ text ∈ countedText content screen, device.ctx.Windows text
  index : (countedText content screen).isSome ->
    device.ctx.display.displayIndex.toNat = offset
  same : device.ctx.message = message

section Screens

variable {env : Env} {content : TxContent} {message text : List UInt8}
  {ctx : Ctx .nanoS} {device : Device .nanoS} {screen : Screen} {offset : Nat}

/-- The array of a screen that scrolls. -/
theorem displays_of_stage (stage : StakingStage content ctx screen)
    (scrolls : countedText content screen = some text) :
    ctx.Displays content text := by
  cases screen with
  | delegatorAddressCompare => exact Option.some.inj scrolls ▸ stage.1
  | validatorAddressCompare => exact Option.some.inj scrolls ▸ stage.1
  | stakingAmountCompareLarge => exact Option.some.inj scrolls ▸ stage.1
  | descriptionCompare => exact Option.some.inj scrolls ▸ stage.1
  | commissionRate => exact Option.some.inj scrolls ▸ stage.1
  | delegationRate => exact Option.some.inj scrolls ▸ stage.1
  | blsKeys => exact Option.some.inj scrolls ▸ stage.1
  | _ => cases scrolls

/-- All the screens that scroll do so in one way. -/
theorem exists_scrollFullStr (env : Env) (io : Region 260)
    (stage : StakingStage content ctx screen)
    (scrolls : countedText content screen = some text) :
    ∃ proceed, ∀ press, pressed env .nanoS ⟨ctx, screen, io⟩ press =
      scrollFullStr ⟨ctx, screen, io⟩ press proceed := by
  cases screen with
  | stakingAmountCompareLarge =>
      have long := stage.2
      rw [← stage.1.length] at long
      exact ⟨_, stakingAmountCompareLargeButton_eq io long⟩
  | delegatorAddressCompare => exact ⟨_, fun _ => rfl⟩
  | validatorAddressCompare => exact ⟨_, fun _ => rfl⟩
  | descriptionCompare => exact ⟨_, fun _ => rfl⟩
  | commissionRate => exact ⟨_, fun _ => rfl⟩
  | delegationRate => exact ⟨_, fun _ => rfl⟩
  | blsKeys => exact ⟨_, fun _ => rfl⟩
  | _ => cases scrolls

variable (fits : FitsNanoS content)
  (scrolls : countedText content screen = some text)

include fits scrolls

/-- A press that moves the window. -/
theorem staking_moves {press : Press} {io : Region 260} {index : UInt8}
    (stage : StakingStage content ctx screen)
    (presses : pressed env .nanoS ⟨ctx, screen, io⟩ press =
      .ok { device := ⟨ctx.moved index, screen, io⟩ })
    (inside : index.toNat + 12 ≤ max 12 text.length) :
    ∃ next, (firmware env .nanoS).step ⟨ctx, screen, io⟩ (.press press) =
        .ok (next, []) ∧
      OnStaking content ctx.message screen index.toNat next := by
  have displays := displays_of_stage stage scrolls
  obtain ⟨outcome, same, step⟩ :=
    pressed_stakingStep env io fits screen stage press
  obtain rfl := Except.ok.inj (presses.symm.trans same)
  refine ⟨_, step_of_pressed press presses, rfl, step.stage, ?_,
    fun _ => rfl, rfl⟩
  intro other member
  obtain rfl : text = other := Option.some.inj (scrolls.symm.trans member)
  exact displays.windows_moved inside

theorem staking_right (on : OnStaking content message screen offset device)
    (inside : offset < text.length - 12) :
    ∃ next, (firmware env .nanoS).step device (.press .seekRight) =
        .ok (next, []) ∧
      OnStaking content message screen (offset + 1) next := by
  obtain ⟨ctx, _, io⟩ := device
  obtain ⟨rfl, stage, windows, stands, rfl⟩ := on
  have displays := displays_of_stage stage scrolls
  have short := displays.holds.fits
  obtain ⟨proceed, presses⟩ := exists_scrollFullStr env io stage scrolls
  let limit := minusUint32
    (ctx.display.getUint32 (SignStaking.fullStrLength .nanoS)) 12
  have ends : limit = text.length - 12 := by
    show minusUint32 (ctx.display.getUint32 _) 12 = _
    rw [displays.length, minusUint32_eq (by omega) (by omega)]
  have index : (ctx.display.rightIndex limit).toNat = offset + 1 :=
    toNat_rightIndex (stands (by rw [scrolls]; rfl)) (by omega) (by omega)
  rw [← index]
  refine staking_moves fits scrolls stage ?_ (by omega)
  rw [presses]
  show (ctx.display.seekRight _ _ _ _ >>= _) = _
  rw [Display.seekRight_eq _ (by
    show 32 + (ctx.display.rightIndex limit).toNat + 12 ≤ 420
    omega) (by decide)]
  rfl

theorem staking_left
    (on : OnStaking content message screen (offset + 1) device) :
    ∃ next, (firmware env .nanoS).step device (.press .seekLeft) =
        .ok (next, []) ∧
      OnStaking content message screen offset next := by
  obtain ⟨ctx, _, io⟩ := device
  obtain ⟨rfl, stage, windows, stands, rfl⟩ := on
  have standing := stands (by rw [scrolls]; rfl)
  have inside := (windows text scrolls).inside
  have short := (displays_of_stage stage scrolls).holds.fits
  obtain ⟨proceed, presses⟩ := exists_scrollFullStr env io stage scrolls
  have index : ctx.display.leftIndex.toNat = offset :=
    toNat_leftIndex standing
  rw [← index]
  refine staking_moves fits scrolls stage ?_ (by omega)
  rw [presses]
  show (ctx.display.seekLeft _ _ _ >>= _) = _
  rw [Display.seekLeft_eq _ (by
    show 32 + ctx.display.leftIndex.toNat + 12 ≤ 420
    omega) (by decide)]
  rfl

end Screens

/-! ## From screen to screen -/

/-- The question whether to sign a staking operation. -/
def stakingQuestion : List (List UInt8) := [ascii "Sign Stake?"]

/-- A screen that scrolls through a text. -/
def textPage (title : String) (text : List UInt8) : Page :=
  ⟨[ascii title], text, true, .releasedBoth⟩

section Walks

variable {env : Env} {content : TxContent} {message : List UInt8}
  {device : Device .nanoS} {pages : List Page}

/-- Going on from a screen of a staking operation. -/
theorem staking_onward (fits : FitsNanoS content) {screen : Screen}
    (screens : List Screen) {press : Press} (other : screen ∉ screens)
    (forward : press ≠ .seekRight)
    (on : OnStaking content message screen 0 device)
    (leads : Ensures (pressed env .nanoS device press)
      (Outcome.Onward device screens)) :
    ∃ next, (firmware env .nanoS).step device (.press press) =
        .ok (next, []) ∧
      ∃ after ∈ screens, OnStaking content message after 0 next := by
  obtain ⟨ctx, current, io⟩ := device
  obtain ⟨rfl, stage, windows, stands, rfl⟩ := on
  have safe : SafePress ctx current press := by
    have starts : (countedText content current).isSome ->
        ctx.display.displayIndex = 0 :=
      fun scrolls => UInt8.toNat_inj.mp (stands scrolls)
    cases press with
    | seekRight => exact absurd rfl forward
    | releasedBoth =>
        rintro (rfl | rfl | rfl | ⟨rfl, -⟩)
        · exact starts rfl
        · exact starts rfl
        · exact starts rfl
        · exact starts rfl
    | _ => trivial
  obtain ⟨outcome, presses, step⟩ :=
    pressed_stakingStep env io fits current stage press
  have onward := leads.value outcome presses
  refine ⟨outcome.device, onward.step presses, _, onward.screen, rfl,
    step.stage, step.windows safe windows, fun scrolls => ?_, onward.message⟩
  have entered := step.entered safe (fun unchanged =>
    other (unchanged ▸ onward.screen)) scrolls
  rw [entered]
  rfl

/-- A screen that scrolls, and what follows on it. -/
theorem leads_textPage (title : String) {screen : Screen} {text : List UInt8}
    (fits : FitsNanoS content)
    (scrolls : countedText content screen = some text) (proper : 0 ∉ text)
    (shows : ∀ ctx : Ctx .nanoS, ctx.shown screen =
      ctx.display.page title (SignStaking.partialStr .nanoS))
    (screens : List Screen) (other : screen ∉ screens)
    (leads : ∀ (ctx : Ctx .nanoS) io, ctx.txContent = content ->
      Ensures (pressed env .nanoS ⟨ctx, screen, io⟩ .releasedBoth)
        (Outcome.Onward ⟨ctx, screen, io⟩ screens))
    (goesOn : ∀ next, ∀ after ∈ screens,
      OnStaking content message after 0 next ->
      next.Leads env message stakingQuestion pages)
    (on : OnStaking content message screen 0 device) :
    device.Leads env message stakingQuestion
      (textPage title text :: pages) := by
  refine leads_page (OnStaking content message screen)
    (fun device offset inside on => staking_right fits scrolls on inside)
    (fun device offset on => staking_left fits scrolls on)
    (fun device offset on => ?_) (fun device on => ?_) on
  · have window := (on.windows text scrolls).window
    rw [on.index (by rw [scrolls]; rfl)] at window
    rw [Device.shown, on.stands, shows]
    exact page_window window (by decide) proper title
  · have keeps := (displays_of_stage on.stage scrolls).keeps
    obtain ⟨ctx, current, io⟩ := device
    obtain rfl : current = screen := on.stands
    obtain ⟨next, steps, after, listed, reached⟩ := staking_onward fits
      screens other (by simp) on (leads ctx io keeps)
    exact ⟨next, steps, goesOn next after listed reached⟩

theorem leads_confirmSigning
    (on : OnStaking content message .confirmSigning 0 device) :
    device.Leads env message stakingQuestion [] := by
  refine ⟨by rw [Device.shown, on.stands]; rfl,
    decides_of_sign SignStaking.hash (by decide) on.same ?_ ?_⟩
  · simp only [pressed, pressNanoS, on.stands, confirmSigningButton]
  · simp only [pressed, pressNanoS, on.stands, confirmSigningButton]

theorem proper_delegationParts (content : TxContent) :
    ∀ part ∈ delegationParts content, part.Proper := by
  have captions : (0 : UInt8) ∉ ascii "amount:" ∧ (0 : UInt8) ∉ ascii ",min:" ∧
      (0 : UInt8) ∉ ascii ",max:" := by decide
  unfold delegationParts
  split
  · simp [Part.Proper, captions]
  · exact proper_limitParts content

/-- The screens about a validator, behind the first one. -/
def validatorWalk (content : TxContent) : List Page :=
  [textPage "Validator Address:" (addressText content.validatorAddress),
    textPage "Name" (nameText content),
    textPage "Commission" (partsText (commissionParts content)),
    textPage "Delegation" (partsText (delegationParts content)),
    textPage "BLS Keys" (shownKeys content)]

section Validators

variable (fits : FitsNanoS content)
  (validator : IsValidatorOperation content.directive)
  (proper : 0 ∉ shownKeys content)

include fits proper

theorem leads_blsKeys (on : OnStaking content message .blsKeys 0 device) :
    device.Leads env message stakingQuestion
      [textPage "BLS Keys" (shownKeys content)] := by
  refine leads_textPage "BLS Keys" fits rfl proper (fun _ => rfl)
    [.confirmSigning] (by decide) (fun ctx io keeps => ?_)
    (fun next => List.forall_mem_singleton.mpr leads_confirmSigning) on
  exact Ensures.ok (onward_proceed rfl (List.mem_singleton_self _))

theorem leads_delegationRate
    (on : OnStaking content message .delegationRate 0 device) :
    device.Leads env message stakingQuestion
      [textPage "Delegation" (partsText (delegationParts content)),
        textPage "BLS Keys" (shownKeys content)] := by
  refine leads_textPage "Delegation" fits rfl
    (zero_not_mem_partsText (proper_delegationParts content)) (fun _ => rfl)
    [.blsKeys] (by decide) (fun ctx io keeps => ?_)
    (fun _ => List.forall_mem_singleton.mpr (leads_blsKeys fits proper)) on
  exact onward_delegationRate env ⟨ctx, .delegationRate, io⟩

include validator

theorem leads_commissionRate
    (on : OnStaking content message .commissionRate 0 device) :
    device.Leads env message stakingQuestion
      [textPage "Commission" (partsText (commissionParts content)),
        textPage "Delegation" (partsText (delegationParts content)),
        textPage "BLS Keys" (shownKeys content)] := by
  refine leads_textPage "Commission" fits rfl
    (zero_not_mem_partsText (proper_commissionParts content)) (fun _ => rfl)
    [.delegationRate] (by decide) (fun ctx io keeps => ?_)
    (fun _ => List.forall_mem_singleton.mpr
      (leads_delegationRate fits proper)) on
  subst keeps
  exact onward_commissionRate env _ validator fits

theorem leads_descriptionCompare
    (on : OnStaking content message .descriptionCompare 0 device) :
    device.Leads env message stakingQuestion
      [textPage "Name" (nameText content),
        textPage "Commission" (partsText (commissionParts content)),
        textPage "Delegation" (partsText (delegationParts content)),
        textPage "BLS Keys" (shownKeys content)] := by
  refine leads_textPage "Name" fits rfl (ne_zero_of_mem_nameText content)
    (fun _ => rfl) [.commissionRate] (by decide) (fun ctx io keeps => ?_)
    (fun _ => List.forall_mem_singleton.mpr
      (leads_commissionRate fits validator proper)) on
  subst keeps
  exact onward_descriptionCompare env _ validator fits

/-- The screens of an operation on a validator. -/
theorem leads_validator
    (on : OnStaking content message .validatorAddressCompare 0 device) :
    device.Leads env message stakingQuestion (validatorWalk content) := by
  refine leads_textPage "Validator Address:" fits rfl
    (zero_not_mem_addressText _) (fun _ => rfl) [.descriptionCompare]
    (by decide) (fun ctx io keeps => ?_)
    (fun _ => List.forall_mem_singleton.mpr
      (leads_descriptionCompare fits validator proper)) on
  subst keeps
  exact onward_validatorAddressCompare_name env _ validator

end Validators

section Delegators

variable (fits : FitsNanoS content)

include fits

theorem leads_stakingAmount {screen : Screen}
    (listed : screen ∈ [.stakingAmountCompareLarge, .stakingAmountCompare])
    (on : OnStaking content message screen 0 device) :
    device.Leads env message stakingQuestion
      [amountPage (amountText content.value.number)] := by
  have proper := zero_not_mem_amountText content.value.number
  obtain rfl | rfl : screen = .stakingAmountCompareLarge ∨
      screen = .stakingAmountCompare := by simpa using listed
  · have page : amountPage (amountText content.value.number) =
        textPage "Amount:" (amountText content.value.number) := by
      have long := on.stage.2
      simp [amountPage, textPage, long]
    rw [page]
    refine leads_textPage "Amount:" fits rfl proper (fun _ => rfl)
      [.confirmSigning] (by decide) (fun ctx io keeps => ?_)
      (fun _ => List.forall_mem_singleton.mpr leads_confirmSigning) on
    exact Ensures.ok (onward_proceed rfl (List.mem_singleton_self _))
  · obtain ⟨few, holds⟩ := on.stage
    have page : amountPage (amountText content.value.number) =
        ⟨[ascii "Amount:"], amountText content.value.number, false,
          .releasedRight⟩ := by
      simp [amountPage, few]
    have place : device.ctx.display.strings.Holds
        (⟨SignStaking.partialStr .nanoS,
          (amountText content.value.number).length + 1⟩ : Place).start
        (⟨SignStaking.partialStr .nanoS,
          (amountText content.value.number).length + 1⟩ : Place).size
        (amountText content.value.number) := holds
    have shows : device.shown =
        [ascii "Amount:", amountText content.value.number] := by
      rw [Device.shown, on.stands]
      exact page_of_holds place (by
        show 168 + ((amountText content.value.number).length + 1) ≤ 420
        omega) "Amount:" (Nat.lt_succ_self _) proper
    obtain ⟨ctx, current, io⟩ := device
    obtain rfl : current = .stakingAmountCompare := on.stands
    have leads : Ensures (pressed env .nanoS
        ⟨ctx, .stakingAmountCompare, io⟩ .releasedRight)
        (Outcome.Onward ⟨ctx, .stakingAmountCompare, io⟩ [.confirmSigning]) :=
      Ensures.ok (onward_proceed rfl (List.mem_singleton_self _))
    obtain ⟨next, steps, after, ended, reached⟩ := staking_onward fits
      [.confirmSigning] (by decide) (by decide) on leads
    obtain rfl := List.mem_singleton.mp ended
    rw [page]
    exact leads_plain rfl shows steps (leads_confirmSigning reached)

theorem leads_validatorAmount
    (other : ¬IsValidatorOperation content.directive)
    (on : OnStaking content message .validatorAddressCompare 0 device) :
    device.Leads env message stakingQuestion
      [textPage "Validator Address:" (addressText content.validatorAddress),
        amountPage (amountText content.value.number)] := by
  refine leads_textPage "Validator Address:" fits rfl
    (zero_not_mem_addressText _) (fun _ => rfl)
    [.stakingAmountCompareLarge, .stakingAmountCompare] (by decide)
    (fun ctx io keeps => ?_)
    (fun _ _ listed => leads_stakingAmount fits listed) on
  subst keeps
  exact onward_validatorAddressCompare_amount env _ other (fits.amount other)

/-- The screens of an operation of a delegator, behind the first one. -/
def delegatorWalk (content : TxContent) : List Page :=
  textPage "Delegator Address:" (addressText content.destination) ::
    if content.directive = DirectiveCollectRewards then []
    else
      [textPage "Validator Address:" (addressText content.validatorAddress),
        amountPage (amountText content.value.number)]

theorem leads_delegator (other : ¬IsValidatorOperation content.directive)
    (on : OnStaking content message .delegatorAddressCompare 0 device) :
    device.Leads env message stakingQuestion (delegatorWalk content) := by
  unfold delegatorWalk
  by_cases collects : content.directive = DirectiveCollectRewards
  · rw [if_pos collects]
    refine leads_textPage "Delegator Address:" fits rfl
      (zero_not_mem_addressText _) (fun _ => rfl) [.confirmSigning]
      (by decide) (fun ctx io keeps => ?_)
      (fun _ => List.forall_mem_singleton.mpr leads_confirmSigning) on
    subst keeps
    have leads := onward_delegatorAddressCompare
      ⟨ctx, .delegatorAddressCompare, io⟩
    rwa [if_pos collects] at leads
  · rw [if_neg collects]
    refine leads_textPage "Delegator Address:" fits rfl
      (zero_not_mem_addressText _) (fun _ => rfl) [.validatorAddressCompare]
      (by decide) (fun ctx io keeps => ?_)
      (fun _ => List.forall_mem_singleton.mpr
        (leads_validatorAmount fits other)) on
    subst keeps
    have leads := onward_delegatorAddressCompare
      ⟨ctx, .delegatorAddressCompare, io⟩
    rwa [if_neg collects] at leads

end Delegators

/-- The screens of an operation, behind the first one. -/
def stakingWalk (content : TxContent) : List Page :=
  if IsValidatorOperation content.directive then validatorWalk content
  else delegatorWalk content

/-- Taking up the review of a staking operation. -/
theorem leads_signStakingApprove {title status : List UInt8}
    (fits : FitsNanoS content)
    (proper : IsValidatorOperation content.directive -> 0 ∉ shownKeys content)
    (on : OnStaking content message .signStakingApprove 0 device)
    (shows : device.shown = [title, status]) :
    device.Leads env message stakingQuestion
      (⟨[title], status, false, .releasedRight⟩ :: stakingWalk content) := by
  obtain ⟨ctx, current, io⟩ := device
  obtain rfl : current = .signStakingApprove := on.stands
  have keeps : ctx.txContent = content := on.stage.1
  let first : Screen := if IsValidatorOperation content.directive then
    .validatorAddressCompare else .delegatorAddressCompare
  have other : Screen.signStakingApprove ∉ [first] := by
    dsimp only [first]
    split <;> decide
  have leads : Ensures (pressed env .nanoS ⟨ctx, .signStakingApprove, io⟩
      .releasedRight)
      (Outcome.Onward ⟨ctx, .signStakingApprove, io⟩ [first]) := by
    dsimp only [first]
    rw [← keeps]
    exact onward_signStakingApprove ⟨ctx, .signStakingApprove, io⟩
  obtain ⟨next, steps, after, listed, reached⟩ :=
    staking_onward fits [first] other (by decide) on leads
  obtain rfl := List.mem_singleton.mp listed
  refine leads_plain rfl shows steps ?_
  dsimp only [first] at reached
  unfold stakingWalk
  split_ifs at reached ⊢ with validator
  · exact leads_validator fits validator (proper validator) reached
  · exact leads_delegator fits validator reached

end Walks

/-! ## The first screen -/

section First

open StakingArray

variable {content : TxContent} {title : List UInt8}

/-- The strings that the review leaves. -/
def reviewedNanoS (content : TxContent) (title : List UInt8)
    (display : Display .nanoS) : Display .nanoS :=
  display.performed
    (writesOf (reviewStakingOperationsNanoS content title) display)

/-- What the first screen says below the directive. -/
def statusLine (content : TxContent) : List UInt8 :=
  if content.directive = DirectiveEditValidator then
    (content.destination.read 0 15).takeWhile fun byte => byte ≠ 0
  else []

theorem parseStaking_eq_nanoS (env : Env) (device : Device .nanoS)
    {ctx : Ctx .nanoS} {context : TxContext}
    (accepts : LedgerOne.processStaking ctx.buf ctx.txContext =
      .ok (0, context))
    (titled : directiveText context.content.directive = some title) :
    parseStaking env device ctx =
      .ok (device.proceed { ctx with
          display := reviewedNanoS context.content title ctx.display
          txContext := context } .signStakingApprove) := by
  have few := length_directiveText titled
  have parsed : ctx.processStaking =
      .ok (0, { ctx with txContext := context }) := by
    rw [Ctx.processStaking, accepts]
    rfl
  have status : showStatusNanoS context.content
      (ctx.display.put (SignStaking.partialStr .nanoS) title) =
        .ok (reviewedNanoS context.content title ctx.display) := by
    unfold showStatusNanoS reviewedNanoS reviewStakingOperationsNanoS
    split_ifs
    · rw [Display.write_eq _ (by
        rw [Region.length_read]
        decide)]
      rfl
    · rw [Display.clear_eq _ (by decide)]
      rfl
  rw [parseStaking, parsed, bind_ok]
  dsimp only [Ctx.txContent]
  rw [if_neg (by decide), titled]
  dsimp only
  rw [Display.write_eq _ (by
    show 168 + _ ≤ 420
    omega), bind_ok]
  show (showStatusNanoS context.content _ >>= _) = _
  rw [status]
  rfl

/-- The first screen, on strings that were zero. -/
theorem shown_reviewedNanoS {display : Display .nanoS}
    (blank : ∀ position < Signing.staking.size .nanoS,
      display.strings.get position = 0)
    (titled : directiveText content.directive = some title) :
    (reviewedNanoS content title display).text
        (SignStaking.partialStr .nanoS) = directiveName content.directive ∧
      (reviewedNanoS content title display).text SignStaking.fullStr =
        statusLine content := by
  have few := length_directiveText titled
  have zeros : ∀ start count, start + count ≤ Signing.staking.size .nanoS ->
      display.strings.Holds start count [] :=
    fun start count inside => .of_zero fun index within =>
      blank _ (by omega)
  let named : Display .nanoS :=
    display.put (SignStaking.partialStr .nanoS) title
  have name : named.strings.Holds (partialStr .nanoS).start
      (partialStr .nanoS).size title :=
    (zeros _ _ (by decide)).write (show title.length ≤ 18 by omega)
      (by decide)
  have cleared : named.strings.Holds fullStr.start fullStr.size [] :=
    (zeros _ _ (by decide)).frame _ _ (Or.inl (by decide))
  have titleFits : title.length < (partialStr .nanoS).size := by
    show title.length < 18
    omega
  have directive : directiveName content.directive =
      title.takeWhile fun byte => byte ≠ 0 := by
    rw [directiveName, titled]
    rfl
  unfold statusLine
  by_cases edits : content.directive = DirectiveEditValidator
  · let status := content.destination.read 0 15
    have length : status.length = 15 := Region.length_read _ _ _
    have reviewed : reviewedNanoS content title display =
        named.put SignStaking.fullStr status := by
      unfold reviewedNanoS reviewStakingOperationsNanoS
      rw [if_pos edits]
      rfl
    have shown : (named.put SignStaking.fullStr status).strings.Holds
        fullStr.start fullStr.size status :=
      cleared.write (show status.length ≤ 132 by omega) (by decide)
    have held : (named.put SignStaking.fullStr status).strings.Holds
        (partialStr .nanoS).start (partialStr .nanoS).size title :=
      name.frame SignStaking.fullStr status (Or.inr (by
        rw [length]
        decide))
    rw [if_pos edits, reviewed, directive]
    exact ⟨text_of_holds held (by decide) titleFits,
      text_of_holds shown (by decide) (by
        rw [length]
        decide)⟩
  · have reviewed : reviewedNanoS content title display =
        named.put SignStaking.fullStr (List.replicate 132 0) := by
      unfold reviewedNanoS reviewStakingOperationsNanoS
      rw [if_neg edits]
      rfl
    have shown : (named.put SignStaking.fullStr
        (List.replicate 132 0)).strings.Holds fullStr.start fullStr.size [] :=
      Region.Holds.cleared named.strings (by decide)
    have held : (named.put SignStaking.fullStr
        (List.replicate 132 0)).strings.Holds (partialStr .nanoS).start
          (partialStr .nanoS).size title :=
      name.frame SignStaking.fullStr (List.replicate 132 0) (Or.inr (by
        rw [List.length_replicate]
        decide))
    have first := text_of_holds held (by decide) titleFits
    have second := text_of_holds shown (by decide) (by decide)
    rw [if_neg edits, reviewed, directive]
    exact ⟨first, second⟩

end First

/-! ## Encoded operations -/

/-- The first screen of an operation. -/
def titlePage (title status : List UInt8) : Page :=
  ⟨[title], status, false, .releasedRight⟩

/-- A name up to its NUL. -/
def Description.nameLine (description : Description) : List UInt8 :=
  description.name.val.takeWhile fun byte => byte ≠ 0

def CreateValidator.walk (message : CreateValidator) : List Page :=
  [titlePage (ascii "Create Validator") [],
    textPage "Validator Address:" message.validator.text,
    textPage "Name" message.description.nameLine,
    textPage "Commission" message.commission.text,
    textPage "Delegation"
      (ascii "amount:" ++ amountText message.amount.val ++ ascii "," ++
        limitsText message.minSelfDelegation message.maxTotalDelegation),
    textPage "BLS Keys" (keysText (message.keys.take 10))]

def EditValidator.walk (message : EditValidator) : List Page :=
  [titlePage (ascii "Edit Validator") (statusText message.status.val),
    textPage "Validator Address:" message.validator.text,
    textPage "Name" message.description.nameLine,
    textPage "Commission"
      (ascii "rate:" ++
        rateText ((message.commissionRate.map Subtype.val).getD 0)),
    textPage "Delegation"
      (limitsText message.minSelfDelegation message.maxTotalDelegation),
    textPage "BLS Keys" message.summary]

/-- The screens of an operation, up to the question. -/
def StakingMessage.walk : StakingMessage -> List Page
  | .createValidator message => message.walk
  | .editValidator message => message.walk
  | .delegate delegator validator amount =>
      [titlePage (ascii "Delegate") [],
        textPage "Delegator Address:" delegator.text,
        textPage "Validator Address:" validator.text,
        amountPage (amountText amount.val)]
  | .undelegate delegator validator amount =>
      [titlePage (ascii "Undelegate") [],
        textPage "Delegator Address:" delegator.text,
        textPage "Validator Address:" validator.text,
        amountPage (amountText amount.val)]
  | .collectRewards delegator =>
      [titlePage (ascii "Collect Rewards") [],
        textPage "Delegator Address:" delegator.text]

section Encoded

variable {content : TxContent}

theorem statusLine_editValidator {status : Nat}
    (edits : content.directive = DirectiveEditValidator)
    (stored : content.destination = .ofList (statusText status)) :
    statusLine content = statusText status := by
  have short : (statusText status).length ≤ 15 := by
    unfold statusText
    split_ifs <;> decide
  have proper : 0 ∉ statusText status := by
    unfold statusText
    split_ifs <;> decide
  have holds : content.destination.Holds 0 15 (statusText status) := by
    rw [stored]
    exact (Region.Holds.ofList (by omega)).shorten short (by decide)
  rw [statusLine, if_pos edits, holds.read_whole, takeWhile_padded,
    takeWhile_eq_of_not_mem proper]

/-- The screens about a new validator. -/
theorem walk_createValidator (message : CreateValidator) {key keyStr}
    (fields : content = { message.content with
      blsPubKey := key
      blsKeyStr := keyStr })
    (kept : content.blsKeyStr = .ofList (keysText (message.keys.take 10))) :
    titlePage (directiveName content.directive) (statusLine content) ::
      stakingWalk content = message.walk := by
  have creates : content.directive = DirectiveCreateValidator := by
    rw [fields]
    rfl
  have notEdit : content.directive ≠ DirectiveEditValidator := by
    rw [creates]
    decide
  have name : nameText content = message.description.nameLine :=
    message.description.nameText_eq (by rw [fields]; rfl)
  have amount : content.value.number = message.amount.val := by
    rw [fields]
    exact message.amount.number_stored
  have rates := commissionParts_createValidator message fields
  have limits := limitParts_text
    (show content.minSelfDelegation = message.minSelfDelegation.stored by
      rw [fields]; rfl)
    (show content.maxTotalDelegation = message.maxTotalDelegation.stored by
      rw [fields]; rfl)
  have delegation : partsText (delegationParts content) =
      ascii "amount:" ++ amountText message.amount.val ++ ascii "," ++
        limitsText message.minSelfDelegation message.maxTotalDelegation := by
    rw [← limits, ← amount, delegationParts, if_pos creates]
    simp only [partsText, limitParts, List.flatMap_cons, List.flatMap_nil,
      Part.shown, List.append_nil, List.append_assoc]
    rfl
  have listed := shownKeys_createValidator message creates
    (by rw [fields]; rfl) kept
  have address : content.validatorAddress = .ofList message.validator.val := by
    rw [fields]
    rfl
  rw [stakingWalk, if_pos (Or.inl creates), validatorWalk, name, rates,
    delegation, listed, address, statusLine, if_neg notEdit, creates,
    directiveName_eq.1]
  rfl

/-- The screens about a validator that is changed. -/
theorem walk_editValidator (message : EditValidator) {key keyStr}
    (fields : content = { message.content with
      blsPubKey := key
      blsKeyStr := keyStr })
    (listed : shownKeys content = message.summary) :
    titlePage (directiveName content.directive) (statusLine content) ::
      stakingWalk content = message.walk := by
  have edits : content.directive = DirectiveEditValidator := by
    rw [fields]
    rfl
  have other : content.directive ≠ DirectiveCreateValidator := by
    rw [edits]
    decide
  have name : nameText content = message.description.nameLine :=
    message.description.nameText_eq (by rw [fields]; rfl)
  have rates := commissionParts_editValidator message fields
  have limits := limitParts_text
    (show content.minSelfDelegation = message.minSelfDelegation.stored by
      rw [fields]; rfl)
    (show content.maxTotalDelegation = message.maxTotalDelegation.stored by
      rw [fields]; rfl)
  have delegation : delegationParts content = limitParts content := by
    rw [delegationParts, if_neg other]
  have address : content.validatorAddress = .ofList message.validator.val := by
    rw [fields]
    rfl
  have status : statusLine content = statusText message.status.val :=
    statusLine_editValidator edits (by rw [fields]; rfl)
  rw [stakingWalk, if_pos (Or.inr edits), validatorWalk, name, rates,
    delegation, limits, listed, address, status, edits, directiveName_eq.2.1]
  rfl

/-- The screens of a delegation. -/
theorem walk_delegation {directive : Nat}
    (delegates : directive = DirectiveDelegate ∨
      directive = DirectiveUndelegate)
    (delegator validator : Address) (amount : Int256) {key keyStr}
    (fields : content = { TxContent.zero with
      directive := directive
      destination := .ofList delegator.val
      validatorAddress := .ofList validator.val
      value := amount.stored
      blsPubKey := key
      blsKeyStr := keyStr }) :
    titlePage (directiveName content.directive) (statusLine content) ::
        stakingWalk content =
      [titlePage (directiveName directive) [],
        textPage "Delegator Address:" delegator.text,
        textPage "Validator Address:" validator.text,
        amountPage (amountText amount.val)] := by
  have others : ¬IsValidatorOperation directive ∧
      directive ≠ DirectiveEditValidator ∧
      directive ≠ DirectiveCollectRewards := by
    obtain rfl | rfl := delegates <;> decide
  obtain ⟨other, notEdit, notCollect⟩ := others
  subst fields
  rw [stakingWalk, if_neg other, delegatorWalk, if_neg notCollect, statusLine,
    if_neg notEdit]
  dsimp only
  rw [amount.number_stored]
  rfl

/-- The screens that are read off the content are those of the operation. -/
theorem stakingWalk_encoded {transaction : StakingTransaction}
    (same : content.withoutKeys = transaction.message.content)
    (small : (Item.encodeAll transaction.items).length < 2 ^ 32)
    (accepts : stakingVerdict transaction.encode = .accepted content true) :
    titlePage (directiveName content.directive) (statusLine content) ::
      stakingWalk content = transaction.message.walk := by
  obtain ⟨created, edited⟩ := stakingVerdict_shown transaction small accepts
  obtain ⟨key, keyStr, fields⟩ := exists_keys same
  obtain ⟨-, -, delegate, undelegate, collect⟩ := directiveName_eq
  cases message : transaction.message with
  | createValidator create =>
      rw [message] at fields
      exact walk_createValidator create fields (created create message)
  | editValidator edit =>
      rw [message] at fields
      obtain ⟨before, start, decoded⟩ := edited edit message
      exact walk_editValidator edit fields
        (shownKeys_editValidator edit start decoded)
  | delegate delegator validator amount =>
      rw [message] at fields
      rw [walk_delegation (Or.inl rfl) delegator validator amount fields,
        delegate]
      rfl
  | undelegate delegator validator amount =>
      rw [message] at fields
      rw [walk_delegation (Or.inr rfl) delegator validator amount fields,
        undelegate]
      rfl
  | collectRewards delegator =>
      rw [message] at fields
      have collects : content.directive = DirectiveCollectRewards := by
        rw [fields]
        rfl
      have other : ¬IsValidatorOperation content.directive := by
        rw [collects]
        decide
      have notEdit : content.directive ≠ DirectiveEditValidator := by
        rw [collects]
        decide
      have address : content.destination = .ofList delegator.val := by
        rw [fields]
        rfl
      rw [stakingWalk, if_neg other, delegatorWalk, if_pos collects,
        statusLine, if_neg notEdit, address, collects, collect]
      rfl

/-- The keys of an encoded operation on a validator have no NUL. -/
theorem proper_shownKeys {transaction : StakingTransaction}
    (same : content.withoutKeys = transaction.message.content)
    (small : (Item.encodeAll transaction.items).length < 2 ^ 32)
    (accepts : stakingVerdict transaction.encode = .accepted content true)
    (validator : IsValidatorOperation content.directive) :
    0 ∉ shownKeys content := by
  obtain ⟨created, edited⟩ := stakingVerdict_shown transaction small accepts
  obtain ⟨key, keyStr, fields⟩ := exists_keys same
  have other : ∀ directive, content.directive = directive ->
      ¬IsValidatorOperation directive -> 0 ∉ shownKeys content :=
    fun directive is not => absurd (is ▸ validator) not
  cases message : transaction.message with
  | createValidator create =>
      rw [message] at fields
      rw [shownKeys_createValidator create (by rw [fields]; rfl)
        (by rw [fields]; rfl) (created create message)]
      exact zero_not_mem_keysText _
  | editValidator edit =>
      obtain ⟨before, start, decoded⟩ := edited edit message
      rw [shownKeys_editValidator edit start decoded]
      exact edit.zero_not_mem_summary
  | delegate delegator validator amount =>
      rw [message] at fields
      exact other DirectiveDelegate (by rw [fields]; rfl) (by decide)
  | undelegate delegator validator amount =>
      rw [message] at fields
      exact other DirectiveUndelegate (by rw [fields]; rfl) (by decide)
  | collectRewards delegator =>
      rw [message] at fields
      exact other DirectiveCollectRewards (by rw [fields]; rfl) (by decide)

theorem fitsNanoS_of_withoutKeys {expected : TxContent}
    (same : content.withoutKeys = expected) (fits : FitsNanoS expected) :
    FitsNanoS content := by
  subst same
  exact ⟨fits.amount, fits.commission, fits.delegation⟩

/-- The operations that have no validator of their own always fit. -/
theorem fitsNanoS_content {message : StakingMessage}
    (fits : IsValidatorOperation message.directive ->
      FitsNanoS message.content) : FitsNanoS message.content := by
  by_cases validator : IsValidatorOperation message.directive
  · exact fits validator
  have same : message.content.directive = message.directive := by
    cases message <;> rfl
  rw [← same] at validator
  refine ⟨fun _ => ?_, fun is => absurd is validator,
    fun is => absurd is validator⟩
  cases message with
  | createValidator create => exact create.amount.length_stored_le
  | editValidator edit => exact absurd (Or.inr rfl) validator
  | delegate delegator validator amount => exact amount.length_stored_le
  | undelegate delegator validator amount => exact amount.length_stored_le
  | collectRewards delegator => exact Nat.zero_le _

variable (env : Env) (device : Device .nanoS) {front : List Apdu}
  {last : Apdu}

/-- The Nano S leads through an encoded staking transaction. -/
theorem staking_walks {transaction : StakingTransaction}
    (fits : IsValidatorOperation transaction.message.directive ->
      FitsNanoS transaction.message.content)
    (short : transaction.encode.length ≤ 1020)
    (session : Signing.staking.Session front last)
    (sends : messageOf (front ++ [last]) = transaction.encode) :
    Walks env device front last stakingQuestion transaction.message.walk := by
  obtain ⟨opened, replies, runs, -, presents, blank, steps⟩ :=
    run_session env device session (by rwa [sends])
  rw [sends] at presents
  have received : Received (Region.ofList transaction.encode)
      transaction.encode := received_ofList (by omega)
  have small := length_payload_lt received
  have accepts := stakingVerdict_encode transaction small
  obtain ⟨context, returns, reads⟩ :=
    (processStaking_accepts_iff received _).mpr ⟨true, accepts⟩
  rw [← reads] at accepts
  have stripped : context.content.withoutKeys =
      transaction.message.content := by
    rw [reads]
    exact Eq.trans transaction.message.same_read
      (by cases transaction.message <;> rfl)
  have directive : context.content.directive =
      transaction.message.directive := by
    rw [show context.content.directive =
      context.content.withoutKeys.directive from rfl, stripped]
    cases transaction.message <;> rfl
  obtain ⟨title, titled⟩ := exists_directiveText_message transaction.message
  rw [← directive] at titled
  have fitting := fitsNanoS_of_withoutKeys stripped (fitsNanoS_content fits)
  let ctx := Signing.staking.finished last opened.ctx
  have zeros : ∀ position < Signing.staking.size .nanoS,
      ctx.display.strings.get position = 0 := fun position inside =>
    (blank.strings position inside).trans (Region.get_zero _)
  have parses : processStaking ctx.buf ctx.txContext = .ok (0, context) := by
    rw [presents.buf, presents.txContext]
    exact returns
  let shown : Ctx .nanoS := { ctx with
    display := reviewedNanoS context.content title ctx.display
    txContext := context }
  have raises : Signing.staking.review env (opened.received last) ctx =
      .ok ((opened.received last).proceed shown .signStakingApprove) :=
    parseStaking_eq_nanoS env (opened.received last) parses titled
  rw [raises] at steps
  obtain ⟨outcome, again, -, -, -, stage⟩ := parseStaking_raises_nanoS env
    (opened.received last) parses titled (zeros 0 (by decide))
  obtain rfl := Except.ok.inj (raises.symm.trans again)
  have message : shown.message = transaction.encode := by
    rw [← message_of_presents presents (by omega)]
    rfl
  have on : OnStaking context.content transaction.encode .signStakingApprove 0
      ((opened.received last).proceed shown .signStakingApprove).device :=
    ⟨rfl, stage, fun _ member => absurd member (Option.not_mem_none _),
      fun scrolls => absurd scrolls Bool.false_ne_true, message⟩
  obtain ⟨directiveShown, statusShown⟩ := shown_reviewedNanoS zeros titled
  refine ⟨opened, replies, _, runs, steps, ?_⟩
  rw [sends, ← stakingWalk_encoded stripped small accepts]
  refine leads_signStakingApprove fitting
    (proper_shownKeys stripped small accepts) on ?_
  exact congrArg₂ (fun first second => [first, second]) directiveShown
    statusShown

/-- The packets of a new validator. -/
def aliceFirst : Apdu :=
  Signing.staking.packet P1_FIRST 0 (createAlice.encode.take 255)
    (List.length_take_le 255 _)

theorem length_aliceRest : (createAlice.encode.drop 255).length ≤ 255 := by
  decide +kernel

def aliceLast : Apdu :=
  Signing.staking.packet P1_MORE P2_FINISH (createAlice.encode.drop 255)
    length_aliceRest

/-- A new validator, in two packets. -/
theorem staking_walks_createAlice :
    Walks (.ofTables [] []) (.boot .nanoS) [aliceFirst] aliceLast
      stakingQuestion createAlice.message.walk := by
  have fits : FitsNanoS createAlice.message.content := by decide +kernel
  have first : aliceFirst.data = createAlice.encode.take 255 := by
    rw [aliceFirst, Signing.packet]
  have rest : aliceLast.data = createAlice.encode.drop 255 := by
    rw [aliceLast, Signing.packet]
  have whole : messageOf ([aliceFirst] ++ [aliceLast]) =
      createAlice.encode := by
    rw [messageOf_concat, messageOf, List.flatMap_singleton, first, rest,
      List.take_append_drop]
  exact staking_walks _ _ (fun _ => fits) length_createAlice
    (.several (.first rfl rfl (by decide)) rfl (by decide) rfl) whole

end Encoded

end LedgerOne
