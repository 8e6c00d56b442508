import LedgerOne.Firmware.StakingReview

/-!
# The screens of a staking operation on the Nano S

What every press does on every screen of the review.
-/

namespace LedgerOne

open StakingArray

section Screens

variable (env : Env) {content : TxContent} {ctx : Ctx .nanoS} (io : Region 260)

/-- A press that does nothing. -/
theorem StakingStep.same {screen : Screen} {press : Press}
    (stage : StakingStage content ctx screen)
    (none : stakingOperations env ctx screen press ctx = []) :
    StakingStep env content ctx screen press
      { device := ⟨ctx, screen, io⟩ } where
  stage := stage
  writes := by rw [none, performed_writesOf_nil]
  windows _ shown := shown
  entered _ other := absurd rfl other

/-- A press that leaves the texts. -/
theorem StakingStep.leaves {screen : Screen} {press : Press}
    {outcome : Outcome .nanoS}
    (ends : outcome.device.screen = .idle ∨
      outcome.device.screen = .confirmSigning)
    (writes : outcome.device.ctx.display.strings =
      (ctx.display.performed (writesOf (stakingOperations env ctx screen press
        outcome.device.ctx) ctx.display)).strings) :
    StakingStep env content ctx screen press outcome := by
  refine ⟨?_, writes, ?_, ?_⟩
  · obtain last | last := ends <;> rw [last] <;> trivial
  · intro _ _ text member
    obtain last | last := ends <;> rw [last] at member <;> cases member
  · intro _ _ scrolls
    obtain last | last := ends <;> rw [last] at scrolls <;> cases scrolls

/-- The presses on a screen that scrolls, given what proceeding does. -/
theorem scrolling_step {screen : Screen} {text : List UInt8}
    {proceeding : List (Operation .nanoS)}
    {proceed : Except Fault (Outcome .nanoS)}
    (scrolls : countedText content screen = some text)
    (displays : ctx.Displays content text)
    (operations : ∀ press next, stakingOperations env ctx screen press next =
      seekOperations press next proceeding)
    (stage : ∀ next : Ctx .nanoS, next.Displays content text ->
      next.display.strings.get SignStaking.hash =
        ctx.display.strings.get SignStaking.hash ->
      StakingStage content next screen)
    (proceeds : ∃ outcome, proceed = .ok outcome ∧
      StakingStep env content ctx screen .releasedBoth outcome)
    (press : Press) :
    ∃ outcome, scrollFullStr ⟨ctx, screen, io⟩ press proceed = .ok outcome ∧
      StakingStep env content ctx screen press outcome := by
  by_cases both : press = .releasedBoth
  · subst both
    exact proceeds
  obtain ⟨next, scrolled, seeks⟩ :=
    scrollFullStr_seeks displays screen io both proceed
  refine ⟨_, scrolled, stage next seeks.displays seeks.unhashed, ?_, ?_,
    fun _ other => absurd rfl other⟩
  · rw [operations, seeks.writes]
    cases press with
    | releasedBoth => exact absurd rfl both
    | _ => rfl
  · intro safe shown other member
    obtain rfl : text = other := Option.some.inj (scrolls.symm.trans member)
    refine seeks.windows ?_ (shown text scrolls)
    rintro rfl
    have long : 12 ≤
        ctx.display.getUint32 (SignStaking.fullStrLength .nanoS) :=
      safe (by rw [displays.keeps, scrolls]; rfl)
    rwa [displays.length] at long

/-- Proceeding to a text that is composed. -/
theorem StakingStep.composed (next : Screen) {screen : Screen}
    {text : List UInt8} {parts : List Part} (displays : ctx.Displays content text)
    (converts : ∀ part ∈ parts, part.Converts)
    (short : (partsText parts).length ≤ 132)
    (scrolls : countedText content next = some (partsText parts))
    (operations : ∀ next, stakingOperations env ctx screen .releasedBoth next =
      composedOperations parts)
    (stage : ∀ after : Ctx .nanoS,
      after.Displays content (partsText parts) ->
      StakingStage content after next)
    (start : SafePress ctx screen .releasedBoth ->
      ctx.display.displayIndex = 0) :
    StakingStep env content ctx screen .releasedBoth
      (Device.proceed ⟨ctx, screen, io⟩
        (ctx.performed (composedOperations parts)) next) := by
  have composed := displays_composed converts short displays
  refine ⟨stage _ composed.1, ?_, ?_, ?_⟩
  · rw [operations]
    rfl
  · intro safe _ other member
    obtain rfl : partsText parts = other :=
      Option.some.inj (scrolls.symm.trans member)
    exact composed.2 (start safe)
  · intro safe _ _
    exact (displayIndex_performed _ _).trans (start safe)

/-- Showing an address in the cleared array. -/
theorem showAddress_eq {display : Display .nanoS}
    (blank : display.strings.Holds SignStaking.fullStr 132 [])
    (address : Region 20) :
    ∃ shown, showAddress address display = .ok shown ∧
      shown.strings = (display.performed
        (writesOf (addressOperations address) display)).strings ∧
      shown.Scrolls SignStaking.fullStr 132 (SignStaking.partialStr .nanoS)
        (addressText address) ∧
      shown.getUint32 (SignStaking.fullStrLength .nanoS) =
        display.getUint32 (SignStaking.fullStrLength .nanoS) ∧
      shown.strings.get SignStaking.hash =
        display.strings.get SignStaking.hash ∧
      shown.displayIndex = 0 := by
  have length := length_addressText address
  let addressed := display.put SignStaking.fullStr (addressText address ++ [0])
  have holds : addressed.strings.Holds SignStaking.fullStr 132
      (addressText address) :=
    blank.append_zeros (addressText address) 1
      (by rw [List.length_nil]; omega) (by decide)
  let shown : Display .nanoS :=
    { addressed.windowed (SignStaking.partialStr .nanoS) SignStaking.fullStr
        12 with displayIndex := 0 }
  refine ⟨shown, ?_, rfl,
    Display.scrolls_windowed holds (by decide) (by decide) (by decide), ?_,
    ?_, rfl⟩
  · rw [showAddress, Display.writeAddress_eq _ _ (by decide), bind_ok,
      Display.copy_ended _ (by decide) (by decide)]
    rfl
  · refine (addressed.getUint32_windowed (by decide)).trans
      (display.getUint32_put_of_disjoint (Or.inr ?_))
    rw [List.length_append, length]
    decide
  · have first : SignStaking.hash < SignStaking.partialStr .nanoS := by decide
    refine (Region.get_splice_of_disjoint _ _ _
      (Or.inl (first.trans_le (Nat.le_add_right _ _)))).trans ?_
    refine (Region.get_splice_of_disjoint _ _ _ (Or.inl first)).trans ?_
    exact Region.get_splice_of_disjoint _ _ _ (Or.inl (by decide))

/-- Scrolling through what `showAddress` leaves. -/
theorem displays_of_scrolls {text : List UInt8}
    (keeps : ctx.txContent = content)
    (scrolls : ctx.display.Scrolls SignStaking.fullStr 132
      (SignStaking.partialStr .nanoS) text)
    (length : ctx.display.getUint32 (SignStaking.fullStrLength .nanoS) =
      text.length) :
    ctx.Displays content text ∧ ctx.Windows text :=
  ⟨⟨keeps, scrolls.holds, length, scrolls.ends⟩,
    ⟨scrolls.inside, scrolls.window⟩⟩

/-- Proceeding to an address. -/
theorem StakingStep.addressed {screen next : Screen} {press : Press}
    {after : Ctx .nanoS} {address : Region 20}
    (shows : after.Displays content (addressText address) ∧
      after.Windows (addressText address))
    (writes : after.display.strings = (ctx.display.performed (writesOf
      (stakingOperations env ctx screen press after) ctx.display)).strings)
    (start : after.display.displayIndex = 0)
    (scrolls : countedText content next = some (addressText address))
    (stage : StakingStage content after next) :
    StakingStep env content ctx screen press
      (Device.proceed ⟨ctx, screen, io⟩ after next) where
  stage := stage
  writes := writes
  windows _ _ other member := by
    obtain rfl : addressText address = other :=
      Option.some.inj (scrolls.symm.trans member)
    exact shows.2
  entered _ _ _ := start

/-- Taking up the review. -/
theorem signStakingApprove_step
    (stage : StakingStage content ctx .signStakingApprove) (press : Press) :
    ∃ outcome, signStakingApproveButton ⟨ctx, .signStakingApprove, io⟩ press =
        .ok outcome ∧
      StakingStep env content ctx .signStakingApprove press outcome := by
  obtain ⟨rfl, hash⟩ := stage
  cases press with
  | releasedLeft => exact ⟨_, rfl, .leaves env (.inl rfl) rfl⟩
  | releasedRight =>
      let cleared := ctx.display.put SignStaking.fullStr
        (List.replicate 132 0)
      let counted := cleared.put (SignStaking.fullStrLength .nanoS)
        (uint32Bytes MAX_ONE_ADDRESS).toList
      have blank : counted.strings.Holds SignStaking.fullStr 132 [] :=
        (Region.Holds.cleared ctx.display.strings (by decide)).frame _ _
          (Or.inl (by decide))
      have length : counted.getUint32 (SignStaking.fullStrLength .nanoS) =
          MAX_ONE_ADDRESS := cleared.getUint32_put (by decide) (by decide)
      have unhashed : counted.strings.get SignStaking.hash = 0 := by
        rw [← hash]
        refine (Region.get_splice_of_disjoint _ _ _
          (Or.inl (by decide))).trans ?_
        exact Region.get_splice_of_disjoint _ _ _ (Or.inl (by decide))
      have begins : ∀ rest : Display .nanoS -> Except Fault (Outcome .nanoS),
          (ctx.display.clear SignStaking.fullStr 132 >>= fun display =>
            display.putUint32 (SignStaking.fullStrLength .nanoS)
              MAX_ONE_ADDRESS >>= rest) = rest counted := fun rest => by
        rw [Display.clear_eq _ (by decide), bind_ok,
          Display.putUint32_eq _ _ (by decide), bind_ok]
      show ∃ outcome, (ctx.display.clear _ _ >>= _) = .ok outcome ∧ _
      rw [begins]
      by_cases validator : IsValidatorOperation ctx.txContent.directive
      · obtain ⟨shown, shows, writes, scrolls, kept, still, start⟩ :=
          showAddress_eq blank ctx.txContent.validatorAddress
        rw [if_pos validator, shows]
        have displays := displays_of_scrolls (show
          ({ ctx with display := shown } : Ctx .nanoS).txContent = _ from rfl)
          scrolls (by rw [kept, length, length_addressText]; rfl)
        refine ⟨_, rfl, .addressed env io displays ?_ start rfl
          ⟨displays.1, fun _ => still.trans unhashed⟩⟩
        rw [stakingOperations, if_pos rfl]
        dsimp only
        rw [if_pos validator, performed_writesOf_cons,
          performed_writesOf_cons]
        exact writes
      · obtain ⟨shown, shows, writes, scrolls, kept, still, start⟩ :=
          showAddress_eq blank ctx.txContent.destination
        rw [if_neg validator, shows]
        have displays := displays_of_scrolls (show
          ({ ctx with display := shown } : Ctx .nanoS).txContent = _ from rfl)
          scrolls (by rw [kept, length, length_addressText]; rfl)
        refine ⟨_, rfl, .addressed env io displays ?_ start rfl
          ⟨displays.1, validator⟩⟩
        rw [stakingOperations, if_pos rfl]
        dsimp only
        rw [if_neg validator, performed_writesOf_cons,
          performed_writesOf_cons]
        exact writes
  | _ => exact ⟨_, rfl, .same env io ⟨rfl, hash⟩ rfl⟩

/-- Going on from the delegator. -/
theorem delegatorAddressCompare_step
    (stage : StakingStage content ctx .delegatorAddressCompare)
    (press : Press) :
    ∃ outcome, delegatorAddressCompareButton
        ⟨ctx, .delegatorAddressCompare, io⟩ press = .ok outcome ∧
      StakingStep env content ctx .delegatorAddressCompare press
        outcome := by
  obtain ⟨displays, other⟩ := stage
  obtain rfl := displays.keeps
  have stays : ∀ next : Ctx .nanoS,
      next.Displays ctx.txContent (addressText ctx.txContent.destination) ->
      next.display.strings.get SignStaking.hash =
        ctx.display.strings.get SignStaking.hash ->
      StakingStage ctx.txContent next .delegatorAddressCompare :=
    fun next moved _ => ⟨moved, other⟩
  refine scrolling_step env io rfl displays (fun _ _ => rfl) stays ?_ press
  let cleared := ctx.display.put SignStaking.fullStr (List.replicate 132 0)
  have blank : cleared.strings.Holds SignStaking.fullStr 132 [] :=
    Region.Holds.cleared ctx.display.strings (by decide)
  have length : cleared.getUint32 (SignStaking.fullStrLength .nanoS) = 42 :=
    (ctx.display.getUint32_put_of_disjoint (Or.inr (by
      rw [List.length_replicate]
      decide))).trans (displays.length.trans (length_addressText _))
  show ∃ outcome, (ctx.display.clear _ _ >>= _) = .ok outcome ∧ _
  rw [Display.clear_eq _ (by decide)]
  by_cases collects : ctx.txContent.directive = DirectiveCollectRewards
  · rw [bind_ok, if_pos collects]
    refine ⟨_, rfl, .leaves env (.inr rfl) ?_⟩
    simp only [stakingOperations, seekOperations, if_pos collects]
    rfl
  · obtain ⟨shown, shows, writes, scrolls, kept, -, start⟩ :=
      showAddress_eq blank ctx.txContent.validatorAddress
    rw [bind_ok, if_neg collects, shows]
    have displays := displays_of_scrolls (show
      ({ ctx with display := shown } : Ctx .nanoS).txContent = _ from rfl)
      scrolls (by rw [kept, length, length_addressText])
    refine ⟨_, rfl, .addressed env io displays ?_ start rfl
      ⟨displays.1, fun validator => absurd validator other⟩⟩
    simp only [stakingOperations, seekOperations, if_neg collects]
    rw [performed_writesOf_cons]
    exact writes

/-- Going on from the validator to the name. -/
theorem validatorAddressCompare_name
    (stage : StakingStage content ctx .validatorAddressCompare)
    (validator : IsValidatorOperation content.directive) :
    ∃ outcome, validatorAddressCompareButton env
        ⟨ctx, .validatorAddressCompare, io⟩ .releasedBoth = .ok outcome ∧
      StakingStep env content ctx .validatorAddressCompare .releasedBoth
        outcome := by
  obtain ⟨displays, hash⟩ := stage
  obtain rfl := displays.keeps
  have text : partsText [.text (nameText ctx.txContent)] =
      nameText ctx.txContent := List.append_nil _
  have short := length_nameText ctx.txContent
  let cleared := ctx.display.put SignStaking.fullStr (List.replicate 132 0)
  have ends : cleared.strings.get SignStaking.hash = 0 := by
    rw [← hash validator]
    exact Region.get_splice_of_disjoint _ _ _ (Or.inl (by decide))
  have copies : copyName SignStaking.fullStr ctx.txContent cleared =
      .ok (cleared.put SignStaking.fullStr (nameText ctx.txContent),
        (nameText ctx.txContent).length) := by
    rw [copyName, nameLength_eq _ (.inr ends), bind_ok, take_nameText,
      Display.write_eq _ (by
        show 32 + _ ≤ 420
        omega)]
    rfl
  refine ⟨Device.proceed ⟨ctx, .validatorAddressCompare, io⟩
      (ctx.performed (composedOperations [.text (nameText ctx.txContent)]))
      .descriptionCompare, ?_, ?_⟩
  · show (ctx.display.clear _ _ >>= _) = _
    rw [Display.clear_eq _ (by decide), bind_ok, if_pos validator, copies,
      bind_ok]
    dsimp only
    rw [finishText_eq]
    unfold Ctx.performed composedOperations
    rw [text]
    rfl
  · refine .composed env io .descriptionCompare displays
      (by simp [Part.Converts])
      (by rw [text]; omega) (congrArg some text.symm) ?_ ?_ ?_
    · intro next
      simp only [stakingOperations, seekOperations, if_pos validator]
    · rw [text]
      exact fun after displays => ⟨displays, validator⟩
    · exact fun safe => safe (.inr (.inr (.inr ⟨rfl, validator⟩)))

/-- Going on from the validator to the amount. -/
theorem validatorAddressCompare_amount
    (keeps : ctx.txContent = content)
    (other : ¬IsValidatorOperation content.directive)
    (fits : content.value.length.toNat ≤ 32) :
    ∃ outcome, validatorAddressCompareButton env
        ⟨ctx, .validatorAddressCompare, io⟩ .releasedBoth = .ok outcome ∧
      StakingStep env content ctx .validatorAddressCompare .releasedBoth
        outcome := by
  obtain rfl := keeps
  let value := ctx.txContent.value
  let text := amountText value.number
  have few : text.length ≤ 70 := length_amountText (TxInt256.number_lt fits)
  let cleared := ctx.display.put SignStaking.fullStr (List.replicate 132 0)
  obtain ⟨scratch, numbers, numbered, same⟩ := writeNumberBuf_eq fits cleared
  let counted := (scratch.put SignStaking.fullStr (padded 78 text)).put
    (SignStaking.fullStrLength .nanoS) (uint32Bytes text.length).toList
  have converts : writeStakingAmount SignStaking.fullStr
      (some (SignStaking.fullStrLength .nanoS)) value cleared =
        .ok (counted, amountConversion value.number) := by
    rw [writeStakingAmount, numbers, bind_ok]
    exact scratch.writeAmount_some fits (by decide) (by decide)
  have performed : scratch.performed (Operation.amount fullStr 0
      (some (fullStrLength .nanoS)) value scratch) = counted :=
    performed_amount _ _ _ fits scratch (by decide)
  have length : counted.getUint32 (SignStaking.fullStrLength .nanoS) =
      text.length :=
    Display.getUint32_put _ (by omega) (by decide)
  have blank : cleared.strings.Holds SignStaking.fullStr 132 [] :=
    Region.Holds.cleared ctx.display.strings (by decide)
  have holds : counted.strings.Holds SignStaking.fullStr 132 text := by
    have kept := blank.same same
    exact (kept.append_zeros text (78 - text.length)
      (by rw [List.length_nil]; omega) (by decide)).frame _ _
        (Or.inl (by decide))
  have strings : ∀ after : Ctx .nanoS, ctx.display.performed (writesOf
      (stakingOperations env ctx .validatorAddressCompare .releasedBoth after)
      ctx.display) = counted.windowed (SignStaking.partialStr .nanoS)
        SignStaking.fullStr (min 12 text.length) := by
    intro after
    simp only [stakingOperations, seekOperations, if_neg other]
    have clears : ctx.display.performed
        (Operation.clear fullStr ctx.display) = cleared := rfl
    rw [performed_writesOf_cons, clears, performed_writesOf_cons, numbered,
      performed_writesOf_cons, performed, performed_writesOf_cons,
      performed_window, length, performed_writesOf_nil]
    rfl
  have index : ({ counted with displayIndex := 0 } :
      Display .nanoS).getUint32 (SignStaking.fullStrLength .nanoS) =
        text.length := length
  show ∃ outcome, (ctx.display.clear _ _ >>= _) = .ok outcome ∧ _
  rw [Display.clear_eq _ (by decide), bind_ok]
  dsimp only
  rw [if_neg other, converts, bind_ok]
  simp only [amountConversion, Bool.not_true, Bool.false_eq_true, if_false]
  rw [index]
  by_cases long : 12 < text.length
  · have scrolls := Display.scrolls_windowed holds (by decide)
      (show SignStaking.partialStr .nanoS + 12 < _ by decide)
      (Or.inr (by decide))
    let after : Ctx .nanoS := { ctx with display :=
      { counted.windowed (SignStaking.partialStr .nanoS) SignStaking.fullStr
          12 with displayIndex := 0 } }
    have displays : after.Displays ctx.txContent text ∧ after.Windows text :=
      displays_of_scrolls rfl scrolls
        ((counted.getUint32_windowed (by decide)).trans length)
    have written := strings after
    rw [Nat.min_eq_left long.le] at written
    rw [if_pos long, Display.copy_ended _ (by decide) (by decide)]
    refine ⟨Device.proceed ⟨ctx, .validatorAddressCompare, io⟩ after
      .stakingAmountCompareLarge, rfl, ⟨displays.1, long⟩, ?_, ?_,
      fun _ _ _ => rfl⟩
    · exact (congrArg Display.strings written).symm
    · intro _ _ other member
      obtain rfl : text = other := Option.some.inj member
      exact displays.2
  · have few := not_lt.mp long
    have windowed := Display.window_windowed holds (show text.length ≤ 132
      by omega) (show SignStaking.partialStr .nanoS + text.length < _ by
        show 168 + _ < 420
        omega)
    rw [windowOn_whole] at windowed
    let after : Ctx .nanoS := { ctx with display :=
      { counted.windowed (SignStaking.partialStr .nanoS) SignStaking.fullStr
          text.length with displayIndex := 0 } }
    have written := strings after
    rw [Nat.min_eq_right few] at written
    rw [if_neg long, Display.copy_ended _ (by
      show 32 + _ ≤ 420
      omega) (by
      show 168 + _ < 420
      omega)]
    refine ⟨Device.proceed ⟨ctx, .validatorAddressCompare, io⟩ after
      .stakingAmountCompare, rfl, ⟨few, windowed⟩, ?_, ?_, ?_⟩
    · exact (congrArg Display.strings written).symm
    · intro _ _ other member
      cases member
    · intro _ _ scrolls
      cases scrolls

theorem validatorAddressCompare_step (fits : FitsNanoS content)
    (stage : StakingStage content ctx .validatorAddressCompare)
    (press : Press) :
    ∃ outcome, validatorAddressCompareButton env
        ⟨ctx, .validatorAddressCompare, io⟩ press = .ok outcome ∧
      StakingStep env content ctx .validatorAddressCompare press
        outcome := by
  have stays : ∀ next : Ctx .nanoS,
      next.Displays content (addressText content.validatorAddress) ->
      next.display.strings.get SignStaking.hash =
        ctx.display.strings.get SignStaking.hash ->
      StakingStage content next .validatorAddressCompare :=
    fun next moved same => ⟨moved, fun validator =>
      same.trans (stage.2 validator)⟩
  have keeps := stage.1.keeps
  refine scrolling_step env io rfl stage.1
    (fun _ _ => by rw [stakingOperations]) stays ?_ press
  by_cases validator : IsValidatorOperation content.directive
  · exact validatorAddressCompare_name env io stage validator
  · exact validatorAddressCompare_amount env io keeps validator
      (fits.amount validator)

/-- The screen of a long amount scrolls like the others. -/
theorem stakingAmountCompareLargeButton_eq
    (long : 12 < ctx.display.getUint32 (SignStaking.fullStrLength .nanoS))
    (press : Press) :
    stakingAmountCompareLargeButton ⟨ctx, .stakingAmountCompareLarge, io⟩
        press =
      scrollFullStr ⟨ctx, .stakingAmountCompareLarge, io⟩ press
        (.ok (Device.proceed ⟨ctx, .stakingAmountCompareLarge, io⟩ ctx
          .confirmSigning)) := by
  unfold stakingAmountCompareLargeButton scrollFullStr
  dsimp only
  rw [if_pos long]

theorem stakingAmountCompareLarge_step
    (stage : StakingStage content ctx .stakingAmountCompareLarge)
    (press : Press) :
    ∃ outcome, stakingAmountCompareLargeButton
        ⟨ctx, .stakingAmountCompareLarge, io⟩ press = .ok outcome ∧
      StakingStep env content ctx .stakingAmountCompareLarge press
        outcome := by
  obtain ⟨displays, long⟩ := stage
  have stays : ∀ next : Ctx .nanoS,
      next.Displays content (amountText content.value.number) ->
      next.display.strings.get SignStaking.hash =
        ctx.display.strings.get SignStaking.hash ->
      StakingStage content next .stakingAmountCompareLarge :=
    fun next moved _ => ⟨moved, long⟩
  rw [stakingAmountCompareLargeButton_eq io (by rwa [displays.length])]
  exact scrolling_step env io rfl displays (fun _ _ => rfl) stays
    ⟨_, rfl, .leaves env (.inr rfl) rfl⟩ press

theorem stakingAmountCompare_step
    (stage : StakingStage content ctx .stakingAmountCompare)
    (press : Press) :
    ∃ outcome, stakingAmountCompareButton ⟨ctx, .stakingAmountCompare, io⟩
        press = .ok outcome ∧
      StakingStep env content ctx .stakingAmountCompare press outcome := by
  cases press with
  | releasedLeft => exact ⟨_, rfl, .leaves env (.inl rfl) rfl⟩
  | releasedRight => exact ⟨_, rfl, .leaves env (.inr rfl) rfl⟩
  | _ => exact ⟨_, rfl, .same env io stage rfl⟩

/-- Going on from the name to the commission rates. -/
theorem descriptionCompare_step (fits : FitsNanoS content)
    (stage : StakingStage content ctx .descriptionCompare) (press : Press) :
    ∃ outcome, descriptionCompareButton env ⟨ctx, .descriptionCompare, io⟩
        press = .ok outcome ∧
      StakingStep env content ctx .descriptionCompare press outcome := by
  obtain ⟨displays, validator⟩ := stage
  obtain rfl := displays.keeps
  obtain ⟨converts, short⟩ := fits.commission validator
  have stays : ∀ next : Ctx .nanoS,
      next.Displays ctx.txContent (nameText ctx.txContent) ->
      next.display.strings.get SignStaking.hash =
        ctx.display.strings.get SignStaking.hash ->
      StakingStage ctx.txContent next .descriptionCompare :=
    fun next moved _ => ⟨moved, validator⟩
  refine scrolling_step env io rfl displays (fun _ _ => rfl) stays
    ⟨_, ?_, .composed env io .commissionRate displays converts short rfl
      (fun _ => rfl) (fun after displays => ⟨displays, validator⟩)
      fun safe => safe (.inl rfl)⟩ press
  dsimp only
  rw [if_pos validator]
  simp only [composeCommission_eq]
  exact composed_eq io env converts short _ _

/-- Going on from the commission rates to the delegation. -/
theorem commissionRate_step (fits : FitsNanoS content)
    (stage : StakingStage content ctx .commissionRate) (press : Press) :
    ∃ outcome, commissionRateButton env ⟨ctx, .commissionRate, io⟩ press =
        .ok outcome ∧
      StakingStep env content ctx .commissionRate press outcome := by
  obtain ⟨displays, validator⟩ := stage
  obtain rfl := displays.keeps
  obtain ⟨converts, short⟩ := fits.delegation validator
  have stays : ∀ next : Ctx .nanoS,
      next.Displays ctx.txContent
        (partsText (commissionParts ctx.txContent)) ->
      next.display.strings.get SignStaking.hash =
        ctx.display.strings.get SignStaking.hash ->
      StakingStage ctx.txContent next .commissionRate :=
    fun next moved _ => ⟨moved, validator⟩
  refine scrolling_step env io rfl displays (fun _ _ => rfl) stays
    ⟨_, ?_, .composed env io .delegationRate displays converts short rfl
      (fun _ => rfl) (fun after displays => ⟨displays, validator⟩)
      fun safe => safe (.inr (.inl rfl))⟩ press
  dsimp only
  rw [if_pos validator]
  simp only [composeDelegation_eq]
  exact composed_eq io env converts short _ _

/-- Going on from the delegation to the keys. -/
theorem delegationRate_step
    (stage : StakingStage content ctx .delegationRate) (press : Press) :
    ∃ outcome, delegationRateButton env ⟨ctx, .delegationRate, io⟩ press =
        .ok outcome ∧
      StakingStep env content ctx .delegationRate press outcome := by
  obtain ⟨displays, validator⟩ := stage
  obtain rfl := displays.keeps
  have keys := length_shownKeys ctx.txContent
  have text : partsText [.text (shownKeys ctx.txContent)] =
      shownKeys ctx.txContent := List.append_nil _
  have converts : ∀ part ∈ [Part.text (shownKeys ctx.txContent)],
      part.Converts := by simp [Part.Converts]
  have short : (partsText [.text (shownKeys ctx.txContent)]).length ≤ 132 := by
    rw [text]
    omega
  have stays : ∀ next : Ctx .nanoS,
      next.Displays ctx.txContent
        (partsText (delegationParts ctx.txContent)) ->
      next.display.strings.get SignStaking.hash =
        ctx.display.strings.get SignStaking.hash ->
      StakingStage ctx.txContent next .delegationRate :=
    fun next moved _ => ⟨moved, validator⟩
  refine scrolling_step env io rfl displays (fun _ _ => rfl) stays
    ⟨_, ?_, .composed env io .blsKeys displays converts short
      (congrArg some text.symm) (fun _ => rfl) (fun after displays => ?_)
      fun safe => safe (.inr (.inr (.inl rfl)))⟩ press
  · refine Eq.trans ?_ (composed_eq io env converts short .delegationRate
      .blsKeys)
    simp [composeParts, Part.append]
  · rw [text] at displays
    exact ⟨displays, validator⟩

theorem blsKeys_step (stage : StakingStage content ctx .blsKeys)
    (press : Press) :
    ∃ outcome, blsKeysButton ⟨ctx, .blsKeys, io⟩ press = .ok outcome ∧
      StakingStep env content ctx .blsKeys press outcome := by
  have stays : ∀ next : Ctx .nanoS,
      next.Displays content (shownKeys content) ->
      next.display.strings.get SignStaking.hash =
        ctx.display.strings.get SignStaking.hash ->
      StakingStage content next .blsKeys := fun _ moved _ => ⟨moved, stage.2⟩
  exact scrolling_step env io rfl stage.1 (fun _ _ => rfl) stays
    ⟨_, rfl, .leaves env (.inr rfl) rfl⟩ press

theorem confirmSigning_step (press : Press) :
    ∃ outcome, confirmSigningButton env ⟨ctx, .confirmSigning, io⟩ press =
        .ok outcome ∧
      StakingStep env content ctx .confirmSigning press outcome := by
  cases press with
  | releasedLeft => exact ⟨_, rfl, .leaves env (.inl rfl) rfl⟩
  | releasedRight =>
      have stores : ctx.display.write SignStaking.hash
          (env.keccak ctx.message) =
            .ok (ctx.display.put SignStaking.hash (env.keccak ctx.message)) :=
        ctx.display.write_eq (by
          rw [env.length_keccak]
          decide)
      exact ⟨_, congrArg (· >>= _) stores, .leaves env (.inl rfl) rfl⟩
  | _ => exact ⟨_, rfl, .same env io trivial rfl⟩

/-- Every press during the review of a staking operation. -/
theorem pressed_stakingStep (fits : FitsNanoS content) (screen : Screen)
    (stage : StakingStage content ctx screen) (press : Press) :
    ∃ outcome, pressed env .nanoS ⟨ctx, screen, io⟩ press = .ok outcome ∧
      StakingStep env content ctx screen press outcome := by
  cases screen with
  | idle => exact ⟨_, rfl, .same env io trivial rfl⟩
  | signStakingApprove => exact signStakingApprove_step env io stage press
  | delegatorAddressCompare =>
      exact delegatorAddressCompare_step env io stage press
  | validatorAddressCompare =>
      exact validatorAddressCompare_step env io fits stage press
  | stakingAmountCompareLarge =>
      exact stakingAmountCompareLarge_step env io stage press
  | stakingAmountCompare => exact stakingAmountCompare_step env io stage press
  | descriptionCompare =>
      exact descriptionCompare_step env io fits stage press
  | commissionRate => exact commissionRate_step env io fits stage press
  | delegationRate => exact delegationRate_step env io stage press
  | blsKeys => exact blsKeys_step env io stage press
  | confirmSigning => exact confirmSigning_step env io press
  | _ => exact stage.elim

end Screens

/-! ## A finished message -/

/-- The operations on a finished message. -/
def reviewStakingOperationsNanoS (content : TxContent) (title : List UInt8) :
    List (Operation .nanoS) :=
  [.put (partialStr .nanoS) 0 title,
    if content.directive = DirectiveEditValidator then
      .put fullStr 0 (content.destination.read 0 15)
    else .clear fullStr]

/-- The review of a staking operation that the parser reads. -/
theorem parseStaking_raises_nanoS (env : Env) (device : Device .nanoS)
    {ctx : Ctx .nanoS} {context : TxContext} {title : List UInt8}
    (accepts : LedgerOne.processStaking ctx.buf ctx.txContext =
      .ok (0, context))
    (titled : directiveText context.content.directive = some title)
    (zero : ctx.display.strings.get SignStaking.hash = 0) :
    ∃ outcome, parseStaking env device ctx = .ok outcome ∧
      outcome.device.screen = .signStakingApprove ∧
      outcome.device.ctx.txContext = context ∧
      outcome.device.ctx.display.strings = (ctx.display.performed (writesOf
        (reviewStakingOperationsNanoS context.content title)
        ctx.display)).strings ∧
      StakingStage context.content outcome.device.ctx
        outcome.device.screen := by
  have few := length_directiveText titled
  have parsed : ctx.processStaking =
      .ok (0, { ctx with txContext := context }) := by
    rw [Ctx.processStaking, accepts]
    rfl
  let named := ctx.display.put (SignStaking.partialStr .nanoS) title
  let shown : Display .nanoS := named.performed (writesOf
    [if context.content.directive = DirectiveEditValidator then
      .put fullStr 0 (context.content.destination.read 0 15)
    else .clear fullStr] named)
  have status : showStatusNanoS context.content named = .ok shown := by
    unfold showStatusNanoS
    by_cases edits : context.content.directive = DirectiveEditValidator
    · dsimp only [shown]
      rw [if_pos edits, if_pos edits, Display.write_eq _ (by
        rw [Region.length_read]
        decide)]
      rfl
    · dsimp only [shown]
      rw [if_neg edits, if_neg edits, Display.clear_eq _ (by decide)]
      rfl
  have unhashed : shown.strings.get SignStaking.hash = 0 := by
    have first : named.strings.get SignStaking.hash = 0 :=
      (Region.get_splice_of_disjoint _ _ _ (Or.inl (by decide))).trans zero
    refine Eq.trans ?_ first
    dsimp only [shown]
    have front : SignStaking.hash < SignStaking.fullStr := by decide
    split
    · exact Region.get_splice_of_disjoint _ _ _ (Or.inl front)
    · exact Region.get_splice_of_disjoint _ _ _ (Or.inl front)
  refine ⟨device.proceed { ctx with display := shown, txContext := context }
    .signStakingApprove, ?_, rfl, rfl, rfl, rfl, unhashed⟩
  rw [parseStaking, parsed, bind_ok]
  dsimp only [Ctx.txContent]
  rw [if_neg (by decide), titled]
  dsimp only
  rw [Display.write_eq _ (by
    show 168 + _ ≤ 420
    omega), bind_ok]
  show (showStatusNanoS context.content named >>= _) = _
  rw [status]
  rfl

end LedgerOne
