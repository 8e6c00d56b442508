import LedgerOne.Firmware.Replies
import LedgerOne.Firmware.StakingScreens
import LedgerOne.Firmware.TransferReview

/-!
# Going on

The press with which the user goes on leads from every screen of a review on
the Nano S to the next one and does nothing else.
-/

namespace LedgerOne

/-- A press that leads to one of some screens and does nothing else. -/
structure Outcome.Onward (device : Device build) (screens : List Screen)
    (outcome : Outcome build) : Prop where
  effects : outcome.effects = []
  thrown : outcome.thrown = none
  screen : outcome.device.screen ∈ screens
  message : outcome.device.ctx.message = device.ctx.message

section Onward

variable {env : Env} {device : Device build} {screens : List Screen}

theorem onward_proceed {ctx : Ctx build} {screen : Screen}
    (same : ctx.message = device.ctx.message) (listed : screen ∈ screens) :
    (device.proceed ctx screen).Onward device screens :=
  ⟨rfl, rfl, listed, same⟩

/-- A step that goes on. -/
theorem Outcome.Onward.step {press : Press} {outcome : Outcome build}
    (onward : outcome.Onward device screens)
    (presses : pressed env build device press = .ok outcome) :
    (firmware env build).step device (.press press) =
      .ok (outcome.device, []) := by
  rw [step_of_pressed press presses, caught_of_quiet onward.thrown,
    onward.effects]

end Onward

/-! ## Transfers -/

section Transfers

variable (env : Env) (device : Device .nanoS)

theorem onward_signTxApprove :
    Ensures (signTxApproveButton device .releasedRight)
      (Outcome.Onward device [.addressCompare]) := by
  apply Ensures.bind parsed_processTx
  rintro ⟨code, ctx⟩ parsed
  apply Ensures.bind_any
  intro addressed
  apply Ensures.bind_any
  intro copied
  apply Ensures.bind_any
  intro ended
  refine Ensures.pure (onward_proceed ?_ (List.mem_singleton_self _))
  show ctx.buf.read 0 ctx.length = device.ctx.buf.read 0 device.ctx.length
  rw [parsed.buf, parsed.length]

theorem onward_addressCompare
    (short : device.ctx.txContent.value.length.toNat ≤ 32) :
    Ensures (addressCompareButton env device .releasedBoth)
      (Outcome.Onward device [.amountCompareLarge, .amountCompare]) := by
  have writes := device.ctx.display.writeAmount_some short
    (show SignTxn.amountStr + 78 ≤ Build.nanoS.stringsSize by decide)
    (show SignTxn.amountLength + 4 ≤ Build.nanoS.stringsSize by decide)
  show Ensures (device.ctx.display.writeAmount _ _ _ >>= _) _
  rw [writes, bind_ok]
  dsimp only [amountConversion]
  rw [if_neg (by decide)]
  apply Ensures.ite
  · intro long
    apply Ensures.bind_any
    intro copied
    apply Ensures.bind_any
    intro ended
    exact Ensures.pure (onward_proceed rfl List.mem_cons_self)
  · intro few
    apply Ensures.bind_any
    intro copied
    apply Ensures.bind_any
    intro ended
    exact Ensures.pure (onward_proceed rfl
      (List.mem_cons_of_mem _ List.mem_cons_self))

end Transfers

/-! ## Staking operations -/

section Staking

variable (env : Env) (device : Device .nanoS)

theorem onward_signStakingApprove :
    Ensures (signStakingApproveButton device .releasedRight)
      (Outcome.Onward device
        [if IsValidatorOperation device.ctx.txContent.directive then
          .validatorAddressCompare else .delegatorAddressCompare]) := by
  apply Ensures.bind_any
  intro cleared
  apply Ensures.bind_any
  intro counted
  split_ifs with validator
  · apply Ensures.bind_any
    intro shown
    exact Ensures.pure (onward_proceed rfl (List.mem_singleton_self _))
  · apply Ensures.bind_any
    intro shown
    exact Ensures.pure (onward_proceed rfl (List.mem_singleton_self _))

theorem onward_delegatorAddressCompare :
    Ensures (delegatorAddressCompareButton device .releasedBoth)
      (Outcome.Onward device
        [if device.ctx.txContent.directive = DirectiveCollectRewards then
          .confirmSigning else .validatorAddressCompare]) := by
  apply Ensures.bind_any
  intro cleared
  split_ifs with collects
  · exact Ensures.pure (onward_proceed rfl (List.mem_singleton_self _))
  · apply Ensures.bind_any
    intro shown
    exact Ensures.pure (onward_proceed rfl (List.mem_singleton_self _))

/-- The end of a text that was composed. -/
theorem onward_finishText (display : Display .nanoS) (length : Nat)
    (screen : Screen) :
    Ensures (finishText env device (display, some length) screen)
      (Outcome.Onward device [screen]) := by
  apply Ensures.bind_any
  intro counted
  apply Ensures.bind_any
  intro copied
  exact Ensures.pure (onward_proceed rfl (List.mem_singleton_self _))

theorem onward_validatorAddressCompare_name
    (validator : IsValidatorOperation device.ctx.txContent.directive) :
    Ensures (validatorAddressCompareButton env device .releasedBoth)
      (Outcome.Onward device [.descriptionCompare]) := by
  apply Ensures.bind_any
  intro cleared
  rw [if_pos validator]
  apply Ensures.bind_any
  rintro ⟨display, length⟩
  exact onward_finishText env device display length _

theorem onward_validatorAddressCompare_amount
    (other : ¬IsValidatorOperation device.ctx.txContent.directive)
    (short : device.ctx.txContent.value.length.toNat ≤ 32) :
    Ensures (validatorAddressCompareButton env device .releasedBoth)
      (Outcome.Onward device
        [.stakingAmountCompareLarge, .stakingAmountCompare]) := by
  apply Ensures.bind_any
  intro cleared
  obtain ⟨scratch, numbers, -, -⟩ := writeNumberBuf_eq short cleared
  have converts := scratch.writeAmount_some short
    (show SignStaking.fullStr + 78 ≤ Build.nanoS.stringsSize by decide)
    (show SignStaking.fullStrLength .nanoS + 4 ≤ Build.nanoS.stringsSize by
      decide)
  rw [if_neg other, writeStakingAmount, numbers, bind_ok, converts, bind_ok]
  simp only [amountConversion, Bool.not_true, Bool.false_eq_true, if_false]
  apply Ensures.ite
  · intro long
    apply Ensures.bind_any
    intro copied
    apply Ensures.bind_any
    intro ended
    exact Ensures.pure (onward_proceed rfl List.mem_cons_self)
  · intro few
    apply Ensures.bind_any
    intro copied
    apply Ensures.bind_any
    intro ended
    exact Ensures.pure (onward_proceed rfl
      (List.mem_cons_of_mem _ List.mem_cons_self))

/-- A text whose parts convert is always composed. -/
theorem onward_composed {ctx : Ctx .nanoS} (io : Region 260)
    {parts : List Part} (converts : ∀ part ∈ parts, part.Converts)
    (short : (partsText parts).length ≤ 132) (screen next : Screen) :
    Ensures (ctx.display.clear SignStaking.fullStr 132 >>= fun display =>
        composeParts SignStaking.fullStr parts (display, some 0) >>=
          fun composed => finishText env ⟨ctx, screen, io⟩ composed next)
      (Outcome.Onward ⟨ctx, screen, io⟩ [next]) := by
  rw [composed_eq io env converts short screen next]
  exact Ensures.ok (onward_proceed rfl (List.mem_singleton_self _))

theorem onward_descriptionCompare
    (validator : IsValidatorOperation device.ctx.txContent.directive)
    (fits : FitsNanoS device.ctx.txContent) :
    Ensures (descriptionCompareButton env device .releasedBoth)
      (Outcome.Onward device [.commissionRate]) := by
  obtain ⟨ctx, screen, io⟩ := device
  obtain ⟨converts, short⟩ := fits.commission validator
  show Ensures (if _ then _ else _) _
  rw [if_pos validator]
  simp only [composeCommission_eq]
  exact onward_composed env io converts short screen _

theorem onward_commissionRate
    (validator : IsValidatorOperation device.ctx.txContent.directive)
    (fits : FitsNanoS device.ctx.txContent) :
    Ensures (commissionRateButton env device .releasedBoth)
      (Outcome.Onward device [.delegationRate]) := by
  obtain ⟨ctx, screen, io⟩ := device
  obtain ⟨converts, short⟩ := fits.delegation validator
  show Ensures (if _ then _ else _) _
  rw [if_pos validator]
  simp only [composeDelegation_eq]
  exact onward_composed env io converts short screen _

theorem onward_delegationRate :
    Ensures (delegationRateButton env device .releasedBoth)
      (Outcome.Onward device [.blsKeys]) := by
  have appends : ∀ cleared : Display .nanoS,
      Ensures (appendText SignStaking.fullStr (shownKeys device.ctx.txContent)
        (cleared, some 0)) fun composed => ∃ display length,
          composed = (display, some length) := by
    intro cleared
    apply Ensures.bind_any
    intro display
    exact Ensures.pure ⟨display, _, rfl⟩
  apply Ensures.bind_any
  intro cleared
  apply Ensures.bind (appends cleared)
  rintro _ ⟨display, length, rfl⟩
  exact onward_finishText env device display length _

end Staking

end LedgerOne
