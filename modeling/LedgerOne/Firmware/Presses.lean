import LedgerOne.Firmware.Main
import LedgerOne.Firmware.Screens
import LedgerOne.Lib.Ensures

/-!
# What a press leaves as it was

A review changes the strings on the screens and, once, the parser context; it
never touches the bytes to be signed, and what it hashes are these bytes.  The
other screens sign nothing.
-/

namespace LedgerOne

/-- A press of a review that leaves the parser context alone. -/
structure Outcome.Continues (device : Device build)
    (outcome : Outcome build) : Prop where
  display : ∃ display,
    outcome.device.ctx = { device.ctx with display := display }
  screen : outcome.device.screen.signs ∨ outcome.device.screen = .idle
  hashed : ∀ bytes, .hash bytes ∈ outcome.effects ->
    bytes = device.ctx.message

section Outcomes

variable (device : Device build)

theorem continues_proceed (display : Display build) (screen : Screen)
    (signs : screen.signs) :
    (device.proceed { device.ctx with display := display } screen).Continues
      device where
  display := ⟨display, rfl⟩
  screen := Or.inl signs
  hashed := by simp [Device.proceed]

theorem continues_same (signs : device.screen.signs) :
    ({ device := device } : Outcome build).Continues device :=
  continues_proceed device device.ctx.display device.screen signs

theorem continues_throw (display : Display build) (code : Nat)
    (signs : device.screen.signs) :
    (device.throw { device.ctx with display := display } code).Continues
      device where
  display := ⟨display, rfl⟩
  screen := Or.inl signs
  hashed := by simp [Device.throw]

theorem continues_reject : device.reject.Continues device where
  display := ⟨device.ctx.display, rfl⟩
  screen := Or.inr rfl
  hashed := by simp [Device.reject, Device.respondIdle, Device.respond]

theorem continues_sign (env : Env) (hashAt : Nat) :
    Ensures (device.sign env hashAt) (Outcome.Continues device) := by
  apply Ensures.bind_any
  intro display
  apply Ensures.pure
  exact {
    display := ⟨display, rfl⟩
    screen := Or.inr rfl
    hashed := by simp [Device.respondIdle, Device.respond] }

end Outcomes

/-- A press outside the reviews. -/
structure Outcome.Idles (device : Device build) (outcome : Outcome build) :
    Prop where
  length : outcome.device.ctx.length = device.ctx.length
  txContext : outcome.device.ctx.txContext = device.ctx.txContext
  screen : outcome.device.screen.signs = false
  hashed : ∀ bytes, .hash bytes ∉ outcome.effects

/-! ## Transfers -/

section Transfers

variable (env : Env) (device : Device .nanoS) (press : Press)

theorem continues_addressCompare (signs : device.screen.signs) :
    Ensures (addressCompareButton env device press)
      (Outcome.Continues device) := by
  unfold addressCompareButton
  cases press with
  | seekLeft | seekRight =>
      apply Ensures.bind_any
      intro display
      exact Ensures.pure (continues_proceed device _ _ signs)
  | releasedBoth =>
      apply Ensures.bind_any
      intro converted
      apply Ensures.ite
      · intro _
        exact Ensures.pure (continues_throw device _ _ signs)
      · intro _
        apply Ensures.ite
        all_goals
          intro _
          apply Ensures.bind_any
          intro copied
          apply Ensures.bind_any
          intro display
          exact Ensures.pure (continues_proceed device _ _ rfl)
  | _ => exact Ensures.ok (continues_same device signs)

theorem continues_amountCompareLarge (signs : device.screen.signs) :
    Ensures (amountCompareLargeButton device press)
      (Outcome.Continues device) := by
  unfold amountCompareLargeButton
  cases press with
  | seekLeft | seekRight =>
      apply Ensures.bind_any
      intro display
      exact Ensures.pure (continues_proceed device _ _ signs)
  | releasedBoth =>
      apply Ensures.bind_any
      intro display
      exact Ensures.pure (continues_proceed device _ _ rfl)
  | _ => exact Ensures.ok (continues_same device signs)

theorem continues_amountCompare (signs : device.screen.signs) :
    Ensures (amountCompareButton device press)
      (Outcome.Continues device) := by
  unfold amountCompareButton
  cases press with
  | releasedLeft => exact Ensures.ok (continues_reject device)
  | releasedRight =>
      apply Ensures.bind_any
      intro display
      exact Ensures.pure (continues_proceed device _ _ rfl)
  | _ => exact Ensures.ok (continues_same device signs)

theorem continues_fromshardApprove (signs : device.screen.signs) :
    Ensures (fromshardApproveButton device press)
      (Outcome.Continues device) := by
  unfold fromshardApproveButton
  cases press with
  | releasedLeft => exact Ensures.ok (continues_reject device)
  | releasedRight => exact Ensures.ok (continues_proceed device _ _ rfl)
  | _ => exact Ensures.ok (continues_same device signs)

theorem continues_txApprove (signs : device.screen.signs) :
    Ensures (txApproveButton env device press)
      (Outcome.Continues device) := by
  unfold txApproveButton
  cases press with
  | releasedLeft => exact Ensures.ok (continues_reject device)
  | releasedRight => exact continues_sign device env _
  | _ => exact Ensures.ok (continues_same device signs)

end Transfers

theorem continues_approvalTxFlow (env : Env) (device : Device .nanoX)
    (press : Press) (signs : device.screen.signs) :
    Ensures (approvalTxFlowStep env device press)
      (Outcome.Continues device) := by
  unfold approvalTxFlowStep
  cases press with
  | accept => exact continues_sign device env _
  | cancel => exact Ensures.ok (continues_reject device)
  | _ => exact Ensures.ok (continues_same device signs)

theorem continues_stakingFlow (env : Env) (device : Device .nanoX)
    (press : Press) (signs : device.screen.signs) :
    Ensures (stakingFlowStep env device press)
      (Outcome.Continues device) := by
  unfold stakingFlowStep
  cases press with
  | accept => exact continues_sign device env _
  | cancel => exact Ensures.ok (continues_reject device)
  | _ => exact Ensures.ok (continues_same device signs)

/-! ## Staking operations on the Nano S -/

section Staking

variable (env : Env) (device : Device .nanoS) (press : Press)

theorem continues_scrollFullStr (proceed : Except Fault (Outcome .nanoS))
    (signs : device.screen.signs)
    (proceeds : Ensures proceed (Outcome.Continues device)) :
    Ensures (scrollFullStr device press proceed)
      (Outcome.Continues device) := by
  unfold scrollFullStr
  cases press with
  | seekLeft | seekRight =>
      apply Ensures.bind_any
      intro display
      exact Ensures.pure (continues_proceed device _ _ signs)
  | releasedBoth => exact proceeds
  | _ => exact Ensures.ok (continues_same device signs)

theorem continues_finishText (composed : Composed .nanoS) (screen : Screen)
    (signs : device.screen.signs) (next : screen.signs) :
    Ensures (finishText env device composed screen)
      (Outcome.Continues device) := by
  obtain ⟨display, offset⟩ := composed
  cases offset with
  | none => exact Ensures.ok (continues_throw device _ _ signs)
  | some offset =>
      apply Ensures.bind_any
      intro stored
      apply Ensures.bind_any
      intro copied
      exact Ensures.pure (continues_proceed device _ _ next)

theorem continues_confirmSigning (signs : device.screen.signs) :
    Ensures (confirmSigningButton env device press)
      (Outcome.Continues device) := by
  unfold confirmSigningButton
  cases press with
  | releasedLeft => exact Ensures.ok (continues_reject device)
  | releasedRight => exact continues_sign device env _
  | _ => exact Ensures.ok (continues_same device signs)

theorem continues_blsKeys (signs : device.screen.signs) :
    Ensures (blsKeysButton device press) (Outcome.Continues device) :=
  continues_scrollFullStr device press _ signs
    (Ensures.ok (continues_proceed device _ _ rfl))

theorem continues_delegationRate (signs : device.screen.signs) :
    Ensures (delegationRateButton env device press)
      (Outcome.Continues device) := by
  apply continues_scrollFullStr device press _ signs
  apply Ensures.bind_any
  intro cleared
  apply Ensures.bind_any
  intro composed
  exact continues_finishText env device composed _ signs rfl

theorem continues_commissionRate (signs : device.screen.signs) :
    Ensures (commissionRateButton env device press)
      (Outcome.Continues device) := by
  apply continues_scrollFullStr device press _ signs
  apply Ensures.ite
  · intro _
    apply Ensures.bind_any
    intro cleared
    apply Ensures.bind_any
    intro composed
    exact continues_finishText env device composed _ signs rfl
  · intro _
    exact Ensures.pure (continues_same device signs)

theorem continues_descriptionCompare (signs : device.screen.signs) :
    Ensures (descriptionCompareButton env device press)
      (Outcome.Continues device) := by
  apply continues_scrollFullStr device press _ signs
  apply Ensures.ite
  · intro _
    apply Ensures.bind_any
    intro cleared
    apply Ensures.bind_any
    intro composed
    exact continues_finishText env device composed _ signs rfl
  · intro _
    exact Ensures.pure (continues_same device signs)

theorem continues_stakingAmountCompareLarge (signs : device.screen.signs) :
    Ensures (stakingAmountCompareLargeButton device press)
      (Outcome.Continues device) := by
  unfold stakingAmountCompareLargeButton
  cases press with
  | seekLeft | seekRight =>
      apply Ensures.bind_any
      intro display
      exact Ensures.pure (continues_proceed device _ _ signs)
  | releasedBoth => exact Ensures.ok (continues_proceed device _ _ rfl)
  | _ => exact Ensures.ok (continues_same device signs)

theorem continues_stakingAmountCompare (signs : device.screen.signs) :
    Ensures (stakingAmountCompareButton device press)
      (Outcome.Continues device) := by
  unfold stakingAmountCompareButton
  cases press with
  | releasedLeft => exact Ensures.ok (continues_reject device)
  | releasedRight => exact Ensures.ok (continues_proceed device _ _ rfl)
  | _ => exact Ensures.ok (continues_same device signs)

theorem continues_validatorAddressCompare (signs : device.screen.signs) :
    Ensures (validatorAddressCompareButton env device press)
      (Outcome.Continues device) := by
  apply continues_scrollFullStr device press _ signs
  apply Ensures.bind_any
  intro cleared
  apply Ensures.ite
  · intro _
    apply Ensures.bind_any
    intro named
    exact continues_finishText env device _ _ signs rfl
  · intro _
    apply Ensures.bind_any
    intro converted
    apply Ensures.ite
    · intro _
      exact Ensures.pure (continues_throw device _ _ signs)
    · intro _
      apply Ensures.ite
      all_goals
        intro _
        apply Ensures.bind_any
        intro copied
        apply Ensures.bind_any
        intro display
        exact Ensures.pure (continues_proceed device _ _ rfl)

theorem continues_delegatorAddressCompare (signs : device.screen.signs) :
    Ensures (delegatorAddressCompareButton device press)
      (Outcome.Continues device) := by
  apply continues_scrollFullStr device press _ signs
  apply Ensures.bind_any
  intro cleared
  apply Ensures.ite
  · intro _
    exact Ensures.pure (continues_proceed device _ _ rfl)
  · intro _
    apply Ensures.bind_any
    intro display
    exact Ensures.pure (continues_proceed device _ _ rfl)

theorem continues_signStakingApprove (signs : device.screen.signs) :
    Ensures (signStakingApproveButton device press)
      (Outcome.Continues device) := by
  unfold signStakingApproveButton
  cases press with
  | releasedLeft => exact Ensures.ok (continues_reject device)
  | releasedRight =>
      apply Ensures.bind_any
      intro cleared
      apply Ensures.bind_any
      intro counted
      apply Ensures.ite
      all_goals
        intro _
        apply Ensures.bind_any
        intro display
        exact Ensures.pure (continues_proceed device _ _ rfl)
  | _ => exact Ensures.ok (continues_same device signs)

end Staking

/-- Every press of a review but the one that parses a transfer on the Nano S
leaves the bytes and the parser context as they are. -/
theorem continues_pressed (env : Env) (device : Device build) (press : Press)
    (signs : device.screen.signs)
    (parsed : device.screen ≠ .signTxApprove) :
    Ensures (pressed env build device press)
      (Outcome.Continues device) := by
  cases build with
  | nanoS =>
      show Ensures (pressNanoS env device press) _
      unfold pressNanoS
      cases screen : device.screen with
      | idle | getPublicKeyApprove | getPublicKeyCompare | displayPublicFlow =>
          simp [screen, Screen.signs] at signs
      | signTxApprove => exact absurd screen parsed
      | addressCompare => exact continues_addressCompare env device press signs
      | amountCompareLarge =>
          exact continues_amountCompareLarge device press signs
      | amountCompare => exact continues_amountCompare device press signs
      | fromshardApprove =>
          exact continues_fromshardApprove device press signs
      | txApprove => exact continues_txApprove env device press signs
      | signStakingApprove =>
          exact continues_signStakingApprove device press signs
      | delegatorAddressCompare =>
          exact continues_delegatorAddressCompare device press signs
      | validatorAddressCompare =>
          exact continues_validatorAddressCompare env device press signs
      | stakingAmountCompareLarge =>
          exact continues_stakingAmountCompareLarge device press signs
      | stakingAmountCompare =>
          exact continues_stakingAmountCompare device press signs
      | descriptionCompare =>
          exact continues_descriptionCompare env device press signs
      | commissionRate => exact continues_commissionRate env device press signs
      | delegationRate => exact continues_delegationRate env device press signs
      | blsKeys => exact continues_blsKeys device press signs
      | confirmSigning => exact continues_confirmSigning env device press signs
      | approvalTxFlow | stakingFlow flow =>
          exact Ensures.ok (continues_same device signs)
  | nanoX =>
      show Ensures (pressNanoX env device press) _
      unfold pressNanoX
      cases screen : device.screen with
      | idle | displayPublicFlow => simp [screen, Screen.signs] at signs
      | approvalTxFlow => exact continues_approvalTxFlow env device press signs
      | stakingFlow flow => exact continues_stakingFlow env device press signs
      | _ => exact Ensures.ok (continues_same device signs)

/-! ## Outside the reviews -/

section Outside

variable (device : Device build)

theorem idles_proceed (ctx : Ctx build) (screen : Screen)
    (length : ctx.length = device.ctx.length)
    (txContext : ctx.txContext = device.ctx.txContext)
    (silent : screen.signs = false) :
    (device.proceed ctx screen).Idles device where
  length := length
  txContext := txContext
  screen := silent
  hashed := by simp [Device.proceed]

theorem idles_same (silent : device.screen.signs = false) :
    ({ device := device } : Outcome build).Idles device :=
  idles_proceed device device.ctx device.screen rfl rfl silent

theorem idles_respondIdle (code tx : Nat) :
    (device.respondIdle code tx).Idles device where
  length := rfl
  txContext := rfl
  screen := rfl
  hashed := by simp [Device.respondIdle, Device.respond]

end Outside

theorem getOneAddress_ctx (env : Env) (device : Device build) :
    (getOneAddress env device).ctx = device.ctx := by
  unfold getOneAddress
  split <;> rfl

theorem getOneAddress_screen (env : Env) (device : Device build) :
    (getOneAddress env device).screen = device.screen := by
  unfold getOneAddress
  split <;> rfl

theorem idles_getPublicKeyApprove (env : Env) (device : Device .nanoS)
    (press : Press) (silent : device.screen.signs = false) :
    (getPublicKeyApproveButton env device press).Idles device := by
  cases press with
  | releasedLeft => exact idles_respondIdle device _ _
  | releasedRight =>
      exact {
        length := by
          show (getOneAddress env device).ctx.length = _
          rw [getOneAddress_ctx]
        txContext := by
          show (getOneAddress env device).ctx.txContext = _
          rw [getOneAddress_ctx]
        screen := rfl
        hashed := by
          simp [getPublicKeyApproveButton, getPublicKey, Device.respond] }
  | _ => exact idles_same device silent

theorem idles_getPublicKeyCompare (device : Device .nanoS) (press : Press)
    (silent : device.screen.signs = false) :
    (getPublicKeyCompareButton device press).Idles device := by
  cases press with
  | seekLeft | seekRight => exact idles_proceed device _ _ rfl rfl silent
  | releasedBoth => exact idles_proceed device _ _ rfl rfl rfl
  | _ => exact idles_same device silent

theorem idles_displayPublicFlow (device : Device .nanoX) (press : Press)
    (silent : device.screen.signs = false) :
    (displayPublicFlowStep device press).Idles device := by
  cases press with
  | accept => exact idles_respondIdle device _ _
  | cancel => exact idles_respondIdle device _ _
  | _ => exact idles_same device silent

/-- No press outside the reviews signs or starts a review. -/
theorem idles_pressed (env : Env) (device : Device build) (press : Press)
    (silent : device.screen.signs = false) :
    Ensures (pressed env build device press) (Outcome.Idles device) := by
  cases build with
  | nanoS =>
      show Ensures (pressNanoS env device press) _
      unfold pressNanoS
      cases screen : device.screen with
      | getPublicKeyApprove =>
          exact Ensures.ok (idles_getPublicKeyApprove env device press silent)
      | getPublicKeyCompare =>
          exact Ensures.ok (idles_getPublicKeyCompare device press silent)
      | idle | displayPublicFlow => exact Ensures.ok (idles_same device silent)
      | _ => simp [screen, Screen.signs] at silent
  | nanoX =>
      show Ensures (pressNanoX env device press) _
      unfold pressNanoX
      cases screen : device.screen with
      | displayPublicFlow =>
          exact Ensures.ok (idles_displayPublicFlow device press silent)
      | idle | getPublicKeyApprove | getPublicKeyCompare =>
          exact Ensures.ok (idles_same device silent)
      | _ => simp [screen, Screen.signs] at silent

theorem ctx_displayPublicFlow (device : Device .nanoX) (press : Press) :
    (displayPublicFlowStep device press).device.ctx = device.ctx := by
  cases press <;> rfl

/-- Outside the reviews only the comparison of the address touches the
context. -/
theorem ctx_pressed (env : Env) (device : Device build) (press : Press)
    (silent : device.screen.signs = false)
    (elsewhere : device.screen.comparesAddress = false) :
    Ensures (pressed env build device press) fun outcome =>
      outcome.device.ctx = device.ctx := by
  cases build with
  | nanoS =>
      show Ensures (pressNanoS env device press) _
      unfold pressNanoS
      cases screen : device.screen with
      | idle | displayPublicFlow => exact Ensures.ok rfl
      | getPublicKeyApprove | getPublicKeyCompare =>
          simp [screen, Screen.comparesAddress] at elsewhere
      | _ => simp [screen, Screen.signs] at silent
  | nanoX =>
      show Ensures (pressNanoX env device press) _
      unfold pressNanoX
      cases screen : device.screen with
      | displayPublicFlow =>
          exact Ensures.ok (ctx_displayPublicFlow device press)
      | idle | getPublicKeyApprove | getPublicKeyCompare =>
          exact Ensures.ok rfl
      | _ => simp [screen, Screen.signs] at silent

/-! ## The exception handler -/

/-- The exceptions of the SDK become errors. -/
theorem statusOf_ne_ok {e : Nat} (small : e < 0x1000) :
    statusOf e ≠ SW_OK := by
  have high : e &&& 0xF000 = 0 := by
    apply Nat.eq_of_testBit_eq
    intro index
    rw [Nat.testBit_and, Nat.zero_testBit]
    by_cases low : index < 12
    · have clear : (0xF000 : Nat).testBit index = false := by
        interval_cases index <;> rfl
      rw [clear, Bool.and_false]
    · have clear : e.testBit index = false := by
        apply Nat.testBit_lt_two_pow
        calc e < 2 ^ 12 := small
          _ ≤ 2 ^ index :=
            Nat.pow_le_pow_right (by omega) (Nat.le_of_not_lt low)
      rw [clear, Bool.false_and]
  have below : 0x6800 ||| (e &&& 0x7FF) < 2 ^ 15 :=
    Nat.or_lt_two_pow (by decide)
      (lt_of_le_of_lt Nat.and_le_right (by decide))
  unfold statusOf
  rw [high, if_neg (by decide), SW_OK]
  omega

section Caught

variable (outcome : Outcome build)

@[simp] theorem caught_ctx : outcome.caught.1.ctx = outcome.device.ctx := by
  unfold Outcome.caught
  split <;> rfl

@[simp] theorem caught_screen :
    outcome.caught.1.screen = outcome.device.screen := by
  unfold Outcome.caught
  split <;> rfl

@[simp] theorem hash_mem_caught (bytes : List UInt8) :
    .hash bytes ∈ outcome.caught.2 ↔ .hash bytes ∈ outcome.effects := by
  unfold Outcome.caught
  split <;> simp

end Caught

end LedgerOne
