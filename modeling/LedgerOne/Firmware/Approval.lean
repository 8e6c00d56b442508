import LedgerOne.Firmware.Presses
import LedgerOne.Firmware.Room

/-!
# Presses that lead to a signature

The last screens of a review compose texts of fixed size only, so that nothing
keeps the user from signing what is in the buffer.
-/

namespace LedgerOne

/-- Some presses make the device sign these bytes. -/
def Device.Signable (env : Env) (device : Device build)
    (bytes : List UInt8) : Prop :=
  ∃ presses : List Press, ∃ reached effects,
    (firmware env build).run (presses.map .press) device =
      .ok (reached, effects) ∧ .hash bytes ∈ effects

section Rules

variable {env : Env} {device : Device build} {bytes : List UInt8}
  (press : Press)

/-- What a press signs can be signed. -/
theorem signable_now (outcome : Outcome build)
    (presses : pressed env build device press = .ok outcome)
    (signed : .hash bytes ∈ outcome.caught.2) :
    device.Signable env bytes := by
  have runs : (firmware env build).run ([press].map .press) device =
      .ok (outcome.caught.1, outcome.caught.2 ++ []) := by
    rw [List.map_cons, List.map_nil, Machine.run, step_of_pressed press presses]
    rfl
  exact ⟨[press], _, _, runs, List.mem_append_left _ signed⟩

/-- What can be signed after a press can be signed before it. -/
theorem signable_after (outcome : Outcome build)
    (presses : pressed env build device press = .ok outcome)
    (signable : outcome.caught.1.Signable env bytes) :
    device.Signable env bytes := by
  obtain ⟨later, reached, effects, runs, signed⟩ := signable
  refine ⟨press :: later, reached, outcome.caught.2 ++ effects, ?_,
    List.mem_append_right _ signed⟩
  rw [List.map_cons, Machine.run, step_of_pressed press presses]
  dsimp only
  rw [runs]

theorem signable_of_sign (hashAt : Nat)
    (presses : pressed env build device press = device.sign env hashAt)
    (fits : hashAt + 32 ≤ build.stringsSize) :
    device.Signable env device.ctx.message := by
  obtain ⟨display, written⟩ := (device.ctx.display.succeeds_write hashAt
    (env.keccak device.ctx.message) (by rwa [env.length_keccak])).exists_ok
  have signs := presses
  unfold Device.sign at signs
  dsimp only at signs
  rw [written] at signs
  exact signable_now press _ signs (List.mem_cons_self ..)

end Rules

section NanoS

variable (env : Env) {device : Device .nanoS}

theorem signable_txApprove (screen : device.screen = .txApprove) :
    device.Signable env device.ctx.message := by
  apply signable_of_sign .releasedRight SignTxn.hash
  · simp only [pressed, pressNanoS, screen, txApproveButton]
  · decide

theorem signable_fromshardApprove
    (screen : device.screen = .fromshardApprove) :
    device.Signable env device.ctx.message := by
  apply signable_after .releasedRight
    (device.proceed device.ctx .txApprove)
  · simp only [pressed, pressNanoS, screen, fromshardApproveButton]
  · exact signable_txApprove env rfl

theorem succeeds_assignShardString {build : Build} (content : TxContent)
    (display : Display build) :
    Succeeds (assignShardString content display) := by
  apply display.succeeds_write
  have room : SignTxn.shardStr + 64 ≤ build.stringsSize := by
    cases build <;> decide
  rw [List.length_append, List.length_take, List.length_singleton]
  omega

theorem signable_amountCompare (screen : device.screen = .amountCompare) :
    device.Signable env device.ctx.message := by
  obtain ⟨display, assigned⟩ := (succeeds_assignShardString
    device.ctx.txContent device.ctx.display).exists_ok
  apply signable_after .releasedRight
    (device.proceed { device.ctx with display := display } .fromshardApprove)
  · simp only [pressed, pressNanoS, screen, amountCompareButton, assigned]
    rfl
  · exact signable_fromshardApprove env rfl

theorem signable_amountCompareLarge
    (screen : device.screen = .amountCompareLarge) :
    device.Signable env device.ctx.message := by
  obtain ⟨display, assigned⟩ := (succeeds_assignShardString
    device.ctx.txContent device.ctx.display).exists_ok
  apply signable_after .releasedBoth
    (device.proceed { device.ctx with display := display } .fromshardApprove)
  · simp only [pressed, pressNanoS, screen, amountCompareLargeButton,
      assigned]
    rfl
  · exact signable_fromshardApprove env rfl

theorem signable_confirmSigning (screen : device.screen = .confirmSigning) :
    device.Signable env device.ctx.message := by
  apply signable_of_sign .releasedRight SignStaking.hash
  · simp only [pressed, pressNanoS, screen, confirmSigningButton]
  · decide

theorem signable_stakingAmountCompare
    (screen : device.screen = .stakingAmountCompare) :
    device.Signable env device.ctx.message := by
  apply signable_after .releasedRight
    (device.proceed device.ctx .confirmSigning)
  · simp only [pressed, pressNanoS, screen, stakingAmountCompareButton]
  · exact signable_confirmSigning env rfl

theorem signable_stakingAmountCompareLarge
    (screen : device.screen = .stakingAmountCompareLarge) :
    device.Signable env device.ctx.message := by
  apply signable_after .releasedBoth
    (device.proceed device.ctx .confirmSigning)
  · simp only [pressed, pressNanoS, screen, stakingAmountCompareLargeButton]
  · exact signable_confirmSigning env rfl

theorem signable_blsKeys (screen : device.screen = .blsKeys) :
    device.Signable env device.ctx.message := by
  apply signable_after .releasedBoth
    (device.proceed device.ctx .confirmSigning)
  · simp only [pressed, pressNanoS, screen, blsKeysButton, scrollFullStr]
  · exact signable_confirmSigning env rfl

theorem signable_delegationRate (screen : device.screen = .delegationRate) :
    device.Signable env device.ctx.message := by
  have short := length_shownKeys device.ctx.txContent
  obtain ⟨cleared, clears⟩ := (device.ctx.display.succeeds_write
    SignStaking.fullStr (List.replicate 132 0)
    (by rw [List.length_replicate]; decide)).exists_ok
  obtain ⟨named, names⟩ := (cleared.succeeds_write
    (SignStaking.fullStr + 0) (shownKeys device.ctx.txContent)
    (by show 32 + 0 + _ ≤ 420; omega)).exists_ok
  obtain ⟨counted, counts⟩ := (named.succeeds_write
    (SignStaking.fullStrLength .nanoS)
    (uint32Bytes (0 + (shownKeys device.ctx.txContent).length)).toList
    (by simp [SignStaking.fullStrLength, Build.stringsSize])).exists_ok
  obtain ⟨copied, copies⟩ := (counted.succeeds_copy
    (SignStaking.partialStr .nanoS) SignStaking.fullStr 12 (by decide)
    (by decide)).exists_ok
  apply signable_after .releasedBoth
    (device.proceed { device.ctx with display := copied } .blsKeys)
  · simp only [pressed, pressNanoS, screen, delegationRateButton,
      scrollFullStr, Display.clear, clears, appendText, names, bind,
      Except.bind, pure, Except.pure, finishText, Display.putUint32, counts,
      copies]
  · exact signable_blsKeys env rfl

end NanoS

theorem signable_approvalTxFlow (env : Env) {device : Device .nanoX}
    (screen : device.screen = .approvalTxFlow) :
    device.Signable env device.ctx.message := by
  apply signable_of_sign .accept SignTxn.hash
  · simp only [pressed, pressNanoX, screen, approvalTxFlowStep]
  · decide

theorem signable_stakingFlow (env : Env) {device : Device .nanoX}
    {flow : StakingFlow} (screen : device.screen = .stakingFlow flow) :
    device.Signable env device.ctx.message := by
  apply signable_of_sign .accept SignStaking.hash
  · simp only [pressed, pressNanoX, screen, stakingFlowStep]
  · decide

/-- The screens from which the review can be finished whatever the context
holds. -/
def Screen.closesReview : Build -> Screen -> Bool
  | .nanoS, .amountCompareLarge => true
  | .nanoS, .amountCompare => true
  | .nanoS, .fromshardApprove => true
  | .nanoS, .txApprove => true
  | .nanoS, .stakingAmountCompareLarge => true
  | .nanoS, .stakingAmountCompare => true
  | .nanoS, .delegationRate => true
  | .nanoS, .blsKeys => true
  | .nanoS, .confirmSigning => true
  | .nanoX, .approvalTxFlow => true
  | .nanoX, .stakingFlow _ => true
  | _, _ => false

theorem signable_closesReview (env : Env) {device : Device build}
    (closes : Screen.closesReview build device.screen) :
    device.Signable env device.ctx.message := by
  cases build with
  | nanoS =>
      cases screen : device.screen with
      | amountCompareLarge => exact signable_amountCompareLarge env screen
      | amountCompare => exact signable_amountCompare env screen
      | fromshardApprove => exact signable_fromshardApprove env screen
      | txApprove => exact signable_txApprove env screen
      | stakingAmountCompareLarge =>
          exact signable_stakingAmountCompareLarge env screen
      | stakingAmountCompare => exact signable_stakingAmountCompare env screen
      | delegationRate => exact signable_delegationRate env screen
      | blsKeys => exact signable_blsKeys env screen
      | confirmSigning => exact signable_confirmSigning env screen
      | _ => simp [screen, Screen.closesReview] at closes
  | nanoX =>
      cases screen : device.screen with
      | approvalTxFlow => exact signable_approvalTxFlow env screen
      | stakingFlow flow => exact signable_stakingFlow env screen
      | _ => simp [screen, Screen.closesReview] at closes

end LedgerOne
