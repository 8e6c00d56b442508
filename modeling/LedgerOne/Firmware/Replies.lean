import LedgerOne.Decoder.Lengths
import LedgerOne.Decoder.Order
import LedgerOne.Firmware.Composing
import LedgerOne.Firmware.Sessions

/-!
# How a press of a review is answered

A press of a review is silent, or it declines, or it signs; the two answers
close the review.  No press throws an exception: the texts are composed of
numbers that convert.
-/

namespace LedgerOne

/-- The screens of the review of a staking operation. -/
def Screen.reviewsStaking : Screen -> Bool
  | .signStakingApprove => true
  | .delegatorAddressCompare => true
  | .validatorAddressCompare => true
  | .stakingAmountCompareLarge => true
  | .stakingAmountCompare => true
  | .descriptionCompare => true
  | .commissionRate => true
  | .delegationRate => true
  | .blsKeys => true
  | .confirmSigning => true
  | .stakingFlow _ => true
  | _ => false

/-- What a press of a review puts out. -/
inductive Outcome.Replies (env : Env) (device : Device build)
    (outcome : Outcome build) : Prop
  /-- The review goes on. -/
  | quiet (thrown : outcome.thrown = none) (effects : outcome.effects = [])
    (signs : outcome.device.screen.signs)
    (staking : outcome.device.screen.reviewsStaking ->
      device.screen.reviewsStaking)
  | declines (rejected : outcome = device.reject)
  | agrees (thrown : outcome.thrown = none)
    (idle : outcome.device.screen = .idle)
    (effects : outcome.effects = [.hash device.ctx.message,
      .respond (env.signature (env.keccak device.ctx.message)) SW_OK])

/-! ## Steps -/

section Caught

variable {outcome : Outcome build} {next : Device build}
  {outputs : List Effect}

/-- The step of a handler that ends. -/
theorem eq_of_step
    (steps : (Except.ok outcome : Except Fault (Outcome build)).map
      Outcome.caught = .ok (next, outputs)) :
    next = outcome.caught.1 ∧ outputs = outcome.caught.2 := by
  have same : outcome.caught = (next, outputs) := Except.ok.inj steps
  exact ⟨by rw [same], by rw [same]⟩

theorem caught_of_quiet (quiet : outcome.thrown = none) :
    outcome.caught = (outcome.device, outcome.effects) := by
  rw [Outcome.caught, quiet]

theorem caught_of_thrown {code : Nat} (thrown : outcome.thrown = some code) :
    outcome.caught.2 = outcome.effects ++ [.respond [] (statusOf code)] := by
  rw [Outcome.caught, thrown]

end Caught

/-! ## Numbers that convert -/

section Converting

theorem ensures_tostring78 (number : Uint256) :
    Ensures (tostring78 number) fun digits => digits.isSome := by
  rw [tostring78, tostring256_eq]
  exact Ensures.ite (fun _ => Ensures.ok rfl) fun _ => Ensures.error trivial

theorem ensures_convertNumericDecimalToString {int : TxInt256}
    (short : int.length.toNat ≤ 32) :
    Ensures (convertNumericDecimalToString int) fun text => text.isSome := by
  unfold convertNumericDecimalToString
  rw [if_neg (Nat.not_lt.mpr short)]
  apply Ensures.bind_any
  intro numberBuf
  apply Ensures.bind (ensures_tostring78 _)
  intro digits printed
  exact Ensures.pure (by simpa using printed)

/-- The conversion of an amount that is not too long. -/
theorem ensures_writeAmount (display : Display build) (offset : Nat)
    (lengthAt : Option Nat) (int : TxInt256) :
    Ensures (display.writeAmount offset lengthAt int) fun result =>
      result.2.succeeds = true ∧ result.2.outLength.isSome := by
  unfold Display.writeAmount
  by_cases short : int.length.toNat ≤ 32
  · obtain ⟨numberBuf, padding, whole, _⟩ := padNumber_eq short
    rw [padding, bind_ok, convertU256ToString_eq whole, bind_ok]
    apply Ensures.bind_any
    intro written
    cases lengthAt with
    | none => exact Ensures.pure ⟨rfl, rfl⟩
    | some place =>
        apply Ensures.bind_any
        intro counted
        exact Ensures.pure ⟨rfl, rfl⟩
  · rw [padNumber, if_neg short]
    exact Ensures.error trivial

theorem ensures_writeStakingAmount (offset : Nat) (lengthAt : Option Nat)
    (int : TxInt256) (display : Display build) :
    Ensures (writeStakingAmount offset lengthAt int display) fun result =>
      result.2.succeeds = true ∧ result.2.outLength.isSome := by
  apply Ensures.bind_any
  intro stored
  exact ensures_writeAmount stored offset lengthAt int

/-! ## Texts that are composed to their end -/

variable {composed : Composed build} {int : TxInt256}

theorem goesOn_appendText (start : Nat) (text : List UInt8)
    (goesOn : composed.2.isSome) :
    Ensures (appendText start text composed) fun next => next.2.isSome := by
  obtain ⟨display, offset⟩ := composed
  cases offset with
  | none => cases goesOn
  | some offset =>
      apply Ensures.bind_any
      intro written
      exact Ensures.pure rfl

theorem goesOn_appendRate (start : Nat) (short : int.length.toNat ≤ 32)
    (goesOn : composed.2.isSome) :
    Ensures (appendRate start int composed) fun next => next.2.isSome := by
  obtain ⟨display, offset⟩ := composed
  cases offset with
  | none => cases goesOn
  | some offset =>
      apply Ensures.bind (ensures_convertNumericDecimalToString short)
      intro text converted
      cases text with
      | none => cases converted
      | some text =>
          apply Ensures.bind_any
          intro written
          exact Ensures.pure rfl

theorem goesOn_appendAmount (start : Nat) (goesOn : composed.2.isSome) :
    Ensures (appendAmount start int composed) fun next => next.2.isSome := by
  obtain ⟨display, offset⟩ := composed
  cases offset with
  | none => cases goesOn
  | some offset =>
      apply Ensures.bind (ensures_writeStakingAmount _ _ _ _)
      rintro ⟨written, conversion⟩ ⟨succeeds, counted⟩
      dsimp only at succeeds counted ⊢
      rw [if_pos succeeds]
      exact Ensures.pure (by simpa using counted)

variable {content : TxContent} (display : Display build)

theorem goesOn_composeCommission (start : Nat) (short : content.Short) :
    Ensures (composeCommission start content display) fun next =>
      next.2.isSome := by
  apply Ensures.bind (goesOn_appendText start _ rfl)
  intro captioned goesOn
  apply Ensures.bind (goesOn_appendRate start
    (short _ (isInteger_rate.get_mem content)) goesOn)
  intro rated goesOn
  apply Ensures.ite
  · intro _
    apply Ensures.bind (goesOn_appendText start _ goesOn)
    intro captioned goesOn
    apply Ensures.bind (goesOn_appendRate start
      (short _ (isInteger_maxRate.get_mem content)) goesOn)
    intro rated goesOn
    apply Ensures.bind (goesOn_appendText start _ goesOn)
    intro captioned goesOn
    exact goesOn_appendRate start
      (short _ (isInteger_maxChangeRate.get_mem content)) goesOn
  · intro _
    exact Ensures.pure goesOn

theorem goesOn_composeDelegation (display : Display .nanoS) :
    Ensures (composeDelegation content display) fun next =>
      next.2.isSome := by
  have own : Ensures (composeOwnAmount content display) fun next =>
      next.2.isSome := by
    apply Ensures.ite
    · intro _
      apply Ensures.bind (goesOn_appendText _ _ rfl)
      intro captioned goesOn
      apply Ensures.bind (goesOn_appendAmount _ goesOn)
      intro amount goesOn
      exact goesOn_appendText _ _ goesOn
    · intro _
      exact goesOn_appendText _ _ rfl
  apply Ensures.bind own
  intro started goesOn
  apply Ensures.bind (goesOn_appendAmount _ goesOn)
  intro least goesOn
  apply Ensures.bind (goesOn_appendText _ _ goesOn)
  intro captioned goesOn
  exact goesOn_appendAmount _ goesOn

theorem goesOn_composeNanoX (short : content.Short)
    (display : Display .nanoX) :
    Ensures (composeNanoX content display) fun next => next.2.isSome := by
  apply Ensures.ite
  · intro _
    apply Ensures.bind_any
    intro addressed
    apply Ensures.bind_any
    intro cleared
    apply Ensures.bind (goesOn_composeCommission cleared _ short)
    rintro ⟨rated, commission⟩ goesOn
    dsimp only at goesOn ⊢
    rw [if_neg (by rintro rfl; cases goesOn)]
    have own : Ensures (showOwnAmount content rated) fun next =>
        next.2.isSome := by
      apply Ensures.ite
      · intro _
        apply Ensures.bind (ensures_writeStakingAmount _ _ _ _)
        rintro ⟨written, conversion⟩ ⟨succeeds, _⟩
        dsimp only at succeeds ⊢
        rw [if_pos succeeds]
        exact Ensures.pure rfl
      · intro _
        exact Ensures.ok rfl
    apply Ensures.bind own
    rintro ⟨owned, amount⟩ goesOn
    dsimp only at goesOn ⊢
    rw [if_neg (by rintro rfl; cases goesOn)]
    apply Ensures.bind (goesOn_appendText _ _ rfl)
    intro captioned goesOn
    apply Ensures.bind (goesOn_appendAmount _ goesOn)
    intro least goesOn
    apply Ensures.bind (goesOn_appendText _ _ goesOn)
    intro captioned goesOn
    apply Ensures.bind (goesOn_appendAmount _ goesOn)
    rintro ⟨limited, delegation⟩ goesOn
    dsimp only at goesOn ⊢
    rw [if_neg (by rintro rfl; cases goesOn)]
    apply Ensures.bind_any
    intro cleared
    apply Ensures.bind_any
    intro written
    exact Ensures.pure rfl
  · intro _
    apply Ensures.bind_any
    intro addressed
    apply Ensures.ite
    · intro _
      exact Ensures.pure rfl
    · intro _
      apply Ensures.bind_any
      intro named
      apply Ensures.bind (ensures_writeStakingAmount _ _ _ _)
      rintro ⟨written, conversion⟩ ⟨succeeds, _⟩
      dsimp only at succeeds ⊢
      rw [if_pos succeeds]
      exact Ensures.pure rfl

end Converting

/-! ## Single outcomes -/

section Outcomes

variable {env : Env} {device : Device build}

theorem replies_proceed (ctx : Ctx build) {screen : Screen}
    (signs : screen.signs)
    (staking : screen.reviewsStaking -> device.screen.reviewsStaking) :
    (device.proceed ctx screen).Replies env device :=
  .quiet rfl rfl signs staking

theorem replies_same (signs : device.screen.signs) :
    ({ device := device } : Outcome build).Replies env device :=
  .quiet rfl rfl signs id

/-- The buffer is hashed, and the reply is the signature. -/
theorem ensures_sign (hashAt : Nat) :
    Ensures (device.sign env hashAt) fun outcome =>
      outcome.thrown = none ∧ outcome.device.screen = .idle ∧
        outcome.effects = [.hash device.ctx.message,
          .respond (env.signature (env.keccak device.ctx.message)) SW_OK] := by
  apply Ensures.bind_any
  intro display
  apply Ensures.pure
  refine ⟨rfl, rfl, ?_⟩
  have signed := device.io.read_splice_self 0
    (env.signature (env.keccak device.ctx.message)) (by
      rw [env.length_signature]
      decide)
  rw [env.length_signature] at signed
  simp only [Device.respondIdle, Device.respond, signed]

theorem replies_sign (hashAt : Nat) :
    Ensures (device.sign env hashAt) (Outcome.Replies env device) := by
  apply (ensures_sign hashAt).mono
  · rintro outcome ⟨thrown, idle, effects⟩
    exact .agrees thrown idle effects
  · exact fun _ => id

end Outcomes

/-! ## Transfers -/

section Transfers

variable {env : Env} (device : Device .nanoS) (press : Press)

theorem replies_signTxApprove (signs : device.screen.signs) :
    Ensures (signTxApproveButton device press)
      (Outcome.Replies env device) := by
  unfold signTxApproveButton
  cases press with
  | releasedLeft => exact Ensures.ok (.declines rfl)
  | releasedRight =>
      apply Ensures.bind_any
      intro parsed
      apply Ensures.bind_any
      intro addressed
      apply Ensures.bind_any
      intro copied
      apply Ensures.bind_any
      intro display
      exact Ensures.pure (replies_proceed _ rfl nofun)
  | _ => exact Ensures.ok (replies_same signs)

theorem replies_addressCompare (signs : device.screen.signs) :
    Ensures (addressCompareButton env device press)
      (Outcome.Replies env device) := by
  unfold addressCompareButton
  cases press with
  | seekLeft | seekRight =>
      apply Ensures.bind_any
      intro display
      exact Ensures.pure (replies_proceed _ signs id)
  | releasedBoth =>
      apply Ensures.bind (ensures_writeAmount _ _ _ _)
      rintro ⟨written, conversion⟩ ⟨succeeds, _⟩
      dsimp only at succeeds ⊢
      rw [if_neg (by rw [succeeds]; decide)]
      apply Ensures.ite
      all_goals
        intro _
        apply Ensures.bind_any
        intro copied
        apply Ensures.bind_any
        intro display
        exact Ensures.pure (replies_proceed _ rfl nofun)
  | _ => exact Ensures.ok (replies_same signs)

theorem replies_amountCompareLarge (signs : device.screen.signs) :
    Ensures (amountCompareLargeButton device press)
      (Outcome.Replies env device) := by
  unfold amountCompareLargeButton
  cases press with
  | seekLeft | seekRight =>
      apply Ensures.bind_any
      intro display
      exact Ensures.pure (replies_proceed _ signs id)
  | releasedBoth =>
      apply Ensures.bind_any
      intro display
      exact Ensures.pure (replies_proceed _ rfl nofun)
  | _ => exact Ensures.ok (replies_same signs)

theorem replies_amountCompare (signs : device.screen.signs) :
    Ensures (amountCompareButton device press)
      (Outcome.Replies env device) := by
  unfold amountCompareButton
  cases press with
  | releasedLeft => exact Ensures.ok (.declines rfl)
  | releasedRight =>
      apply Ensures.bind_any
      intro display
      exact Ensures.pure (replies_proceed _ rfl nofun)
  | _ => exact Ensures.ok (replies_same signs)

theorem replies_fromshardApprove (signs : device.screen.signs) :
    Ensures (fromshardApproveButton device press)
      (Outcome.Replies env device) := by
  unfold fromshardApproveButton
  cases press with
  | releasedLeft => exact Ensures.ok (.declines rfl)
  | releasedRight => exact Ensures.ok (replies_proceed _ rfl nofun)
  | _ => exact Ensures.ok (replies_same signs)

theorem replies_txApprove (signs : device.screen.signs) :
    Ensures (txApproveButton env device press)
      (Outcome.Replies env device) := by
  unfold txApproveButton
  cases press with
  | releasedLeft => exact Ensures.ok (.declines rfl)
  | releasedRight => exact replies_sign _
  | _ => exact Ensures.ok (replies_same signs)

end Transfers

/-! ## Staking operations on the Nano S -/

section Staking

variable {env : Env} (device : Device .nanoS) (press : Press)
  (signs : device.screen.signs) (staking : device.screen.reviewsStaking)

include signs

theorem replies_scrollFullStr (proceed : Except Fault (Outcome .nanoS))
    (proceeds : Ensures proceed (Outcome.Replies env device)) :
    Ensures (scrollFullStr device press proceed)
      (Outcome.Replies env device) := by
  unfold scrollFullStr
  cases press with
  | seekLeft | seekRight =>
      apply Ensures.bind_any
      intro display
      exact Ensures.pure (replies_proceed _ signs id)
  | releasedBoth => exact proceeds
  | _ => exact Ensures.ok (replies_same signs)

omit signs in
include staking in
theorem replies_finishText (composed : Composed .nanoS)
    (goesOn : composed.2.isSome) (screen : Screen) (next : screen.signs) :
    Ensures (finishText env device composed screen)
      (Outcome.Replies env device) := by
  obtain ⟨display, offset⟩ := composed
  cases offset with
  | none => cases goesOn
  | some offset =>
      apply Ensures.bind_any
      intro stored
      apply Ensures.bind_any
      intro copied
      exact Ensures.pure (replies_proceed _ next fun _ => staking)

theorem replies_confirmSigning :
    Ensures (confirmSigningButton env device press)
      (Outcome.Replies env device) := by
  unfold confirmSigningButton
  cases press with
  | releasedLeft => exact Ensures.ok (.declines rfl)
  | releasedRight => exact replies_sign _
  | _ => exact Ensures.ok (replies_same signs)

include staking

theorem replies_blsKeys :
    Ensures (blsKeysButton device press) (Outcome.Replies env device) :=
  replies_scrollFullStr device press signs _
    (Ensures.ok (replies_proceed _ rfl fun _ => staking))

theorem replies_delegationRate :
    Ensures (delegationRateButton env device press)
      (Outcome.Replies env device) := by
  apply replies_scrollFullStr device press signs
  apply Ensures.bind_any
  intro cleared
  apply Ensures.bind (goesOn_appendText _ _ rfl)
  intro composed goesOn
  exact replies_finishText device staking composed goesOn _ rfl

theorem replies_commissionRate :
    Ensures (commissionRateButton env device press)
      (Outcome.Replies env device) := by
  apply replies_scrollFullStr device press signs
  apply Ensures.ite
  · intro _
    apply Ensures.bind_any
    intro cleared
    apply Ensures.bind (goesOn_composeDelegation _)
    intro composed goesOn
    exact replies_finishText device staking composed goesOn _ rfl
  · intro _
    exact Ensures.pure (replies_same signs)

theorem replies_descriptionCompare (short : device.ctx.txContent.Short) :
    Ensures (descriptionCompareButton env device press)
      (Outcome.Replies env device) := by
  apply replies_scrollFullStr device press signs
  apply Ensures.ite
  · intro _
    apply Ensures.bind_any
    intro cleared
    apply Ensures.bind (goesOn_composeCommission _ _ short)
    intro composed goesOn
    exact replies_finishText device staking composed goesOn _ rfl
  · intro _
    exact Ensures.pure (replies_same signs)

theorem replies_stakingAmountCompareLarge :
    Ensures (stakingAmountCompareLargeButton device press)
      (Outcome.Replies env device) := by
  unfold stakingAmountCompareLargeButton
  cases press with
  | seekLeft | seekRight =>
      apply Ensures.bind_any
      intro display
      exact Ensures.pure (replies_proceed _ signs id)
  | releasedBoth =>
      exact Ensures.ok (replies_proceed _ rfl fun _ => staking)
  | _ => exact Ensures.ok (replies_same signs)

theorem replies_stakingAmountCompare :
    Ensures (stakingAmountCompareButton device press)
      (Outcome.Replies env device) := by
  unfold stakingAmountCompareButton
  cases press with
  | releasedLeft => exact Ensures.ok (.declines rfl)
  | releasedRight =>
      exact Ensures.ok (replies_proceed _ rfl fun _ => staking)
  | _ => exact Ensures.ok (replies_same signs)

theorem replies_validatorAddressCompare :
    Ensures (validatorAddressCompareButton env device press)
      (Outcome.Replies env device) := by
  apply replies_scrollFullStr device press signs
  apply Ensures.bind_any
  intro cleared
  apply Ensures.ite
  · intro _
    apply Ensures.bind_any
    intro named
    exact replies_finishText device staking _ rfl _ rfl
  · intro _
    apply Ensures.bind (ensures_writeStakingAmount _ _ _ _)
    rintro ⟨written, conversion⟩ ⟨succeeds, _⟩
    dsimp only at succeeds ⊢
    rw [if_neg (by rw [succeeds]; decide)]
    apply Ensures.ite
    all_goals
      intro _
      apply Ensures.bind_any
      intro copied
      apply Ensures.bind_any
      intro display
      exact Ensures.pure (replies_proceed _ rfl fun _ => staking)

theorem replies_delegatorAddressCompare :
    Ensures (delegatorAddressCompareButton device press)
      (Outcome.Replies env device) := by
  apply replies_scrollFullStr device press signs
  apply Ensures.bind_any
  intro cleared
  apply Ensures.ite
  · intro _
    exact Ensures.pure (replies_proceed _ rfl fun _ => staking)
  · intro _
    apply Ensures.bind_any
    intro display
    exact Ensures.pure (replies_proceed _ rfl fun _ => staking)

theorem replies_signStakingApprove :
    Ensures (signStakingApproveButton device press)
      (Outcome.Replies env device) := by
  unfold signStakingApproveButton
  cases press with
  | releasedLeft => exact Ensures.ok (.declines rfl)
  | releasedRight =>
      apply Ensures.bind_any
      intro cleared
      apply Ensures.bind_any
      intro counted
      apply Ensures.ite
      all_goals
        intro _
        apply Ensures.bind_any
        intro display
        exact Ensures.pure (replies_proceed _ rfl fun _ => staking)
  | _ => exact Ensures.ok (replies_same signs)

end Staking

/-! ## Any review -/

/-- The callbacks of a flow of the Nano X. -/
theorem replies_flow {env : Env} (device : Device .nanoX) (press : Press)
    (signs : device.screen.signs) (hashAt : Nat) :
    Ensures (match press with
      | .accept => device.sign env hashAt
      | .cancel => .ok device.reject
      | _ => .ok { device := device }) (Outcome.Replies env device) := by
  cases press with
  | accept => exact replies_sign _
  | cancel => exact Ensures.ok (.declines rfl)
  | _ => exact Ensures.ok (replies_same signs)

/-- Every press of a review is answered by silence, by declining or by
signing. -/
theorem replies_pressed (env : Env) (device : Device build) (press : Press)
    (signs : device.screen.signs)
    (short : device.screen.reviewsStaking -> device.ctx.txContent.Short) :
    Ensures (pressed env build device press)
      (Outcome.Replies env device) := by
  cases build with
  | nanoS =>
      have staking : ∀ {screen : Screen}, device.screen = screen ->
          screen.reviewsStaking -> device.screen.reviewsStaking :=
        fun same reviews => same ▸ reviews
      show Ensures (pressNanoS env device press) _
      unfold pressNanoS
      cases screen : device.screen with
      | idle | getPublicKeyApprove | getPublicKeyCompare | displayPublicFlow =>
          simp [screen, Screen.signs] at signs
      | signTxApprove => exact replies_signTxApprove device press signs
      | addressCompare => exact replies_addressCompare device press signs
      | amountCompareLarge =>
          exact replies_amountCompareLarge device press signs
      | amountCompare => exact replies_amountCompare device press signs
      | fromshardApprove => exact replies_fromshardApprove device press signs
      | txApprove => exact replies_txApprove device press signs
      | signStakingApprove =>
          exact replies_signStakingApprove device press signs
            (staking screen rfl)
      | delegatorAddressCompare =>
          exact replies_delegatorAddressCompare device press signs
            (staking screen rfl)
      | validatorAddressCompare =>
          exact replies_validatorAddressCompare device press signs
            (staking screen rfl)
      | stakingAmountCompareLarge =>
          exact replies_stakingAmountCompareLarge device press signs
            (staking screen rfl)
      | stakingAmountCompare =>
          exact replies_stakingAmountCompare device press signs
            (staking screen rfl)
      | descriptionCompare =>
          exact replies_descriptionCompare device press signs
            (staking screen rfl) (short (staking screen rfl))
      | commissionRate =>
          exact replies_commissionRate device press signs (staking screen rfl)
      | delegationRate =>
          exact replies_delegationRate device press signs (staking screen rfl)
      | blsKeys =>
          exact replies_blsKeys device press signs (staking screen rfl)
      | confirmSigning => exact replies_confirmSigning device press signs
      | approvalTxFlow | stakingFlow flow =>
          exact Ensures.ok (replies_same signs)
  | nanoX =>
      show Ensures (pressNanoX env device press) _
      unfold pressNanoX
      cases screen : device.screen with
      | idle | displayPublicFlow => simp [screen, Screen.signs] at signs
      | approvalTxFlow => exact replies_flow device press signs _
      | stakingFlow flow => exact replies_flow device press signs _
      | _ => exact Ensures.ok (replies_same signs)

/-! ## Finished messages -/

/-- A message whose review is offered: the transfers are not asked whether
they were read. -/
def Signing.Accepts (signing : Signing) (message : List UInt8) : Prop :=
  match signing with
  | .tx => True
  | .staking => ∃ left, processStaking (Region.ofList message)
      (stakingStart message.length) = .ok (0, left)

/-- How a finished message is answered. -/
inductive Outcome.Offers (env : Env) (signing : Signing)
    (message : List UInt8) (outcome : Outcome build) : Prop
  | review (accepts : signing.Accepts message)
      (thrown : outcome.thrown = none) (effects : outcome.effects = [])
      (signs : outcome.device.screen.signs)
      (short : outcome.device.screen.reviewsStaking ->
        outcome.device.ctx.txContent.Short)
  | refused (notAccepted : ¬signing.Accepts message)
      (thrown : outcome.thrown = some env.invalidParameter)
      (effects : outcome.effects = [])

section Finished

variable (env : Env) {message : List UInt8}

theorem offers_reviewTx (device : Device build) (ctx : Ctx build) :
    Ensures (reviewTx env build device ctx)
      (Outcome.Offers env .tx message) := by
  cases build with
  | nanoS =>
      apply Ensures.bind_any
      intro display
      exact Ensures.pure (.review trivial rfl rfl rfl nofun)
  | nanoX =>
      apply Ensures.bind_any
      intro parsed
      apply Ensures.bind_any
      intro addressed
      apply Ensures.bind (ensures_writeAmount _ _ _ _)
      rintro ⟨written, conversion⟩ ⟨succeeds, _⟩
      dsimp only at succeeds ⊢
      rw [if_neg (by rw [succeeds]; decide)]
      apply Ensures.bind_any
      intro display
      exact Ensures.pure (.review trivial rfl rfl rfl nofun)

theorem offers_reviewStaking (device : Device build) {ctx : Ctx build}
    (accepts : Signing.staking.Accepts message)
    (short : ctx.txContent.Short) :
    Ensures (reviewStaking env build device ctx)
      (Outcome.Offers env .staking message) := by
  cases build with
  | nanoS =>
      apply Ensures.bind_any
      intro display
      exact Ensures.pure (.review accepts rfl rfl rfl fun _ => short)
  | nanoX =>
      apply Ensures.bind_any
      intro cleared
      apply Ensures.bind (goesOn_composeNanoX short _)
      rintro ⟨display, composed⟩ goesOn
      dsimp only at goesOn ⊢
      rw [if_neg (by rintro rfl; cases goesOn)]
      apply Ensures.bind_any
      intro named
      apply Ensures.bind_any
      intro display
      exact Ensures.pure (.review accepts rfl rfl rfl fun _ => short)

/-- The directive of an accepted operation has a text. -/
theorem exists_directiveText {buf : Region 1024} {left : TxContext}
    (received : Received buf message)
    (returns : processStaking buf (stakingStart message.length) =
      .ok (0, left)) :
    ∃ text, directiveText left.content.directive = some text := by
  have decoded := decoded_of_follows (stakingVisits_eq received returns).2
  obtain ⟨directive, _⟩ | ⟨directive | directive, _⟩ | ⟨directive, _⟩ |
    ⟨directive, _⟩ := decoded.inOrder
  all_goals
    rw [directive]
    exact ⟨_, rfl⟩

theorem offers_parseStaking (device : Device build) {ctx : Ctx build}
    (presents : ctx.Presents .staking message)
    (fits : message.length ≤ 1020) :
    Ensures (parseStaking env device ctx)
      (Outcome.Offers env .staking message) := by
  have start : ctx.txContext = stakingStart message.length :=
    presents.txContext
  unfold parseStaking Ctx.processStaking
  rw [presents.buf, start]
  cases returns : processStaking (Region.ofList message)
      (stakingStart message.length) with
  | error fault => exact Ensures.error trivial
  | ok result =>
      obtain ⟨code, left⟩ := result
      dsimp only [bind, Except.bind, pure, Except.pure]
      by_cases accepted : code = 0
      · subst accepted
        rw [if_neg (by simp)]
        have received := received_ofList (fits.trans (by decide))
        have short : left.content.Short := short_of_returns received returns
        obtain ⟨text, known⟩ := exists_directiveText received returns
        dsimp only [Ctx.txContent]
        rw [known]
        apply Ensures.bind_any
        intro display
        exact offers_reviewStaking env device ⟨left, returns⟩ short
      · rw [if_pos accepted]
        apply Ensures.ok
        refine .refused ?_ rfl rfl
        rintro ⟨other, accepts⟩
        rw [returns] at accepts
        cases accepts
        exact accepted rfl

/-- A review is offered for the messages that are accepted, and for them
alone. -/
theorem offers_review (signing : Signing) (device : Device build)
    {ctx : Ctx build} (presents : ctx.Presents signing message)
    (fits : message.length ≤ 1020) :
    Ensures (signing.review env device ctx)
      (Outcome.Offers env signing message) := by
  cases signing with
  | tx => exact offers_reviewTx env device ctx
  | staking => exact offers_parseStaking env device presents fits

end Finished

end LedgerOne
