import LedgerOne.Firmware.Main
import LedgerOne.Firmware.StakingTexts

/-!
# The review of a staking operation on the Nano S

Every screen scrolls through one array, `fullStr`, which the press that leads
to the screen fills.  Whatever the user presses, the array holds the text of
the screen; the window on it is right as long as the index is.
-/

namespace LedgerOne

open StakingArray

/-! ## Texts and writes of the screens -/

/-- The text that a screen puts into the array, as long as `fullStrLength`
counts it.  That of the keys counts 13 characters for each signature. -/
def countedText (content : TxContent) : Screen -> Option (List UInt8)
  | .delegatorAddressCompare => some (addressText content.destination)
  | .validatorAddressCompare => some (addressText content.validatorAddress)
  | .stakingAmountCompareLarge => some (amountText content.value.number)
  | .descriptionCompare => some (nameText content)
  | .commissionRate => some (partsText (commissionParts content))
  | .delegationRate => some (partsText (delegationParts content))
  | .blsKeys => some (shownKeys content)
  | _ => none

/-- The operations of a screen that scrolls, and those of proceeding. -/
def seekOperations (press : Press) (next : Ctx .nanoS)
    (proceeding : List (Operation .nanoS)) : List (Operation .nanoS) :=
  match press with
  | .seekLeft | .seekRight => [.copy (partialStr .nanoS)
      (SignStaking.fullStr + next.display.displayIndex.toNat) 12]
  | .releasedBoth => proceeding
  | _ => []

/-- The operations of `showAddress`. -/
def addressOperations (address : Region 20) : List (Operation .nanoS) :=
  [.address fullStr address, .copy (partialStr .nanoS) SignStaking.fullStr 12,
    .put (partialStr .nanoS) 12 [0]]

/-- The operations of `finishText`. -/
def finishOperations (length : Nat) : List (Operation .nanoS) :=
  [.put (fullStrLength .nanoS) 0 (uint32Bytes length).toList,
    .copy (partialStr .nanoS) SignStaking.fullStr 12]

/-- The operations of a composed text. -/
def composedOperations (parts : List Part) : List (Operation .nanoS) :=
  .clear fullStr :: (partsOperations fullStr 0 parts ++
    finishOperations (partsText parts).length)

/-- The operations of a press on a screen of a staking operation, which leads
from one context to the next. -/
def stakingOperations (env : Env) (ctx : Ctx .nanoS) (screen : Screen)
    (press : Press) (next : Ctx .nanoS) : List (Operation .nanoS) :=
  let content := ctx.txContent
  match screen with
  | .signStakingApprove =>
      if press = .releasedRight then
        .clear fullStr :: .put (fullStrLength .nanoS) 0
          (uint32Bytes MAX_ONE_ADDRESS).toList ::
          addressOperations (if IsValidatorOperation content.directive then
            content.validatorAddress else content.destination)
      else []
  | .delegatorAddressCompare => seekOperations press next <|
      .clear fullStr ::
        if content.directive = DirectiveCollectRewards then []
        else addressOperations content.validatorAddress
  | .validatorAddressCompare => seekOperations press next <|
      if IsValidatorOperation content.directive then
        composedOperations [.text (nameText content)]
      else [.clear fullStr, .number content.value,
        .amount fullStr 0 (some (fullStrLength .nanoS)) content.value,
        .window (partialStr .nanoS) SignStaking.fullStr
          (SignStaking.fullStrLength .nanoS)]
  | .stakingAmountCompareLarge => seekOperations press next []
  | .descriptionCompare => seekOperations press next
      (composedOperations (commissionParts content))
  | .commissionRate => seekOperations press next
      (composedOperations (delegationParts content))
  | .delegationRate => seekOperations press next
      (composedOperations [.text (shownKeys content)])
  | .blsKeys => seekOperations press next []
  | .confirmSigning =>
      if press = .releasedRight then
        [.put hashArray 0 (env.keccak ctx.message)]
      else []
  | _ => []

/-! ## What holds on the screens -/

/-- The array holds the text of the screen. -/
structure Ctx.Displays (content : TxContent) (text : List UInt8)
    (ctx : Ctx .nanoS) : Prop where
  keeps : ctx.txContent = content
  holds : ctx.display.strings.Holds SignStaking.fullStr 132 text
  length : ctx.display.getUint32 (SignStaking.fullStrLength .nanoS) =
    text.length
  ends : ctx.display.strings.get (SignStaking.partialStr .nanoS + 12) = 0

/-- The window shows the text at the index, which leaves no character
unseen. -/
structure Ctx.Windows (text : List UInt8) (ctx : Ctx .nanoS) : Prop where
  inside : ctx.display.displayIndex.toNat + 12 ≤ max 12 text.length
  window : ctx.display.strings.Holds (SignStaking.partialStr .nanoS) 13
    (windowOn text ctx.display.displayIndex.toNat 12)

/-- The texts of an operation fit the array of the Nano S. -/
structure FitsNanoS (content : TxContent) : Prop where
  amount : ¬IsValidatorOperation content.directive ->
    content.value.length.toNat ≤ 32
  commission : IsValidatorOperation content.directive ->
    (∀ part ∈ commissionParts content, part.Converts) ∧
      (partsText (commissionParts content)).length ≤ 132
  delegation : IsValidatorOperation content.directive ->
    (∀ part ∈ delegationParts content, part.Converts) ∧
      (partsText (delegationParts content)).length ≤ 132

instance (content : TxContent) : Decidable (FitsNanoS content) :=
  decidable_of_iff (_ ∧ _ ∧ _)
    ⟨fun ⟨amount, commission, delegation⟩ => ⟨amount, commission, delegation⟩,
      fun fits => ⟨fits.amount, fits.commission, fits.delegation⟩⟩

/-- What holds on each screen of the review of a staking operation. -/
def StakingStage (content : TxContent) (ctx : Ctx .nanoS) : Screen -> Prop
  | .signStakingApprove =>
      ctx.txContent = content ∧ ctx.display.strings.get SignStaking.hash = 0
  | .delegatorAddressCompare =>
      ctx.Displays content (addressText content.destination) ∧
        ¬IsValidatorOperation content.directive
  | .validatorAddressCompare =>
      ctx.Displays content (addressText content.validatorAddress) ∧
        (IsValidatorOperation content.directive ->
          ctx.display.strings.get SignStaking.hash = 0)
  | .stakingAmountCompareLarge =>
      ctx.Displays content (amountText content.value.number) ∧
        12 < (amountText content.value.number).length
  | .stakingAmountCompare =>
      (amountText content.value.number).length ≤ 12 ∧
        ctx.display.strings.Holds (SignStaking.partialStr .nanoS)
          ((amountText content.value.number).length + 1)
          (amountText content.value.number)
  | .descriptionCompare =>
      ctx.Displays content (nameText content) ∧
        IsValidatorOperation content.directive
  | .commissionRate =>
      ctx.Displays content (partsText (commissionParts content)) ∧
        IsValidatorOperation content.directive
  | .delegationRate =>
      ctx.Displays content (partsText (delegationParts content)) ∧
        IsValidatorOperation content.directive
  | .blsKeys =>
      ctx.Displays content (shownKeys content) ∧
        IsValidatorOperation content.directive
  | .confirmSigning | .idle => True
  | _ => False

/-- The presses after which the index still fits the screen: the right button
on a string of at least 12 characters, and proceeding to a text of a
validator's at index 0. -/
def SafePress (ctx : Ctx .nanoS) (screen : Screen) : Press -> Prop
  | .seekRight => (countedText ctx.txContent screen).isSome ->
      12 ≤ ctx.display.getUint32 (SignStaking.fullStrLength .nanoS)
  | .releasedBoth =>
      screen = .descriptionCompare ∨ screen = .commissionRate ∨
          screen = .delegationRate ∨ screen = .validatorAddressCompare ∧
            IsValidatorOperation ctx.txContent.directive ->
        ctx.display.displayIndex = 0
  | _ => True

/-- What a press on a screen of a staking operation does. -/
structure StakingStep (env : Env) (content : TxContent) (ctx : Ctx .nanoS)
    (screen : Screen) (press : Press) (outcome : Outcome .nanoS) : Prop where
  stage : StakingStage content outcome.device.ctx outcome.device.screen
  writes : outcome.device.ctx.display.strings =
    (ctx.display.performed (writesOf (stakingOperations env ctx screen press
      outcome.device.ctx) ctx.display)).strings
  windows : SafePress ctx screen press ->
    (∀ text ∈ countedText content screen, ctx.Windows text) ->
    ∀ text ∈ countedText content outcome.device.screen,
      outcome.device.ctx.Windows text
  entered : SafePress ctx screen press -> outcome.device.screen ≠ screen ->
    (countedText content outcome.device.screen).isSome ->
    outcome.device.ctx.display.displayIndex = 0

/-! ## Scrolling -/

section Seeking

variable {content : TxContent} {ctx : Ctx .nanoS} {text : List UInt8}

/-- The window at another index. -/
def Ctx.moved (ctx : Ctx .nanoS) (index : UInt8) : Ctx .nanoS :=
  let display := ctx.display.moved index (SignStaking.partialStr .nanoS)
    SignStaking.fullStr 12
  { ctx with display := display }

/-- What a press leaves that only moves the window. -/
structure Ctx.Seeks (content : TxContent) (text : List UInt8)
    (ctx : Ctx .nanoS) (press : Press) (next : Ctx .nanoS) : Prop where
  displays : next.Displays content text
  unhashed : next.display.strings.get SignStaking.hash =
    ctx.display.strings.get SignStaking.hash
  writes : next.display.strings = (ctx.display.performed (writesOf
    (seekOperations press next []) ctx.display)).strings
  windows : (press = .seekRight -> 12 ≤ text.length) -> ctx.Windows text ->
    next.Windows text

theorem Ctx.Displays.moved (displays : ctx.Displays content text)
    (index : UInt8) : (ctx.moved index).Displays content text where
  keeps := displays.keeps
  holds := Display.holds_moved displays.holds index (by decide)
  length := (ctx.display.getUint32_moved index (by decide)).trans
    displays.length
  ends := by
    rw [← displays.ends]
    exact Region.get_splice_of_disjoint _ _ _ (by
      rw [Region.length_read]
      decide)

theorem Ctx.Displays.windows_moved (displays : ctx.Displays content text)
    {index : UInt8} (inside : index.toNat + 12 ≤ max 12 text.length) :
    (ctx.moved index).Windows text where
  inside := inside
  window := Display.window_moved displays.holds (by
    have := displays.holds.fits
    omega) (by decide) displays.ends

theorem Ctx.Displays.seeks (displays : ctx.Displays content text)
    (index : UInt8) {press : Press}
    (seeking : press = .seekLeft ∨ press = .seekRight)
    (windows : (press = .seekRight -> 12 ≤ text.length) ->
      ctx.Windows text -> index.toNat + 12 ≤ max 12 text.length) :
    ctx.Seeks content text press (ctx.moved index) where
  displays := displays.moved index
  unhashed := ctx.display.strings.get_splice_of_disjoint _ _
    (show SignStaking.hash < SignStaking.partialStr .nanoS ∨ _ from
      Or.inl (by decide))
  writes := by obtain rfl | rfl := seeking <;> rfl
  windows long shown := displays.windows_moved (windows long shown)

/-- A press that does not proceed moves the window or does nothing. -/
theorem scrollFullStr_seeks (displays : ctx.Displays content text)
    (screen : Screen) (io : Region 260) {press : Press}
    (stays : press ≠ .releasedBoth)
    (proceed : Except Fault (Outcome .nanoS)) :
    ∃ next, scrollFullStr ⟨ctx, screen, io⟩ press proceed =
        .ok { device := ⟨next, screen, io⟩ } ∧
      ctx.Seeks content text press next := by
  have reads : ∀ index : UInt8, SignStaking.fullStr + index.toNat + 12 ≤
      Build.nanoS.stringsSize := fun index => by
    have := index.toNat_lt
    show 32 + index.toNat + 12 ≤ 420
    omega
  cases press with
  | releasedBoth => exact absurd rfl stays
  | seekLeft =>
      refine ⟨ctx.moved ctx.display.leftIndex, ?_,
        displays.seeks _ (.inl rfl) ?_⟩
      · show (ctx.display.seekLeft _ _ _ >>= _) = _
        rw [Display.seekLeft_eq _ (reads _) (by decide)]
        rfl
      · intro _ windows
        have left := ctx.display.leftIndex_le
        have inside := windows.inside
        omega
  | seekRight =>
      have fits := displays.holds.fits
      refine ⟨ctx.moved (ctx.display.rightIndex (minusUint32
        (ctx.display.getUint32 (SignStaking.fullStrLength .nanoS)) 12)), ?_,
        displays.seeks _ (.inr rfl) ?_⟩
      · show (ctx.display.seekRight _ _ _ _ >>= _) = _
        rw [Display.seekRight_eq _ (reads _) (by decide)]
        rfl
      · intro long windows
        have long := long rfl
        have inside := windows.inside
        have right := ctx.display.rightIndex_le (text.length - 12)
          le_rfl (by omega)
        rw [displays.length, minusUint32_eq long (by omega)]
        omega
  | _ => exact ⟨ctx, rfl, displays, rfl, rfl, fun _ => id⟩

end Seeking

/-! ## Composing -/

section Composing

variable (env : Env) {content : TxContent} {ctx : Ctx .nanoS}
  {text : List UInt8} (io : Region 260)

/-- The context after operations on its display. -/
def Ctx.performed (ctx : Ctx .nanoS)
    (operations : List (Operation .nanoS)) : Ctx .nanoS :=
  let display := ctx.display.performed (writesOf operations ctx.display)
  { ctx with display := display }

theorem Ctx.performed_append (ctx : Ctx .nanoS)
    (front back : List (Operation .nanoS)) :
    ctx.performed (front ++ back) = (ctx.performed front).performed back := by
  unfold Ctx.performed
  dsimp only
  rw [performed_writesOf_append]

theorem displayIndex_performed (display : Display build)
    (writes : List Write) :
    (display.performed writes).displayIndex = display.displayIndex := by
  induction writes generalizing display with
  | nil => rfl
  | cons write rest inductionHypothesis =>
      rw [performed_cons, inductionHypothesis, Display.displayIndex_put]

theorem finishText_eq (device : Device .nanoS) (display : Display .nanoS)
    (length : Nat) (screen : Screen) :
    let finished := display.performed
      (writesOf (finishOperations length) display)
    finishText env device (display, some length) screen =
      .ok (device.proceed { device.ctx with display := finished } screen) := by
  unfold finishText
  dsimp only
  rw [Display.putUint32_eq _ _ (by decide), bind_ok,
    Display.copy_eq _ (by decide) (by decide), bind_ok]
  rfl

/-- After its end a text is scrolled through, from the index on at which the
index stands. -/
theorem displays_finished (keeps : ctx.txContent = content)
    (holds : ctx.display.strings.Holds SignStaking.fullStr 132 text)
    (ends : ctx.display.strings.get (SignStaking.partialStr .nanoS + 12) = 0) :
    (ctx.performed (finishOperations text.length)).Displays content text ∧
      (ctx.display.displayIndex = 0 ->
        (ctx.performed (finishOperations text.length)).Windows text) := by
  have fits := holds.fits
  have length := Region.length_toList (uint32Bytes text.length)
  let counted := ctx.display.put (SignStaking.fullStrLength .nanoS)
    (uint32Bytes text.length).toList
  have count : counted.getUint32 (SignStaking.fullStrLength .nanoS) =
      text.length := Display.getUint32_put _ (by omega) (by decide)
  have held : counted.strings.Holds SignStaking.fullStr 132 text :=
    holds.frame _ _ (by
      rw [length]
      decide)
  have ended : counted.strings.get (SignStaking.partialStr .nanoS + 12) = 0 := by
    rw [← ends]
    exact Region.get_splice_of_disjoint _ _ _ (by
      rw [length]
      decide)
  let bytes := counted.strings.read SignStaking.fullStr 12
  have twelve : bytes.length = 12 := Region.length_read _ _ _
  let shown := counted.put (SignStaking.partialStr .nanoS) bytes
  have still : shown.strings.Holds SignStaking.fullStr 132 text :=
    held.frame _ _ (by
      rw [twelve]
      decide)
  have lasting : shown.getUint32 (SignStaking.fullStrLength .nanoS) =
      text.length :=
    (counted.getUint32_put_of_disjoint (by
      rw [twelve]
      decide)).trans count
  have behind : shown.strings.get (SignStaking.partialStr .nanoS + 12) = 0 := by
    rw [← ended]
    exact Region.get_splice_of_disjoint _ _ _ (by
      rw [twelve]
      decide)
  refine ⟨⟨keeps, still, lasting, behind⟩, fun start => ⟨?_, ?_⟩⟩
  · show ctx.display.displayIndex.toNat + 12 ≤ _
    rw [start]
    exact Nat.le_max_left _ _
  · show shown.strings.Holds (SignStaking.partialStr .nanoS) 13
      (windowOn text ctx.display.displayIndex.toNat 12)
    rw [start]
    exact held.window (show 0 + 12 ≤ 132 by decide) (by decide) ended

variable (env : Env) {parts : List Part}
  (converts : ∀ part ∈ parts, part.Converts)
  (short : (partsText parts).length ≤ 132)

include converts short

/-- Composing a text and showing its start. -/
theorem composed_eq (screen next : Screen) :
    (ctx.display.clear SignStaking.fullStr 132 >>= fun display =>
      composeParts SignStaking.fullStr parts (display, some 0) >>=
        fun composed => finishText env ⟨ctx, screen, io⟩ composed next) =
      .ok (Device.proceed ⟨ctx, screen, io⟩
        (ctx.performed (composedOperations parts)) next) := by
  have room : PartsFit 388 0 parts := partsFit_of_length (by omega)
  have composes : ∀ display : Display .nanoS,
      composeParts SignStaking.fullStr parts (display, some 0) = _ :=
    composeParts_eq (show fullStr.start + 388 ≤ _ by decide) converts room
  rw [Display.clear_eq _ (by decide), bind_ok, composes, bind_ok,
    finishText_eq, Nat.zero_add]
  unfold Ctx.performed composedOperations
  rw [performed_writesOf_cons, performed_writesOf_append]
  rfl

/-- The array holds the text that was composed in it. -/
theorem displays_composed (displays : ctx.Displays content text) :
    (ctx.performed (composedOperations parts)).Displays content
        (partsText parts) ∧
      (ctx.display.displayIndex = 0 ->
        (ctx.performed (composedOperations parts)).Windows
          (partsText parts)) := by
  have room : PartsFit 388 0 parts := partsFit_of_length (by omega)
  have inside : fullStr.start + 388 ≤ Build.nanoS.stringsSize := by decide
  let operations : List (Operation .nanoS) :=
    .clear fullStr :: partsOperations fullStr 0 parts
  let cleared := ctx.display.put SignStaking.fullStr (List.replicate 132 0)
  have blank : cleared.strings.Holds fullStr.start fullStr.size [] :=
    Region.Holds.cleared ctx.display.strings (by decide)
  have holds : (ctx.performed operations).display.strings.Holds
      SignStaking.fullStr 132 (partsText parts) :=
    holds_parts inside (by decide) (by decide) converts blank room (by
      show 0 + _ ≤ 132
      omega)
  have ends : (ctx.performed operations).display.strings.get
      (SignStaking.partialStr .nanoS + 12) = 0 := by
    refine zero_parts inside (by decide) converts room ?_ ?_
    · show 32 + 0 + _ ≤ 180
      omega
    · rw [← displays.ends]
      exact Region.get_splice_of_disjoint ctx.display.strings
        SignStaking.fullStr (List.replicate 132 0) (Or.inr (by
          rw [List.length_replicate]
          decide))
  have index : (ctx.performed operations).display.displayIndex =
      ctx.display.displayIndex := displayIndex_performed _ _
  have keeps : (ctx.performed operations).txContent = content :=
    displays.keeps
  have finished := displays_finished keeps holds ends
  have same : ctx.performed (composedOperations parts) =
      (ctx.performed operations).performed
        (finishOperations (partsText parts).length) :=
    ctx.performed_append operations _
  rw [same, ← index]
  exact finished

end Composing

end LedgerOne
