import LedgerOne.Decoder.Keys
import LedgerOne.Firmware.AddressReview
import LedgerOne.Firmware.StakingScreens
import LedgerOne.Firmware.TransferReview
import LedgerOne.Messages.Staking

/-!
# Scrolling on the Nano S

Seven screens of a staking operation, two of a transfer and one of an address
let the user scroll through a string.  They share one index.  Only the screens
of an address start it at 0; those of the name, of the commission rates, of the
delegation and of the keys take it over from the screen before.  A press on the
right button moves it behind a string of less than 12 characters, since the
limit is computed without a sign, and behind that of the keys of a validator
with fewer keys than signatures, since the limit counts 13 characters for each
signature.  Without such presses the window never leaves the string.
-/

namespace LedgerOne

/-! ## What is scrolled through -/

/-- A string that the user scrolls through, the index and the window. -/
structure Scroll where
  text : List UInt8
  index : UInt8
  window : List UInt8

/-- The window shows the 12 characters at the index, or all of a shorter
string, and the index stays in the string. -/
structure Scroll.Right (scroll : Scroll) : Prop where
  inside : scroll.index.toNat + 12 ≤ max 12 scroll.text.length
  window : scroll.window = padded 13 (windowOn scroll.text scroll.index.toNat 12)

/-- The string of the keys, up to its NUL. -/
def keysString (content : TxContent) : List UInt8 :=
  (shownKeys content).takeWhile fun byte => byte ≠ 0

/-- The string that a screen of a staking operation scrolls through. -/
def stakingText (content : TxContent) (screen : Screen) :
    Option (List UInt8) :=
  if screen = .blsKeys then some (keysString content)
  else countedText content screen

/-- What the user scrolls through on a screen of a staking operation. -/
def Device.stakingScroll (device : Device .nanoS) : Option Scroll :=
  let display := device.ctx.display
  (stakingText device.ctx.txContent device.screen).map fun text =>
    ⟨text, display.displayIndex,
      display.strings.read (SignStaking.partialStr .nanoS) 13⟩

/-- What the user scrolls through on the current screen. -/
def Device.scroll (env : Env) (device : Device .nanoS) : Option Scroll :=
  let ctx := device.ctx
  let display := ctx.display
  match device.screen with
  | .getPublicKeyCompare => some
      ⟨addressText env.ethAddress, ctx.buf.get GetPublicKey.displayIndex,
        ctx.buf.read GetPublicKey.partialStr 13⟩
  | .addressCompare => some
      ⟨addressText ctx.txContent.destination, display.displayIndex,
        display.strings.read SignTxn.partialAddrStr 13⟩
  | .amountCompareLarge => some
      ⟨amountText ctx.txContent.value.number, display.displayIndex,
        display.strings.read SignTxn.partialAmountStr 13⟩
  | _ => device.stakingScroll

/-- The right button does not move the window behind the string of the keys:
where `fullStrLength` lets it move, the string goes on. -/
def KeepsKeys (ctx : Ctx .nanoS) : Prop :=
  ctx.display.displayIndex.toNat + 12 <
      ctx.display.getUint32 (SignStaking.fullStrLength .nanoS) ->
    ctx.display.displayIndex.toNat + 12 < (keysString ctx.txContent).length

/-- A press that keeps the window on its string: it does not lead to a text of
a validator's away from index 0, it is not the right button on a string of
less than 12 characters, and not the right button at the end of the keys where
more characters are counted. -/
def KeepsWindow (device : Device .nanoS) : Event -> Prop
  | .press press =>
      SafePress device.ctx device.screen press ∧
        (device.screen = .blsKeys -> press = .seekRight ->
          KeepsKeys device.ctx)
  | .apdu _ => False

/-! ## Reviews -/

/-- The requests that raise a review on a Nano S, with strings that fit. -/
inductive RaisesReview : List Apdu -> Prop
  | address {apdu : Apdu} (addressed : apdu.addressee = some .getPublicKey)
      (shown : apdu.p2 = P2_DISPLAY_ADDRESS) : RaisesReview [apdu]
  | transfer {front : List Apdu} {last : Apdu} {code : Int}
      {context : TxContext} (session : Signing.tx.Session front last)
      (fits : (messageOf (front ++ [last])).length ≤ 1020)
      (parses : processTx (Region.ofList (messageOf (front ++ [last])))
        (Signing.tx.start (messageOf (front ++ [last])).length) =
          .ok (code, context))
      (short : context.content.value.length.toNat ≤ 32) :
      RaisesReview (front ++ [last])
  | staking {front : List Apdu} {last : Apdu} {context : TxContext}
      {title : List UInt8} (session : Signing.staking.Session front last)
      (fits : (messageOf (front ++ [last])).length ≤ 1020)
      (accepts : processStaking (Region.ofList (messageOf (front ++ [last])))
        (Signing.staking.start (messageOf (front ++ [last])).length) =
          .ok (0, context))
      (titled : directiveText context.content.directive = some title)
      (texts : FitsNanoS context.content) :
      RaisesReview (front ++ [last])

/-- The keys of a validator make a string of at least 12 characters. -/
theorem length_keysString {visits : List (Visit RlpStakingField)}
    {content : TxContent} (decoded : Decoded visits content)
    (validator : IsValidatorOperation content.directive) :
    12 ≤ (keysString content).length := by
  obtain creates | edits := validator
  · obtain ⟨slots, before, -, rfl⟩ := decoded.slots creates
    have some : slots.keys ≠ [] := by
      intro none
      have count := slots.length_keys
      exact absurd slots.some_keys (by
        rw [← count, none]
        decide)
    obtain ⟨start, five, first⟩ := exists_firstKey some
      (Staking.setKeyCount slots.keys.length before)
    have same : (slots.content before).blsKeyStr = (showKeys slots.keys 0
        (Staking.setKeyCount slots.keys.length before)).blsKeyStr := by
      unfold Slots.content Slot.putFinalInt
      split <;> rfl
    have size : (slots.content before).blsPubKeySize =
        slots.signatures.length := by
      unfold Slots.content Slot.putFinalInt
      split <;> rfl
    have count := slots.length_signatures
    have some := slots.some_signatures
    rw [← same] at first
    have starts := Region.read_prefix (slots.content before).blsKeyStr 0
      (show 13 ≤ 13 * (if (slots.content before).blsPubKeySize > 10 then 10
        else (slots.content before).blsPubKeySize) by
          split <;> omega)
    rw [first] at starts
    have long := le_length_takeWhile (zero_not_mem_keyText start) starts
    rw [length_keyText five] at long
    unfold keysString shownKeys
    dsimp only
    rw [if_pos creates]
    omega
  · obtain ⟨changes, before, start, rfl⟩ := decoded.changes edits
    have front := (changes.blsKeyStr_content start).1
    have starts := Region.read_prefix (changes.content before).blsKeyStr 0
      (show 20 ≤ 38 by decide)
    rw [front] at starts
    have long := le_length_takeWhile (by
      intro member
      obtain caption | key := List.mem_append.mp member
      · exact absurd caption (by decide)
      · exact zero_not_mem_keyText _ key) starts
    have seven : (ascii "remove:").length = 7 := rfl
    rw [List.length_append, seven,
      length_keyText (Region.length_read _ _ _)] at long
    have other : ¬(changes.content before).directive =
        DirectiveCreateValidator := by
      rw [edits]
      decide
    unfold keysString shownKeys
    dsimp only
    rw [if_neg other]
    omega

/-- What holds during a review, on every screen. -/
inductive InReview (env : Env) (device : Device .nanoS) : Prop
  | address (stage : AddressStage env device.ctx device.screen)
  | transfer (content : TxContent)
      (stage : TransferStage content device.ctx device.screen)
      (short : content.value.length.toNat ≤ 32)
  | staking (content : TxContent) (texts : FitsNanoS content)
      (long : IsValidatorOperation content.directive ->
        12 ≤ (keysString content).length)
      (stage : StakingStage content device.ctx device.screen)
      (windows : ∀ text ∈ countedText content device.screen,
        device.ctx.Windows text)
      (inside : device.screen = .blsKeys ->
        device.ctx.display.displayIndex.toNat + 12 ≤
          (keysString content).length)

theorem isSome_countedText (left right : TxContent) (screen : Screen) :
    (countedText left screen).isSome = (countedText right screen).isSome := by
  cases screen <;> simp only [countedText, Option.isSome_some]

/-- A staking screen with a string keeps the content of the message. -/
theorem keeps_of_countedText {content : TxContent} {ctx : Ctx .nanoS}
    {screen : Screen} (stage : StakingStage content ctx screen)
    (scrolls : (countedText content screen).isSome) :
    ctx.txContent = content := by
  cases screen with
  | delegatorAddressCompare => exact stage.1.keeps
  | validatorAddressCompare => exact stage.1.keeps
  | stakingAmountCompareLarge => exact stage.1.keeps
  | descriptionCompare => exact stage.1.keeps
  | commissionRate => exact stage.1.keeps
  | delegationRate => exact stage.1.keeps
  | blsKeys => exact stage.1.keeps
  | _ => cases scrolls

theorem isSome_stakingText (left right : TxContent) (screen : Screen) :
    (stakingText left screen).isSome = (countedText right screen).isSome := by
  unfold stakingText
  split
  · next keys =>
    rw [keys]
    rfl
  · exact isSome_countedText left right screen

/-- Entering a screen that scrolls, the index is 0. -/
def EntersAtStart (env : Env) (device next : Device .nanoS) : Prop :=
  next.screen ≠ device.screen -> ∀ scroll ∈ next.scroll env, scroll.index = 0

theorem scroll_address {env : Env} {device : Device .nanoS} {scroll : Scroll}
    (stage : AddressStage env device.ctx device.screen)
    (member : scroll ∈ device.scroll env) :
    device.screen = .getPublicKeyCompare ∧
      scroll.index = device.ctx.buf.get GetPublicKey.displayIndex := by
  obtain ⟨ctx, screen, io⟩ := device
  cases screen with
  | getPublicKeyCompare =>
      obtain rfl := Option.some.inj member
      exact ⟨rfl, rfl⟩
  | idle => cases member
  | getPublicKeyApprove => cases member
  | _ => exact stage.elim

theorem scroll_transfer {env : Env} {device : Device .nanoS} {scroll : Scroll}
    {content : TxContent}
    (stage : TransferStage content device.ctx device.screen)
    (member : scroll ∈ device.scroll env) :
    (device.screen = .addressCompare ∨ device.screen = .amountCompareLarge) ∧
      scroll.index = device.ctx.display.displayIndex := by
  obtain ⟨ctx, screen, io⟩ := device
  cases screen with
  | addressCompare =>
      obtain rfl := Option.some.inj member
      exact ⟨.inl rfl, rfl⟩
  | amountCompareLarge =>
      obtain rfl := Option.some.inj member
      exact ⟨.inr rfl, rfl⟩
  | idle => cases member
  | signTxApprove => cases member
  | amountCompare => cases member
  | fromshardApprove => cases member
  | txApprove => cases member
  | _ => exact stage.elim

theorem scroll_staking {env : Env} {device : Device .nanoS} {scroll : Scroll}
    {content : TxContent}
    (stage : StakingStage content device.ctx device.screen)
    (member : scroll ∈ device.scroll env) :
    ∃ text, stakingText device.ctx.txContent device.screen = some text ∧
      (⟨text, device.ctx.display.displayIndex,
        device.ctx.display.strings.read (SignStaking.partialStr .nanoS)
          13⟩ : Scroll) = scroll := by
  obtain ⟨ctx, screen, io⟩ := device
  have mapped : (⟨ctx, screen, io⟩ : Device .nanoS).stakingScroll =
      some scroll := by
    cases screen with
    | getPublicKeyCompare => exact stage.elim
    | addressCompare => exact stage.elim
    | amountCompareLarge => exact stage.elim
    | _ => exact member
  exact Option.map_eq_some_iff.mp mapped

theorem keysString_starts (content : TxContent) :
    keysString content <+: shownKeys content :=
  List.takeWhile_prefix _

/-- Before the NUL the window shows the string. -/
theorem windowOn_keysString {content : TxContent} {index count : Nat}
    (inside : index + count ≤ (keysString content).length) :
    windowOn (shownKeys content) index count =
      windowOn (keysString content) index count := by
  obtain ⟨rest, whole⟩ := keysString_starts content
  rw [← whole, windowOn, windowOn, List.drop_append_of_le_length (by omega),
    List.take_append_of_le_length (by rw [List.length_drop]; omega)]

/-- During a review the window is right. -/
theorem InReview.right {env : Env} {device : Device .nanoS}
    (reviews : InReview env device) :
    ∀ scroll ∈ device.scroll env, scroll.Right := by
  intro scroll member
  cases reviews with
  | address stage =>
      obtain ⟨ctx, screen, io⟩ := device
      obtain ⟨rfl, -⟩ := scroll_address stage member
      obtain rfl := Option.some.inj member
      exact ⟨le_trans stage.inside (Nat.le_max_right _ _),
        stage.window.read_whole⟩
  | transfer content stage short =>
      obtain ⟨ctx, screen, io⟩ := device
      obtain ⟨rfl | rfl, -⟩ := scroll_transfer stage member
      · obtain rfl := Option.some.inj member
        obtain rfl := stage.keeps
        exact ⟨stage.scrolls.inside, stage.scrolls.window.read_whole⟩
      · obtain rfl := Option.some.inj member
        obtain rfl := stage.keeps
        exact ⟨stage.scrolls.inside, stage.scrolls.window.read_whole⟩
  | staking content texts long stage windows inside =>
      obtain ⟨text, scrolls, rfl⟩ := scroll_staking stage member
      have some : (countedText content device.screen).isSome := by
        rw [← isSome_stakingText device.ctx.txContent content]
        exact Option.isSome_iff_exists.mpr ⟨text, scrolls⟩
      obtain rfl := keeps_of_countedText stage some
      unfold stakingText at scrolls
      split at scrolls
      · next keys =>
        obtain rfl := Option.some.inj scrolls
        have within := inside keys
        have shown := windows (shownKeys device.ctx.txContent) (by
          rw [keys]
          rfl)
        refine ⟨le_trans within (Nat.le_max_right _ _), ?_⟩
        rw [← windowOn_keysString within]
        exact shown.window.read_whole
      · have shown := windows text scrolls
        exact ⟨shown.inside, shown.window.read_whole⟩

/-! ## Presses -/

/-- On the screen of the keys the index stays below a bound that the right
button does not pass. -/
theorem keys_bounded (env : Env) (io : Region 260) {ctx : Ctx .nanoS}
    {content : TxContent} {text : List UInt8} {press : Press} {bound : Nat}
    (displays : ctx.Displays content text) (long : 12 ≤ text.length)
    (inside : ctx.display.displayIndex.toNat + 12 ≤ bound)
    (limit : press = .seekRight ->
      ctx.display.displayIndex.toNat + 12 < text.length ->
        ctx.display.displayIndex.toNat + 12 < bound)
    {outcome : Outcome .nanoS}
    (presses : pressed env .nanoS ⟨ctx, .blsKeys, io⟩ press = .ok outcome) :
    outcome.device.ctx.display.displayIndex.toNat + 12 ≤ bound := by
  have fits := displays.holds.fits
  have reads : ∀ index : UInt8, SignStaking.fullStr + index.toNat + 12 ≤
      Build.nanoS.stringsSize := fun index => by
    have := index.toNat_lt
    show 32 + index.toNat + 12 ≤ 420
    omega
  change blsKeysButton ⟨ctx, .blsKeys, io⟩ press = .ok outcome at presses
  cases press with
  | seekLeft =>
      change (ctx.display.seekLeft _ _ _ >>= _) = _ at presses
      rw [Display.seekLeft_eq _ (reads _) (by decide)] at presses
      cases presses
      have left := ctx.display.leftIndex_le
      show ctx.display.leftIndex.toNat + 12 ≤ bound
      omega
  | seekRight =>
      change (ctx.display.seekRight _ _ _ _ >>= _) = _ at presses
      rw [Display.seekRight_eq _ (reads _) (by decide), bind_ok,
        displays.length, minusUint32_eq long (by omega)] at presses
      obtain rfl := Except.ok.inj presses
      show (ctx.display.rightIndex (text.length - 12)).toNat + 12 ≤ bound
      rw [Display.rightIndex]
      split
      · next more =>
        have less := limit rfl (by omega)
        rw [UInt8.toNat_add]
        have one : (1 : UInt8).toNat = 1 := rfl
        have small := Nat.mod_le
          (ctx.display.displayIndex.toNat + (1 : UInt8).toNat) (2 ^ 8)
        omega
      · exact inside
  | _ =>
      cases presses
      exact inside

/-- A press of a review does not fault, and if it keeps the window, then the
window stays right. -/
theorem inReview_step {env : Env} {device : Device .nanoS}
    (reviews : InReview env device) (press : Press) :
    ∃ outcome, pressed env .nanoS device press = .ok outcome ∧
      (KeepsWindow device (.press press) ->
        InReview env outcome.device ∧
          EntersAtStart env device outcome.device) := by
  obtain ⟨ctx, screen, io⟩ := device
  cases reviews with
  | address stage =>
      cases screen with
      | idle =>
          exact ⟨_, rfl, fun _ => ⟨.address trivial, fun other =>
            absurd rfl other⟩⟩
      | getPublicKeyApprove =>
          have step := getPublicKeyApprove_step env io ctx press
          refine ⟨_, rfl, fun _ => ⟨.address step.1, fun _ scroll member => ?_⟩⟩
          obtain ⟨compares, index⟩ := scroll_address step.1 member
          exact index.trans (step.2 compares)
      | getPublicKeyCompare =>
          have step := getPublicKeyCompare_step env io stage press
          exact ⟨_, rfl, fun _ => ⟨.address step, fun other scroll member =>
            absurd (scroll_address step member).1 other⟩⟩
      | _ => exact stage.elim
  | transfer content stage short =>
      obtain ⟨outcome, presses, step⟩ :=
        pressed_transferStep env io screen stage short press
      refine ⟨outcome, presses, fun _ => ⟨.transfer content step.stage short,
        fun other scroll member => ?_⟩⟩
      obtain ⟨compares, index⟩ := scroll_transfer step.stage member
      exact index.trans (step.entered other compares)
  | staking content texts long stage windows inside =>
      obtain ⟨outcome, presses, step⟩ :=
        pressed_stakingStep env io texts screen stage press
      refine ⟨outcome, presses, fun keeps => ⟨.staking content texts long
        step.stage (step.windows keeps.1 windows) fun keys => ?_,
        fun other scroll member => ?_⟩⟩
      · have kept := step.stage
        rw [keys] at kept
        have whole := long kept.2
        by_cases same : screen = .blsKeys
        · subst same
          have counted := (keysString_starts content).length_le
          refine keys_bounded env io stage.1 (le_trans whole counted)
            (inside rfl) (fun right more => ?_) presses
          have goesOn := keeps.2 rfl right
          rw [KeepsKeys, stage.1.length, stage.1.keeps] at goesOn
          exact goesOn more
        · have start := step.entered keeps.1 (by rw [keys]; exact Ne.symm same)
            (by rw [keys]; rfl)
          rw [start]
          show 0 + 12 ≤ _
          omega
      · obtain ⟨text, scrolls, rfl⟩ := scroll_staking step.stage member
        refine step.entered keeps.1 other ?_
        rw [← isSome_stakingText outcome.device.ctx.txContent content, scrolls]
        rfl

/-! ## Runs -/

theorem InReview.caught {env : Env} {outcome : Outcome .nanoS}
    (reviews : InReview env outcome.device) :
    InReview env outcome.caught.1 := by
  cases reviews with
  | address stage => exact .address (by simpa using stage)
  | transfer content stage short =>
      exact .transfer content (by simpa using stage) short
  | staking content texts long stage windows inside =>
      exact .staking content texts long (by simpa using stage)
        (by simpa using windows) (by simpa using inside)

theorem scroll_caught (env : Env) (outcome : Outcome .nanoS) :
    outcome.caught.1.scroll env = outcome.device.scroll env := by
  unfold Device.scroll Device.stakingScroll
  rw [caught_ctx, caught_screen]

/-- The requests raise a review. -/
theorem exists_inReview (env : Env) (device : Device .nanoS)
    {requests : List Apdu} (raises : RaisesReview requests) :
    ∃ raised replies,
      (firmware env .nanoS).run (requests.map .apdu) device =
          .ok (raised, replies) ∧
        InReview env raised := by
  cases raises with
  | address addressed shown =>
      rename_i apdu
      have steps : (firmware env .nanoS).step device (.apdu apdu) =
          .ok (handleGetPublicKey env apdu.p2 (device.received apdu)).caught := by
        rw [step_apdu, dispatch_addressee, addressed]
        rfl
      have stage : AddressStage env (handleGetPublicKey env P2_DISPLAY_ADDRESS
          (device.received apdu)).device.ctx .getPublicKeyApprove := trivial
      rw [shown] at steps
      exact ⟨_, _, Machine.run_step steps rfl, .caught (.address stage)⟩
  | transfer session fits parses short =>
      rename_i front last code context
      obtain ⟨opened, replies, runs, -, presents, -, finishes⟩ :=
        run_session env device session fits
      have parsed : processTx (Signing.tx.finished last opened.ctx).buf
          (Signing.tx.finished last opened.ctx).txContext =
            .ok (code, context) := by
        rw [presents.buf, presents.txContext]
        exact parses
      obtain ⟨outcome, reviews, screen, buf, txContext, -⟩ :=
        reviewTx_raises env (opened.received last) parsed short
      have steps : (firmware env .nanoS).step opened (.apdu last) =
          .ok outcome.caught := by
        rw [finishes]
        show (reviewTx env .nanoS _ _).map Outcome.caught = _
        rw [reviews]
        rfl
      have stage : TransferStage context.content outcome.device.ctx
          outcome.device.screen := by
        rw [screen]
        exact ⟨code, context, by rw [buf, txContext, parsed], rfl⟩
      rw [List.map_append]
      exact ⟨_, _, Machine.run_concat runs steps,
        .caught (.transfer context.content stage short)⟩
  | staking session fits accepts titled texts =>
      rename_i front last context title
      obtain ⟨opened, replies, runs, -, presents, blank, finishes⟩ :=
        run_session env device session fits
      have parsed : processStaking (Signing.staking.finished last opened.ctx).buf
          (Signing.staking.finished last opened.ctx).txContext =
            .ok (0, context) := by
        rw [presents.buf, presents.txContext]
        exact accepts
      have zero : (Signing.staking.finished last
          opened.ctx).display.strings.get SignStaking.hash = 0 :=
        (blank.strings _ (by decide)).trans (Region.get_zero _)
      obtain ⟨outcome, reviews, screen, -, -, stage⟩ :=
        parseStaking_raises_nanoS env (opened.received last) parsed titled zero
      have steps : (firmware env .nanoS).step opened (.apdu last) =
          .ok outcome.caught := by
        rw [finishes]
        show (parseStaking env _ _).map Outcome.caught = _
        rw [reviews]
        rfl
      rw [List.map_append]
      have received : Received (Region.ofList (messageOf (front ++ [last])))
          (messageOf (front ++ [last])) := received_ofList (by omega)
      have starts : Signing.staking.start (messageOf (front ++ [last])).length =
          stakingStart (messageOf (front ++ [last])).length := rfl
      rw [starts] at accepts
      have decoded := decoded_of_processStaking received accepts
      refine ⟨_, _, Machine.run_concat runs steps,
        .caught (.staking context.content texts
          (length_keysString decoded) stage ?_ ?_)⟩
      · rw [screen]
        intro text member
        cases member
      · rw [screen]
        intro other
        cases other

/-- Scrolling never leaves the text: in every state that presses which keep
the window lead to, from a transfer, a staking operation or an address whose
strings fit, the window shows the string of the screen at an index inside it.
No press there faults, and one that keeps the window enters a screen at index
0. -/
theorem scrolls_right (env : Env) (device : Device .nanoS)
    {requests : List Apdu} (raises : RaisesReview requests) :
    ∃ raised replies,
      (firmware env .nanoS).run (requests.map .apdu) device =
          .ok (raised, replies) ∧
        ∀ presses reached,
          (firmware env .nanoS).Reaches KeepsWindow raised presses reached ->
          (∀ scroll ∈ reached.scroll env, scroll.Right) ∧
            ∀ press, ∃ next outputs,
              (firmware env .nanoS).step reached (.press press) =
                  .ok (next, outputs) ∧
                (KeepsWindow reached (.press press) ->
                  EntersAtStart env reached next) := by
  obtain ⟨raised, replies, runs, begins⟩ := exists_inReview env device raises
  refine ⟨raised, replies, runs, fun presses reached run => ?_⟩
  have reviews : InReview env reached := by
    refine run.invariant (InReview env) begins ?_
    intro before event reviews keeps
    cases event with
    | apdu apdu => exact keeps.elim
    | press press =>
        obtain ⟨outcome, presses, right⟩ := inReview_step reviews press
        rw [step_of_pressed press presses]
        exact Ensures.ok (right keeps).1.caught
  refine ⟨reviews.right, fun press => ?_⟩
  obtain ⟨outcome, presses, right⟩ := inReview_step reviews press
  refine ⟨outcome.caught.1, outcome.caught.2, step_of_pressed press presses,
    fun keeps other scroll member => ?_⟩
  rw [caught_screen] at other
  rw [scroll_caught] at member
  exact (right keeps).2 other scroll member

/-- The delegation of one token, in one packet. -/
def delegatePacket : Apdu :=
  Signing.staking.packet P1_FIRST P2_FINISH delegateOneToken.encode
    (by decide +kernel)

theorem scrolls_right_delegateOneToken :
    RaisesReview [delegatePacket] ∧ ∃ raised replies,
      (firmware (.ofTables [] []) .nanoS).run ([delegatePacket].map .apdu)
          (.boot .nanoS) = .ok (raised, replies) ∧
        ∀ presses reached, (firmware (.ofTables [] []) .nanoS).Reaches
            KeepsWindow raised presses reached ->
          (∀ scroll ∈ reached.scroll (.ofTables [] []), scroll.Right) ∧
            ∀ press, ∃ next outputs,
              (firmware (.ofTables [] []) .nanoS).step reached
                  (.press press) = .ok (next, outputs) ∧
                (KeepsWindow reached (.press press) ->
                  EntersAtStart (.ofTables [] []) reached next) := by
  obtain ⟨⟨code, context⟩, accepts, seen⟩ := exists_of_view
    (fun result : Int × TxContext => (result.1,
      directiveText result.2.content.directive,
      decide (FitsNanoS result.2.content)))
    (show (processStaking (Region.ofList (messageOf ([] ++ [delegatePacket])))
      (Signing.staking.start (messageOf ([] ++ [delegatePacket])).length)
        ).toOption.map _ = some (0, some (ascii "Delegate" ++ [0]), true) by
      decide +kernel)
  obtain ⟨rfl, rest⟩ := Prod.mk.inj seen
  obtain ⟨titled, texts⟩ := Prod.mk.inj rest
  have raises : RaisesReview [delegatePacket] :=
    .staking (.single rfl rfl rfl) (by decide +kernel) accepts titled
      (of_decide_eq_true texts)
  exact ⟨raises, scrolls_right (.ofTables [] []) (.boot .nanoS) raises⟩

/-- A change of a validator with the name "Alice". -/
def editAlice : StakingTransaction where
  message := .editValidator {
    validator := ⟨List.replicate 20 0x5b, length_validator⟩
    description := {
      name := ⟨ascii "Alice", length_alice_le⟩
      identity := []
      website := []
      securityContact := []
      details := [] }
    commissionRate := none
    minSelfDelegation := ⟨0, Int256.zero_lt⟩
    maxTotalDelegation := ⟨0, Int256.zero_lt⟩
    slotKeyToRemove := none
    slotKeyToAdd := none
    slotKeyToAddSig := none
    status := ⟨0, ShardId.zero_lt⟩ }
  trailing := []

/-- The change of the validator, in one packet. -/
def editPacket : Apdu :=
  Signing.staking.packet P1_FIRST P2_FINISH editAlice.encode
    (by decide +kernel)

/-- The address was scrolled by one character, and the name starts there. -/
theorem not_right_editAlice :
    RaisesReview [editPacket] ∧ ∃ reached replies,
      (firmware (.ofTables [] []) .nanoS).run [.apdu editPacket,
          .press .releasedRight, .press .seekRight, .press .releasedBoth]
          (.boot .nanoS) = .ok (reached, replies) ∧
        reached.screen = .descriptionCompare ∧
        ∃ scroll ∈ reached.scroll (.ofTables [] []),
          scroll.index ≠ 0 ∧ ¬scroll.Right := by
  refine ⟨?_, ?_⟩
  · obtain ⟨⟨code, context⟩, accepts, seen⟩ := exists_of_view
      (fun result : Int × TxContext => (result.1,
        directiveText result.2.content.directive,
        decide (FitsNanoS result.2.content)))
      (show (processStaking (Region.ofList (messageOf ([] ++ [editPacket])))
        (Signing.staking.start (messageOf ([] ++ [editPacket])).length)
          ).toOption.map _ = some (0, some (ascii "Edit Validator" ++ [0]),
            true) by decide +kernel)
    obtain ⟨rfl, rest⟩ := Prod.mk.inj seen
    obtain ⟨titled, texts⟩ := Prod.mk.inj rest
    exact .staking (.single rfl rfl rfl) (by decide +kernel) accepts titled
      (of_decide_eq_true texts)
  · obtain ⟨⟨reached, replies⟩, runs, seen⟩ := exists_of_view
      (fun result : Device .nanoS × List Effect => (result.1.screen,
        (result.1.scroll (.ofTables [] [])).map fun scroll =>
          (scroll.index, scroll.text.length)))
      (show ((firmware (.ofTables [] []) .nanoS).run [.apdu editPacket,
          .press .releasedRight, .press .seekRight, .press .releasedBoth]
          (.boot .nanoS)).toOption.map _ =
            some (.descriptionCompare, some ((1 : UInt8), 5)) by
              decide +kernel)
    obtain ⟨screen, scrolls⟩ := Prod.mk.inj seen
    obtain ⟨scroll, member, shown⟩ := Option.map_eq_some_iff.mp scrolls
    obtain ⟨index, length⟩ := Prod.mk.inj shown
    refine ⟨reached, replies, runs, screen, scroll, member, ?_, ?_⟩
    · rw [index]
      decide
    · intro right
      have inside := right.inside
      rw [index, length] at inside
      exact absurd inside (by decide)

end LedgerOne
