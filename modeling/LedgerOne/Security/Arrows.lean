import LedgerOne.Security.Scrolling

/-!
# The arrows of the Nano S

The recipient and the amount of a transfer and the account's address have an
arrow on each side.  Before a screen is drawn a callback leaves out the arrows
that lead nowhere.
-/

namespace LedgerOne

/-- The arrows that are drawn. -/
structure Arrows where
  left : Bool
  right : Bool

section Callbacks

variable (ctx : Ctx .nanoS)

/-- `ui_prepro_getPublicKey_compare`. -/
def preproGetPublicKeyCompare : Arrows :=
  let displayIndex := (ctx.buf.get GetPublicKey.displayIndex).toNat
  ⟨!(displayIndex == 0), !decide (MAX_ONE_ADDRESS - 12 ≤ displayIndex)⟩

/-- `ui_prepro_address_compare`, which looks for the one last index. -/
def preproAddressCompare : Arrows :=
  let displayIndex := ctx.display.displayIndex.toNat
  ⟨!(displayIndex == 0), !(displayIndex == MAX_ONE_ADDRESS - 12)⟩

/-- `ui_prepro_amount_compare`. -/
def preproAmountCompare : Arrows :=
  let displayIndex := ctx.display.displayIndex.toNat
  let amountLength := ctx.display.getUint32 SignTxn.amountLength
  ⟨!(displayIndex == 0),
    !decide (minusUint32 amountLength 12 ≤ displayIndex)⟩

end Callbacks

/-- The arrows of the screens that have a callback. -/
def Device.arrows (device : Device .nanoS) : Option Arrows :=
  match device.screen with
  | .getPublicKeyCompare => some (preproGetPublicKeyCompare device.ctx)
  | .addressCompare => some (preproAddressCompare device.ctx)
  | .amountCompareLarge => some (preproAmountCompare device.ctx)
  | _ => none

/-- An arrow is drawn exactly where the text goes on behind the window. -/
structure Arrows.Tell (arrows : Arrows) (scroll : Scroll) : Prop where
  left : arrows.left ↔ 0 < scroll.index.toNat
  right : arrows.right ↔ scroll.index.toNat + 12 < scroll.text.length

section Tell

variable {env : Env} {device : Device .nanoS}

theorem tell_address {ctx : Ctx .nanoS} {text window : List UInt8}
    (length : text.length = 42) :
    (preproGetPublicKeyCompare ctx).Tell
      ⟨text, ctx.buf.get GetPublicKey.displayIndex, window⟩ := by
  constructor
  · simp [preproGetPublicKeyCompare, Nat.pos_iff_ne_zero]
  · have room : MAX_ONE_ADDRESS - 12 = 30 := rfl
    simp only [preproGetPublicKeyCompare, room, Bool.not_eq_true',
      decide_eq_false_iff_not, length]
    omega

/-- The one index at which the arrow is left out is the last one that the
user reaches. -/
theorem tell_recipient {content : TxContent} {ctx : Ctx .nanoS}
    {window : List UInt8} (compares : ctx.ComparesAddress content) :
    (preproAddressCompare ctx).Tell ⟨addressText content.destination,
      ctx.display.displayIndex, window⟩ := by
  have inside := compares.scrolls.inside
  have length := length_addressText content.destination
  constructor
  · simp [preproAddressCompare, Nat.pos_iff_ne_zero]
  · have room : MAX_ONE_ADDRESS - 12 = 30 := rfl
    simp only [preproAddressCompare, room, Bool.not_eq_true',
      beq_eq_false_iff_ne]
    omega

theorem tell_amount {content : TxContent} {ctx : Ctx .nanoS}
    {window : List UInt8} (compares : ctx.ComparesAmount content) :
    (preproAmountCompare ctx).Tell ⟨amountText content.value.number,
      ctx.display.displayIndex, window⟩ := by
  have long := compares.long
  have few := compares.scrolls.holds.fits
  constructor
  · simp [preproAmountCompare, Nat.pos_iff_ne_zero]
  · simp only [preproAmountCompare, Bool.not_eq_true',
      decide_eq_false_iff_not]
    rw [compares.length, minusUint32_eq (by omega) (by omega)]
    omega

/-- What holds of a review whatever the user presses. -/
inductive Reviewing (env : Env) (device : Device .nanoS) : Prop
  | address (stage : AddressStage env device.ctx device.screen)
  | transfer (content : TxContent)
      (stage : TransferStage content device.ctx device.screen)
      (short : content.value.length.toNat ≤ 32)
  | staking (content : TxContent) (texts : FitsNanoS content)
      (stage : StakingStage content device.ctx device.screen)

theorem InReview.reviewing (reviews : InReview env device) :
    Reviewing env device := by
  cases reviews with
  | address stage => exact .address stage
  | transfer content stage short => exact .transfer content stage short
  | staking content texts long stage windows inside =>
      exact .staking content texts stage

/-- Every press keeps the review. -/
theorem reviewing_step (reviews : Reviewing env device) (press : Press) :
    ∃ next outputs, (firmware env .nanoS).step device (.press press) =
        .ok (next, outputs) ∧ Reviewing env next := by
  obtain ⟨ctx, screen, io⟩ := device
  cases reviews with
  | address stage =>
      obtain ⟨outcome, presses, reaches⟩ :=
        inReview_step (.address stage) press
      have keeps : KeepsWindow ⟨ctx, screen, io⟩ (.press press) := by
        have safe : SafePress ctx screen press := by
          cases screen with
          | idle => cases press <;> simp [SafePress, countedText]
          | getPublicKeyApprove =>
              cases press <;> simp [SafePress, countedText]
          | getPublicKeyCompare =>
              cases press <;> simp [SafePress, countedText]
          | _ => exact stage.elim
        refine ⟨safe, fun keys => ?_⟩
        change screen = .blsKeys at keys
        rw [keys] at stage
        exact stage.elim
      exact ⟨_, _, step_of_pressed press presses,
        (reaches keeps).1.caught.reviewing⟩
  | transfer content stage short =>
      obtain ⟨outcome, presses, step⟩ :=
        pressed_transferStep env io screen stage short press
      have stays : TransferStage content outcome.caught.1.ctx
          outcome.caught.1.screen := by
        rw [caught_ctx, caught_screen]
        exact step.stage
      exact ⟨_, _, step_of_pressed press presses,
        .transfer content stays short⟩
  | staking content texts stage =>
      obtain ⟨outcome, presses, step⟩ :=
        pressed_stakingStep env io texts screen stage press
      have stays : StakingStage content outcome.caught.1.ctx
          outcome.caught.1.screen := by
        rw [caught_ctx, caught_screen]
        exact step.stage
      exact ⟨_, _, step_of_pressed press presses,
        .staking content texts stays⟩

/-- The screens with arrows show the window that the arrows are about. -/
theorem Reviewing.tell (reviews : Reviewing env device) :
    ∀ arrows ∈ device.arrows, ∃ scroll ∈ device.scroll env,
      scroll.Right ∧ arrows.Tell scroll := by
  intro arrows member
  obtain ⟨ctx, screen, io⟩ := device
  cases reviews with
  | address stage =>
      have right := InReview.right (.address stage)
      cases screen with
      | getPublicKeyCompare =>
          obtain rfl := Option.some.inj member
          exact ⟨_, rfl, right _ rfl, tell_address (length_addressText _)⟩
      | idle => cases member
      | getPublicKeyApprove => cases member
      | _ => exact stage.elim
  | transfer content stage short =>
      have reviews : InReview env ⟨ctx, screen, io⟩ :=
        .transfer content stage short
      have right := reviews.right
      cases screen with
      | addressCompare =>
          obtain rfl := Option.some.inj member
          obtain rfl := stage.keeps
          exact ⟨_, rfl, right _ rfl, tell_recipient stage⟩
      | amountCompareLarge =>
          obtain rfl := Option.some.inj member
          obtain rfl := stage.keeps
          exact ⟨_, rfl, right _ rfl, tell_amount stage⟩
      | getPublicKeyCompare => exact stage.elim
      | _ => cases member
  | staking content texts stage =>
      cases screen with
      | getPublicKeyCompare => exact stage.elim
      | addressCompare => exact stage.elim
      | amountCompareLarge => exact stage.elim
      | _ => cases member

end Tell

section Runs

variable (env : Env)

/-- Presses never end in a fault, and keep the review. -/
theorem reviewing_run (presses : List Press) {device : Device .nanoS}
    (reviews : Reviewing env device) :
    ∃ reached outputs,
      (firmware env .nanoS).run (presses.map .press) device =
          .ok (reached, outputs) ∧ Reviewing env reached := by
  induction presses generalizing device with
  | nil => exact ⟨device, [], rfl, reviews⟩
  | cons press presses inductionHypothesis =>
      obtain ⟨next, outputs, steps, kept⟩ := reviewing_step reviews press
      obtain ⟨reached, more, runs, ended⟩ := inductionHypothesis kept
      exact ⟨reached, _, Machine.run_step steps runs, ended⟩

/-- Whatever the user presses in a review, the arrows tell whether the text
goes on. -/
theorem arrows_tell (device : Device .nanoS) {requests : List Apdu}
    (raises : RaisesReview requests) :
    ∃ raised replies,
      (firmware env .nanoS).run (requests.map .apdu) device =
          .ok (raised, replies) ∧
        ∀ presses : List Press, ∃ reached outputs,
          (firmware env .nanoS).run (presses.map .press) raised =
              .ok (reached, outputs) ∧
            ∀ arrows ∈ reached.arrows, ∃ scroll ∈ reached.scroll env,
              scroll.Right ∧ arrows.Tell scroll := by
  obtain ⟨raised, replies, runs, begins⟩ := exists_inReview env device raises
  refine ⟨raised, replies, runs, fun presses => ?_⟩
  obtain ⟨reached, outputs, goesOn, kept⟩ :=
    reviewing_run env presses begins.reviewing
  exact ⟨reached, outputs, goesOn, kept.tell⟩

/-- The request to show the address. -/
def displayRequest : Apdu where
  cla := CLA
  ins := INS_GET_PUBLIC_KEY
  p1 := 0
  p2 := P2_DISPLAY_ADDRESS
  data := []
  length_data := Nat.zero_le _

/-- A transfer of one token, in one packet. -/
def transferPacket : Apdu :=
  Signing.tx.packet P1_FIRST P2_FINISH oneToken.encode (by decide +kernel)

theorem raisesReview_transferPacket : RaisesReview [transferPacket] := by
  obtain ⟨⟨code, context⟩, parses, seen⟩ := exists_of_view
    (fun result : Int × TxContext => result.2.content.value.length.toNat)
    (show (processTx (Region.ofList (messageOf ([] ++ [transferPacket])))
      (Signing.tx.start (messageOf ([] ++ [transferPacket])).length)
        ).toOption.map _ = some 8 by decide +kernel)
  exact .transfer (.single rfl rfl rfl) (by decide +kernel) parses (by
    rw [seen]
    decide)

/-- The reviews of an address and of a transfer. -/
theorem arrows_tell_displayRequest :
    (RaisesReview [displayRequest] ∧ ∃ raised replies,
      (firmware (.ofTables [] []) .nanoS).run ([displayRequest].map .apdu)
          (.boot .nanoS) = .ok (raised, replies) ∧
        ∀ presses : List Press, ∃ reached outputs,
          (firmware (.ofTables [] []) .nanoS).run (presses.map .press)
              raised = .ok (reached, outputs) ∧
            ∀ arrows ∈ reached.arrows,
              ∃ scroll ∈ reached.scroll (.ofTables [] []),
                scroll.Right ∧ arrows.Tell scroll) ∧
    (RaisesReview [transferPacket] ∧ ∃ raised replies,
      (firmware (.ofTables [] []) .nanoS).run ([transferPacket].map .apdu)
          (.boot .nanoS) = .ok (raised, replies) ∧
        ∀ presses : List Press, ∃ reached outputs,
          (firmware (.ofTables [] []) .nanoS).run (presses.map .press)
              raised = .ok (reached, outputs) ∧
            ∀ arrows ∈ reached.arrows,
              ∃ scroll ∈ reached.scroll (.ofTables [] []),
                scroll.Right ∧ arrows.Tell scroll) := by
  have address : RaisesReview [displayRequest] := .address rfl rfl
  have transfer := raisesReview_transferPacket
  exact ⟨⟨address, arrows_tell (.ofTables [] []) (.boot .nanoS) address⟩,
    transfer, arrows_tell (.ofTables [] []) (.boot .nanoS) transfer⟩

end Runs

end LedgerOne
