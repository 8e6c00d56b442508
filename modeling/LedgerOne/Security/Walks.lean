import LedgerOne.Firmware.Onward
import LedgerOne.Security.Signings
import LedgerOne.Security.TransferWrites

/-!
# The screens of the Nano S

A review on the Nano S leads through one screen after the other.  On each of
them the user can read the whole text, and go on to the next one; the last one
asks whether to sign.
-/

namespace LedgerOne

/-! ## Walks -/

/-- A screen: the captions above its text, whether the user scrolls through
the text, and the press that goes on. -/
structure Page where
  captions : List (List UInt8)
  text : List UInt8
  scrolls : Bool
  onward : Press

/-- The lines of a screen that has been scrolled. -/
def Page.lines (page : Page) (offset : Nat) : List (List UInt8) :=
  page.captions ++
    [if page.scrolls then windowOn page.text offset 12 else page.text]

/-- How far a screen can be scrolled. -/
def Page.room (page : Page) : Nat :=
  if page.scrolls then page.text.length - 12 else 0

/-- A device that leads through pages, on each of which the user can scroll to
any place and back and then go on, to the question whether to sign. -/
def Device.Leads (env : Env) (message : List UInt8)
    (question : List (List UInt8)) : List Page -> Device .nanoS -> Prop
  | [], device => device.shown = question ∧
      device.Decides env message .releasedRight .releasedLeft
  | page :: pages, device => ∀ offset ≤ page.room,
      ∃ there back next,
        (firmware env .nanoS).run
            (List.replicate offset (.press .seekRight)) device =
          .ok (there, []) ∧
        there.shown = page.lines offset ∧
        (firmware env .nanoS).run
            (List.replicate offset (.press .seekLeft)) there =
          .ok (back, []) ∧
        (firmware env .nanoS).step back (.press page.onward) =
          .ok (next, []) ∧
        Device.Leads env message question pages next

section Leads

variable {env : Env} {message : List UInt8} {question : List (List UInt8)}
  {page : Page} {pages : List Page} {device : Device .nanoS}

/-- A screen that scrolls, given what holds of it at every offset. -/
theorem leads_page (stage : Nat -> Device .nanoS -> Prop)
    (right : ∀ device offset, offset < page.room -> stage offset device ->
      ∃ next, (firmware env .nanoS).step device (.press .seekRight) =
        .ok (next, []) ∧ stage (offset + 1) next)
    (left : ∀ device offset, stage (offset + 1) device ->
      ∃ next, (firmware env .nanoS).step device (.press .seekLeft) =
        .ok (next, []) ∧ stage offset next)
    (shows : ∀ device offset, stage offset device ->
      device.shown = page.lines offset)
    (goesOn : ∀ device, stage 0 device ->
      ∃ next, (firmware env .nanoS).step device (.press page.onward) =
        .ok (next, []) ∧ next.Leads env message question pages)
    (starts : stage 0 device) :
    device.Leads env message question (page :: pages) := by
  intro offset inside
  obtain ⟨there, moves, reached⟩ :=
    Machine.exists_run_replicate right inside starts
  have returns : ∀ state index, index < offset ->
      stage (offset - index) state ->
      ∃ next, (firmware env .nanoS).step state (.press .seekLeft) =
        .ok (next, []) ∧ stage (offset - (index + 1)) next := by
    intro state index few holds
    rw [show offset - index = offset - (index + 1) + 1 by omega] at holds
    exact left state _ holds
  obtain ⟨back, movesBack, ended⟩ := Machine.exists_run_replicate
    returns (Nat.le_refl offset) (by rwa [Nat.sub_zero])
  rw [Nat.sub_self] at ended
  obtain ⟨next, steps, leads⟩ := goesOn back ended
  exact ⟨there, back, next, moves, shows there offset reached, movesBack,
    steps, leads⟩

/-- A screen that does not scroll. -/
theorem leads_plain {next : Device .nanoS} (plain : page.scrolls = false)
    (shows : device.shown = page.captions ++ [page.text])
    (steps : (firmware env .nanoS).step device (.press page.onward) =
      .ok (next, []))
    (leads : next.Leads env message question pages) :
    device.Leads env message question (page :: pages) := by
  intro offset inside
  have room : page.room = 0 := by
    rw [Page.room, plain]
    rfl
  obtain rfl := Nat.le_zero.mp (room ▸ inside)
  refine ⟨device, device, next, rfl, ?_, rfl, steps, leads⟩
  rw [shows, Page.lines, plain]
  rfl

/-- The window on a text, as a page shows it. -/
theorem page_window {display : Display build} {target offset : Nat}
    {text : List UInt8} (window : display.strings.Holds target 13
      (windowOn text offset 12))
    (inside : target + 13 ≤ build.stringsSize) (proper : 0 ∉ text)
    (title : String) :
    display.page title target = [ascii title, windowOn text offset 12] := by
  have short := length_windowOn text offset 12
  have place : display.strings.Holds (⟨target, 13⟩ : Place).start
      (⟨target, 13⟩ : Place).size (windowOn text offset 12) := window
  exact page_of_holds place inside title (by
      show _ < 13
      omega)
    fun member => proper (List.mem_of_mem_drop (List.mem_of_mem_take member))

end Leads

/-! ## Indices -/

section Indices

variable {display : Display build}

theorem toNat_rightIndex {limit offset : Nat}
    (stands : display.displayIndex.toNat = offset) (less : offset < limit)
    (small : limit < 2 ^ 8) :
    (display.rightIndex limit).toNat = offset + 1 := by
  rw [Display.rightIndex, if_pos (by rwa [stands]), UInt8.toNat_add, stands]
  exact Nat.mod_eq_of_lt (by
    show offset + 1 < 256
    omega)

theorem toNat_leftIndex {offset : Nat}
    (stands : display.displayIndex.toNat = offset + 1) :
    display.leftIndex.toNat = offset := by
  have positive : 0 < display.displayIndex := UInt8.lt_iff_toNat_lt.mpr (by
    rw [stands]
    exact Nat.succ_pos offset)
  have one : (1 : UInt8) ≤ display.displayIndex :=
    UInt8.le_iff_toNat_le.mpr (UInt8.lt_iff_toNat_lt.mp positive)
  rw [Display.leftIndex, if_pos positive, UInt8.toNat_sub_of_le _ _ one,
    stands]
  rfl

variable {source size target offset : Nat} {text : List UInt8}
  (scrolls : display.Scrolls source size target text) (room : 12 ≤ size)
  (whole : source + size ≤ build.stringsSize)
  (within : target + 12 ≤ build.stringsSize)
  (apart : target + 12 ≤ source ∨ source + size ≤ target)

include scrolls room whole within apart

/-- One character to the right. -/
theorem Display.Scrolls.rightward
    (stands : display.displayIndex.toNat = offset) (few : size < 2 ^ 8)
    (inside : offset < text.length - 12) {limit : Nat}
    (ends : limit = text.length - 12) :
    ∃ index : UInt8, index.toNat = offset + 1 ∧
      display.seekRight limit target source 12 =
        .ok (display.moved index target source 12) ∧
      (display.moved index target source 12).Scrolls source size target
        text := by
  have fits := scrolls.holds.fits
  have index := toNat_rightIndex stands (ends ▸ inside)
    (show limit < 2 ^ 8 by omega)
  exact ⟨_, index, display.seekRight_eq (by omega) within,
    scrolls.moved (by omega) room within apart⟩

/-- One character to the left. -/
theorem Display.Scrolls.leftward
    (stands : display.displayIndex.toNat = offset + 1) :
    ∃ index : UInt8, index.toNat = offset ∧
      display.seekLeft target source 12 =
        .ok (display.moved index target source 12) ∧
      (display.moved index target source 12).Scrolls source size target
        text := by
  have fits := scrolls.holds.fits
  have inside := scrolls.inside
  have index := toNat_leftIndex stands
  exact ⟨_, index, display.seekLeft_eq (by omega) within,
    scrolls.moved (by omega) room within apart⟩

end Indices

/-! ## Transfers -/

/-- The screen of an amount. -/
def amountPage (text : List UInt8) : Page where
  captions := [ascii "Amount:"]
  text := text
  scrolls := 12 < text.length
  onward := if 12 < text.length then .releasedBoth else .releasedRight

/-- A device on a screen of a transfer, at an index. -/
structure OnTransfer (content : TxContent) (message : List UInt8)
    (screen : Screen) (offset : Nat) (device : Device .nanoS) : Prop where
  screen : device.screen = screen
  stage : TransferStage content device.ctx device.screen
  index : device.ctx.display.displayIndex.toNat = offset
  message : device.ctx.message = message

section Transfers

variable {env : Env} {content : TxContent} {message : List UInt8}
  {device : Device .nanoS} {offset : Nat}

theorem address_right
    (on : OnTransfer content message .addressCompare offset device)
    (inside : offset < 42 - 12) :
    ∃ next, (firmware env .nanoS).step device (.press .seekRight) =
        .ok (next, []) ∧
      OnTransfer content message .addressCompare (offset + 1) next := by
  obtain ⟨ctx, screen, io⟩ := device
  obtain ⟨rfl, compares, stands, same⟩ := on
  have length := length_addressText content.destination
  obtain ⟨index, value, seeks, scrolls⟩ := compares.scrolls.rightward
    (by decide) (by decide) (by decide) (by decide) stands (by decide)
    (by rwa [length]) (show MAX_ONE_ADDRESS - 12 = _ by rw [length]; rfl)
  have presses : pressed env .nanoS ⟨ctx, .addressCompare, io⟩ .seekRight =
      _ := congrArg (· >>= _) seeks
  exact ⟨_, step_of_pressed .seekRight presses, rfl,
    ⟨compares.keeps, scrolls⟩, value, same⟩

theorem address_left
    (on : OnTransfer content message .addressCompare (offset + 1) device) :
    ∃ next, (firmware env .nanoS).step device (.press .seekLeft) =
        .ok (next, []) ∧
      OnTransfer content message .addressCompare offset next := by
  obtain ⟨ctx, screen, io⟩ := device
  obtain ⟨rfl, compares, stands, same⟩ := on
  obtain ⟨index, value, seeks, scrolls⟩ := compares.scrolls.leftward
    (by decide) (by decide) (by decide) (by decide) stands
  have presses : pressed env .nanoS ⟨ctx, .addressCompare, io⟩ .seekLeft =
      _ := congrArg (· >>= _) seeks
  exact ⟨_, step_of_pressed .seekLeft presses, rfl,
    ⟨compares.keeps, scrolls⟩, value, same⟩

/-- The window on the amount at another index. -/
def Ctx.amountMoved (ctx : Ctx .nanoS) (index : UInt8) : Ctx .nanoS :=
  let display := ctx.display.moved index SignTxn.partialAmountStr
    SignTxn.amountStr 12
  { ctx with display := display }

theorem amount_right
    (on : OnTransfer content message .amountCompareLarge offset device)
    (inside : offset < (amountText content.value.number).length - 12) :
    ∃ next, (firmware env .nanoS).step device (.press .seekRight) =
        .ok (next, []) ∧
      OnTransfer content message .amountCompareLarge (offset + 1) next := by
  obtain ⟨ctx, screen, io⟩ := device
  obtain ⟨rfl, compares, stands, same⟩ := on
  have long := compares.long
  have few := compares.scrolls.holds.fits
  obtain ⟨index, value, seeks, scrolls⟩ := compares.scrolls.rightward
    (by decide) (by decide) (by decide) (by decide) stands (by decide)
    inside (show minusUint32 (ctx.display.getUint32 SignTxn.amountLength) 12 =
      _ by rw [compares.length, minusUint32_eq (by omega) (by omega)])
  have count : (if 12 < ctx.display.getUint32 SignTxn.amountLength then 12
      else ctx.display.getUint32 SignTxn.amountLength) = 12 := by
    rw [compares.length, if_pos long]
  have moves : amountCompareLargeButton ⟨ctx, .amountCompareLarge, io⟩
      .seekRight = .ok (Device.proceed ⟨ctx, .amountCompareLarge, io⟩
        (ctx.amountMoved index) .amountCompareLarge) := by
    unfold amountCompareLargeButton
    dsimp only
    rw [count]
    exact congrArg (· >>= _) seeks
  have presses : pressed env .nanoS ⟨ctx, .amountCompareLarge, io⟩
      .seekRight = _ := moves
  exact ⟨_, step_of_pressed .seekRight presses, rfl,
    ⟨compares.keeps, scrolls,
      (ctx.display.getUint32_moved index (by decide)).trans compares.length,
      long⟩, value, same⟩

theorem amount_left
    (on : OnTransfer content message .amountCompareLarge (offset + 1)
      device) :
    ∃ next, (firmware env .nanoS).step device (.press .seekLeft) =
        .ok (next, []) ∧
      OnTransfer content message .amountCompareLarge offset next := by
  obtain ⟨ctx, screen, io⟩ := device
  obtain ⟨rfl, compares, stands, same⟩ := on
  have long := compares.long
  obtain ⟨index, value, seeks, scrolls⟩ := compares.scrolls.leftward
    (by decide) (by decide) (by decide) (by decide) stands
  have count : (if 12 < ctx.display.getUint32 SignTxn.amountLength then 12
      else ctx.display.getUint32 SignTxn.amountLength) = 12 := by
    rw [compares.length, if_pos long]
  have moves : amountCompareLargeButton ⟨ctx, .amountCompareLarge, io⟩
      .seekLeft = .ok (Device.proceed ⟨ctx, .amountCompareLarge, io⟩
        (ctx.amountMoved index) .amountCompareLarge) := by
    unfold amountCompareLargeButton
    dsimp only
    rw [count]
    exact congrArg (· >>= _) seeks
  have presses : pressed env .nanoS ⟨ctx, .amountCompareLarge, io⟩
      .seekLeft = _ := moves
  exact ⟨_, step_of_pressed .seekLeft presses, rfl,
    ⟨compares.keeps, scrolls,
      (ctx.display.getUint32_moved index (by decide)).trans compares.length,
      long⟩, value, same⟩

/-- What the screens that scroll show. -/
theorem address_shown
    (on : OnTransfer content message .addressCompare offset device) :
    device.shown = [ascii "Send to Addr:",
      windowOn (addressText content.destination) offset 12] := by
  obtain ⟨ctx, screen, io⟩ := device
  obtain ⟨rfl, compares, rfl, same⟩ := on
  exact page_window compares.scrolls.window (by decide)
    (zero_not_mem_addressText _) _

theorem amount_shown
    (on : OnTransfer content message .amountCompareLarge offset device) :
    device.shown = [ascii "Amount:",
      windowOn (amountText content.value.number) offset 12] := by
  obtain ⟨ctx, screen, io⟩ := device
  obtain ⟨rfl, compares, rfl, same⟩ := on
  exact page_window compares.scrolls.window (by decide)
    (zero_not_mem_amountText _) _

/-- Going on from a screen of a transfer. -/
theorem transfer_onward {screens : List Screen} {press : Press}
    (leads : Ensures (pressed env .nanoS device press)
      (Outcome.Onward device screens))
    (stage : TransferStage content device.ctx device.screen)
    (short : content.value.length.toNat ≤ 32)
    (same : device.ctx.message = message)
    (other : device.screen ∉ screens) :
    ∃ next, (firmware env .nanoS).step device (.press press) =
        .ok (next, []) ∧
      next.screen ∈ screens ∧ TransferStage content next.ctx next.screen ∧
      next.ctx.message = message ∧
      (next.screen = .addressCompare ∨ next.screen = .amountCompareLarge ->
        next.ctx.display.displayIndex = 0) := by
  obtain ⟨outcome, presses, step⟩ :=
    pressed_transferStep env device.io device.screen stage short press
  have onward := leads.value outcome presses
  refine ⟨outcome.device, onward.step presses, onward.screen, step.stage,
    onward.message.trans same, step.entered ?_⟩
  intro unchanged
  exact other (unchanged ▸ onward.screen)

end Transfers

section Transfers

variable {env : Env} {content : TxContent} {message shards : List UInt8}
  {device : Device .nanoS}

/-- The question whether to sign a transfer. -/
def transferQuestion : List (List UInt8) := [ascii "Sign Transaction?"]

/-- The screen of the shards. -/
def shardsPage (shards : List UInt8) : Page :=
  ⟨[ascii "Shard:"], shards, false, .releasedRight⟩

theorem leads_txApprove (screen : device.screen = .txApprove)
    (same : device.ctx.message = message) :
    device.Leads env message transferQuestion [] := by
  refine ⟨by rw [Device.shown, screen]; rfl,
    decides_of_sign SignTxn.hash (by decide) same ?_ ?_⟩
  · simp only [pressed, pressNanoS, screen, txApproveButton]
  · simp only [pressed, pressNanoS, screen, txApproveButton]

theorem leads_fromshardApprove (screen : device.screen = .fromshardApprove)
    (same : device.ctx.message = message)
    (holds : device.ctx.display.strings.Holds SignTxn.shardStr
      (shards.length + 1) shards)
    (few : shards.length ≤ 63) (proper : 0 ∉ shards) :
    device.Leads env message transferQuestion [shardsPage shards] := by
  have place : device.ctx.display.strings.Holds
      (⟨SignTxn.shardStr, shards.length + 1⟩ : Place).start
      (⟨SignTxn.shardStr, shards.length + 1⟩ : Place).size shards := holds
  have page := page_of_holds place (by
    show 153 + (shards.length + 1) ≤ 420
    omega) "Shard:" (Nat.lt_succ_self _) proper
  have presses : pressed env .nanoS device .releasedRight =
      .ok (device.proceed device.ctx .txApprove) := by
    simp only [pressed, pressNanoS, screen, fromshardApproveButton]
  refine leads_plain rfl ?_ (step_of_pressed .releasedRight presses)
    (leads_txApprove rfl same)
  rw [Device.shown, screen]
  exact page

variable (line : shardText content = shards ++ [0])
  (few : shards.length ≤ 63) (proper : 0 ∉ shards)

include line few proper

/-- Going on to the shards. -/
theorem exists_shards {press : Press}
    (presses : pressed env .nanoS device press =
      (assignShardString device.ctx.txContent device.ctx.display >>=
        fun display => .ok (device.proceed
          { device.ctx with display := display } .fromshardApprove)))
    (keeps : device.ctx.txContent = content)
    (same : device.ctx.message = message) :
    ∃ next, (firmware env .nanoS).step device (.press press) =
        .ok (next, []) ∧
      next.Leads env message transferQuestion [shardsPage shards] := by
  subst keeps
  rw [stores_shardText, bind_ok, line] at presses
  exact ⟨_, step_of_pressed press presses, leads_fromshardApprove rfl same
    (.overwritten _ 1 le_rfl (Nat.le_succ _) (by
      show 153 + (shards.length + 1) ≤ 420
      omega)) few proper⟩

theorem leads_amount
    (listed : device.screen ∈ [.amountCompareLarge, .amountCompare])
    (stage : TransferStage content device.ctx device.screen)
    (same : device.ctx.message = message)
    (start : device.screen = .amountCompareLarge ->
      device.ctx.display.displayIndex = 0) :
    device.Leads env message transferQuestion
      [amountPage (amountText content.value.number), shardsPage shards] := by
  have screens : device.screen = .amountCompareLarge ∨
      device.screen = .amountCompare := by simpa using listed
  obtain screen | screen := screens
  · have compares : device.ctx.ComparesAmount content := by
      rw [screen] at stage
      exact stage
    have page : amountPage (amountText content.value.number) =
        ⟨[ascii "Amount:"], amountText content.value.number, true,
          .releasedBoth⟩ := by
      simp [amountPage, compares.long]
    rw [page]
    refine leads_page (OnTransfer content message .amountCompareLarge)
      (fun device offset inside on => amount_right on inside)
      (fun device offset on => amount_left on)
      (fun device offset on => amount_shown on) (fun device on => ?_)
      ⟨screen, stage, by rw [start screen]; rfl, same⟩
    obtain ⟨ctx, screen, io⟩ := device
    obtain ⟨rfl, compares, -, same⟩ := on
    exact exists_shards line few proper rfl compares.keeps same
  · have shows : device.ctx.ShowsAmount content := by
      rw [screen] at stage
      exact stage
    have short := shows.short
    have page : amountPage (amountText content.value.number) =
        ⟨[ascii "Amount:"], amountText content.value.number, false,
          .releasedRight⟩ := by
      simp [amountPage, short]
    have place : device.ctx.display.strings.Holds
        (⟨SignTxn.partialAmountStr,
          (amountText content.value.number).length + 1⟩ : Place).start
        (⟨SignTxn.partialAmountStr,
          (amountText content.value.number).length + 1⟩ : Place).size
        (amountText content.value.number) := shows.shows
    obtain ⟨next, steps, leads⟩ := exists_shards line few proper
      (show pressed env .nanoS device .releasedRight = _ by
        simp only [pressed, pressNanoS, screen, amountCompareButton]
        rfl) shows.keeps same
    rw [page]
    refine leads_plain rfl ?_ steps leads
    rw [Device.shown, screen]
    exact page_of_holds place (by
      show 140 + ((amountText content.value.number).length + 1) ≤ 420
      omega) "Amount:" (Nat.lt_succ_self _) (zero_not_mem_amountText _)

theorem leads_addressCompare (short : content.value.length.toNat ≤ 32)
    (on : OnTransfer content message .addressCompare 0 device) :
    device.Leads env message transferQuestion
      [⟨[ascii "Send to Addr:"], addressText content.destination, true,
          .releasedBoth⟩,
        amountPage (amountText content.value.number), shardsPage shards] := by
  have length := length_addressText content.destination
  refine leads_page (OnTransfer content message .addressCompare)
    (fun device offset inside on => address_right on ?_)
    (fun device offset on => address_left on)
    (fun device offset on => address_shown on) (fun device on => ?_) on
  · rw [← length]
    exact inside
  · obtain ⟨ctx, screen, io⟩ := device
    obtain ⟨rfl, compares, -, same⟩ := on
    have leads : Ensures (pressed env .nanoS ⟨ctx, .addressCompare, io⟩
        .releasedBoth) (Outcome.Onward ⟨ctx, .addressCompare, io⟩
          [.amountCompareLarge, .amountCompare]) :=
      onward_addressCompare env ⟨ctx, .addressCompare, io⟩ (by
        rwa [compares.keeps])
    obtain ⟨next, steps, listed, stage, kept, start⟩ :=
      transfer_onward leads compares short same (by simp)
    exact ⟨next, steps, leads_amount line few proper listed stage kept
      fun large => start (Or.inr large)⟩

end Transfers

/-! ## Encoded transfers -/

/-- A session leads through pages to the question whether to sign its
message. -/
def Walks (env : Env) (device : Device .nanoS) (front : List Apdu)
    (last : Apdu) (question : List (List UInt8)) (pages : List Page) : Prop :=
  ∃ opened replies asking,
    (firmware env .nanoS).run (front.map .apdu) device =
      .ok (opened, replies) ∧
    (firmware env .nanoS).step opened (.apdu last) = .ok (asking, []) ∧
    asking.Leads env (messageOf (front ++ [last])) question pages

/-- The screens of a transfer. -/
def TransferMessage.walk (message : TransferMessage) : List Page :=
  [⟨[], ascii "Review Transaction?", false, .releasedRight⟩,
    ⟨[ascii "Send to Addr:"], addressText (.ofList message.recipientBytes),
      true, .releasedBoth⟩,
    amountPage (amountText message.amount.val),
    shardsPage (shardsText message.shardID.val message.toShardID.val)]

section Encoded

/-- The line of the shards is never cut. -/
theorem shardText_content (message : TransferMessage) :
    shardText message.content =
      shardsText message.shardID.val message.toShardID.val ++ [0] := by
  have room := length_shardsText message.shardID.property
    message.toShardID.property
  exact congrArg (· ++ [0]) (List.take_of_length_le (by
    change (shardsText message.shardID.val message.toShardID.val).length ≤ 63
    omega))

/-- Taking up the review of an encoded transfer. -/
theorem leads_signTxApprove {env : Env} {message : TransferMessage}
    {device : Device .nanoS} (screen : device.screen = .signTxApprove)
    (parses : device.ctx.Parses message.content)
    (same : device.ctx.message = message.encode)
    (title : device.ctx.display.text SignTxn.typeStr =
      ascii "Review Transaction?") :
    device.Leads env message.encode transferQuestion message.walk := by
  obtain ⟨ctx, _, io⟩ := device
  subst screen
  have few : message.content.value.length.toNat ≤ 32 :=
    message.amount.length_stored_le
  have number : message.content.value.number = message.amount.val :=
    message.amount.number_stored
  have room := length_shardsText message.shardID.property
    message.toShardID.property
  have presses : Ensures (pressed env .nanoS ⟨ctx, .signTxApprove, io⟩
      .releasedRight) (Outcome.Onward ⟨ctx, .signTxApprove, io⟩
        [.addressCompare]) := onward_signTxApprove _
  obtain ⟨next, goesOn, listed, stage, kept, start⟩ :=
    transfer_onward presses parses few same (by simp)
  have screen := List.mem_singleton.mp listed
  have on : OnTransfer message.content message.encode .addressCompare 0 next :=
    ⟨screen, stage, by rw [start (Or.inl screen)]; rfl, kept⟩
  have leads : next.Leads env message.encode transferQuestion _ :=
    leads_addressCompare (shardText_content message) (by omega)
      (zero_not_mem_shardsText _ _) few on
  rw [number] at leads
  exact leads_plain rfl (congrArg (fun text => [text]) title) goesOn leads

variable (env : Env) (device : Device .nanoS) {front : List Apdu}
  {last : Apdu}

/-- The title of a review, on strings that are still zero. -/
theorem text_typeStr {display : Display .nanoS}
    (blank : display.Agrees (Signing.tx.size .nanoS) {}) :
    (display.put SignTxn.typeStr (ascii "Review Transaction?")).text
      SignTxn.typeStr = ascii "Review Transaction?" := by
  obtain rfl := blank.eq (by decide)
  have empty : (Region.zero : Region Build.nanoS.stringsSize).Holds
      SignTxn.typeStr 40 [] :=
    .of_zero fun index _ => Region.get_zero _
  have holds : (({} : Display .nanoS).put SignTxn.typeStr
      (ascii "Review Transaction?")).strings.Holds TransferArray.typeStr.start
        TransferArray.typeStr.size (ascii "Review Transaction?") :=
    Region.Holds.write empty
      (show (ascii "Review Transaction?").length ≤ 40 by decide) (by decide)
  exact (text_of_holds holds (by decide) (by decide)).trans
    (takeWhile_eq_of_not_mem (by decide))

/-- The Nano S leads through an encoded transfer. -/
theorem transfer_walks {message : TransferMessage}
    (short : message.encode.length ≤ 1020)
    (session : Signing.tx.Session front last)
    (sends : messageOf (front ++ [last]) = message.encode) :
    Walks env device front last transferQuestion message.walk := by
  obtain ⟨opened, replies, runs, -, presents, blank, steps⟩ :=
    run_session env device session (by rwa [sends])
  rw [sends] at presents
  have received : Received (Region.ofList message.encode) message.encode :=
    received_ofList (by omega)
  obtain ⟨context, returns, content⟩ :=
    (processTx_accepts_iff received message.content).mpr
      ⟨true, transferVerdict_encode message (length_payload_lt received)⟩
  let ctx := Signing.tx.finished last opened.ctx
  let title := ascii "Review Transaction?"
  let shown : Ctx .nanoS :=
    { ctx with display := ctx.display.put SignTxn.typeStr title }
  have parses : shown.Parses message.content :=
    ⟨0, context, by
      show processTx ctx.buf ctx.txContext = _
      rw [presents.buf, presents.txContext]
      exact returns, content⟩
  have same : shown.message = message.encode := by
    rw [← message_of_presents presents (by omega)]
    rfl
  have raises : Signing.tx.review env (opened.received last) ctx =
      .ok ((opened.received last).proceed shown .signTxApprove) :=
    congrArg (· >>= _) (ctx.display.write_eq (by decide))
  rw [raises] at steps
  refine ⟨opened, replies, _, runs, steps, ?_⟩
  rw [sends]
  exact leads_signTxApprove rfl parses same (text_typeStr blank)

/-- A transfer of one token. -/
theorem transfer_walks_oneToken :
    Walks (.ofTables [] []) (.boot .nanoS) [] oneTokenPacket transferQuestion
      oneToken.walk :=
  transfer_walks _ _ length_oneToken (.single rfl rfl rfl)
    (List.append_nil oneToken.encode)

end Encoded

end LedgerOne
