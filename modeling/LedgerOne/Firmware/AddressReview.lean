import LedgerOne.Firmware.Composing
import LedgerOne.Firmware.Main

/-!
# The review of the account's address

What the comparison screen of the Nano S holds, whatever the user presses.  Its
strings, its index and its window lie in the buffer of the signing commands.
-/

namespace LedgerOne

/-- The comparison screen scrolls through the address. -/
structure Ctx.ComparesOwn (text : List UInt8) (ctx : Ctx .nanoS) : Prop where
  holds : ctx.buf.Holds GetPublicKey.fullStr 42 text
  inside : (ctx.buf.get GetPublicKey.displayIndex).toNat + 12 ≤ text.length
  window : ctx.buf.Holds GetPublicKey.partialStr 13
    (windowOn text (ctx.buf.get GetPublicKey.displayIndex).toNat 12)

/-- What holds on each screen of the review of the address. -/
def AddressStage (env : Env) (ctx : Ctx .nanoS) : Screen -> Prop
  | .getPublicKeyCompare => ctx.ComparesOwn (addressText env.ethAddress)
  | .getPublicKeyApprove | .idle => True
  | _ => False

section Presses

variable (env : Env) {ctx : Ctx .nanoS} (io : Region 260)

/-- The window at another index. -/
theorem Ctx.ComparesOwn.moved {text : List UInt8}
    (compares : ctx.ComparesOwn text) (index : UInt8)
    (inside : index.toNat + 12 ≤ text.length) :
    (moveWindow index ctx).ComparesOwn text := by
  have fits := compares.holds.fits
  let indexed := ctx.buf.splice GetPublicKey.displayIndex [index]
  have holds : indexed.Holds GetPublicKey.fullStr 42 text :=
    compares.holds.frame _ _ (Or.inr (show 0 + 1 ≤ 81 by decide))
  have ends : indexed.get (GetPublicKey.partialStr + 12) = 0 := by
    refine (Region.get_splice_of_disjoint _ _ _
      (Or.inr (show 0 + 1 ≤ 170 by decide))).trans ?_
    rw [compares.window.bytes 12 (by decide), getD_windowOn,
      if_neg (by decide)]
  have twelve := Region.length_read indexed
    (GetPublicKey.fullStr + index.toNat) 12
  have stored : (moveWindow index ctx).buf.get GetPublicKey.displayIndex =
      index := by
    refine (Region.get_splice_of_disjoint _ _ _ (Or.inl (by decide))).trans ?_
    rw [Region.get_splice _ _ _ _ (by decide)]
    exact if_pos ⟨le_rfl, Nat.lt_succ_self _⟩
  refine ⟨holds.frame _ _ (by rw [twelve]; decide), ?_, ?_⟩
  · rwa [stored]
  · rw [stored]
    exact holds.window (by omega) (by decide) ends

/-- Scrolling through the address. -/
theorem getPublicKeyCompare_step
    (compares : ctx.ComparesOwn (addressText env.ethAddress))
    (press : Press) :
    AddressStage env
      (getPublicKeyCompareButton ⟨ctx, .getPublicKeyCompare, io⟩
        press).device.ctx
      (getPublicKeyCompareButton ⟨ctx, .getPublicKeyCompare, io⟩
        press).device.screen := by
  have length := length_addressText env.ethAddress
  have inside := compares.inside
  cases press with
  | seekLeft =>
      refine compares.moved _ ?_
      have left := ({ displayIndex := ctx.buf.get GetPublicKey.displayIndex } :
        Display .nanoS).leftIndex_le
      unfold Display.leftIndex at left
      dsimp only at left ⊢
      omega
  | seekRight =>
      refine compares.moved _ ?_
      have right := ({ displayIndex := ctx.buf.get GetPublicKey.displayIndex } :
        Display .nanoS).rightIndex_le (MAX_ONE_ADDRESS - 12)
        (show MAX_ONE_ADDRESS - 12 ≤ 30 by decide)
        (show (ctx.buf.get GetPublicKey.displayIndex).toNat ≤ 30 by omega)
      unfold Display.rightIndex at right
      dsimp only at right ⊢
      omega
  | releasedBoth => trivial
  | _ => exact compares

/-- The address in `G_io_apdu_buffer` is shown from its start on. -/
theorem comparesOwn_compareAddress (device : Device .nanoS)
    {text : List UInt8} (length : text.length = 42)
    (fetched : device.io.read 0 MAX_ONE_ADDRESS = text) :
    device.compareAddress.ComparesOwn text ∧
      device.compareAddress.buf.get GetPublicKey.displayIndex = 0 := by
  let titled := device.ctx.buf.splice GetPublicKey.typeStr
    (ascii "Compare:" ++ [0])
  let filled := titled.splice GetPublicKey.fullStr (text ++ [0])
  let bytes := filled.read GetPublicKey.fullStr 12
  have twelve : bytes.length = 12 := Region.length_read _ _ _
  let shown := filled.splice GetPublicKey.partialStr (bytes ++ [0])
  have buf : device.compareAddress.buf =
      shown.splice GetPublicKey.displayIndex [0] := by
    unfold Device.compareAddress
    dsimp only
    rw [fetched]
  have holds : filled.Holds GetPublicKey.fullStr 42 text :=
    .overwritten titled 1 (by omega) (by omega) (by decide)
  have windowed : shown.Holds GetPublicKey.partialStr 13
      (windowOn text 0 12) := by
    have ended := holds.windowEnded (show 0 + 12 ≤ 42 by decide)
      (show GetPublicKey.partialStr + 12 < 1024 by decide)
    have joined := filled.splice_append GetPublicKey.partialStr bytes [0]
    rw [twelve] at joined
    rwa [Nat.add_zero, joined] at ended
  have kept : shown.Holds GetPublicKey.fullStr 42 text :=
    holds.frame _ _ (Or.inl (by decide))
  have start : device.compareAddress.buf.get GetPublicKey.displayIndex =
      0 := by
    rw [buf, Region.get_splice _ _ _ _ (by decide), if_pos (by decide)]
    rfl
  refine ⟨⟨?_, ?_, ?_⟩, start⟩
  · rw [buf]
    exact kept.frame _ _ (Or.inr (by decide))
  · rw [start, length]
    decide
  · rw [start, buf]
    exact windowed.frame _ _ (Or.inr (by decide))

/-- Asking for the address shows its start. -/
theorem getPublicKeyApprove_step (ctx : Ctx .nanoS) (press : Press) :
    let outcome := getPublicKeyApproveButton env
      ⟨ctx, .getPublicKeyApprove, io⟩ press
    AddressStage env outcome.device.ctx outcome.device.screen ∧
      (outcome.device.screen = .getPublicKeyCompare ->
        outcome.device.ctx.buf.get GetPublicKey.displayIndex = 0) := by
  cases press with
  | releasedRight =>
      let text := addressText env.ethAddress
      have length : text.length = 42 := length_addressText _
      let fetched := io.splice 0 (text ++ [0])
      have address : getOneAddress env ⟨ctx, .getPublicKeyApprove, io⟩ =
          ⟨ctx, .getPublicKeyApprove, fetched⟩ := by
        rw [getOneAddress, bech32GetAddress_toList]
      have reads : (fetched.splice 42 [UInt8.ofNat (SW_OK / 2 ^ 8),
          UInt8.ofNat SW_OK]).read 0 MAX_ONE_ADDRESS = text := by
        rw [Region.read_splice_of_disjoint _ _ _ _ _ (Or.inl (by decide))]
        have room : (text ++ [0]).length = 43 := by
          rw [List.length_append, length]
          rfl
        exact (io.take_read_splice 0 (text ++ [0]) 42 (by omega)
          (by omega)).trans (List.take_left' length)
      dsimp only [getPublicKeyApproveButton, getPublicKey]
      rw [address]
      have compares := comparesOwn_compareAddress
        ⟨ctx, .getPublicKeyApprove, _⟩ length reads
      exact ⟨compares.1, fun _ => compares.2⟩
  | releasedLeft => exact ⟨trivial, fun other => by cases other⟩
  | _ => exact ⟨trivial, fun other => by cases other⟩

end Presses

end LedgerOne
