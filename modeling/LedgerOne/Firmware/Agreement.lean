import LedgerOne.Firmware.Requests
import LedgerOne.Lib.Relates

/-!
# Reviews on two devices

A review depends on the message and on the strings of its own context only: on
two devices that agree in these it does the same.  What the union of the
contexts holds behind them does not matter.
-/

namespace LedgerOne

/-- Two displays whose first strings are the same. -/
structure Display.Agrees (count : Nat) (left right : Display build) :
    Prop where
  displayIndex : left.displayIndex = right.displayIndex
  strings : ∀ position < count,
    left.strings.get position = right.strings.get position

/-- Two contexts with the same message, parser context and first strings. -/
structure Ctx.Agrees (count : Nat) (left right : Ctx build) : Prop where
  display : left.display.Agrees count right.display
  buf : left.buf = right.buf
  length : left.length = right.length
  txContext : left.txContext = right.txContext

/-- Two handlers that end in the same way. -/
structure Outcome.Agrees (count : Nat) (left right : Outcome build) :
    Prop where
  ctx : left.device.ctx.Agrees count right.device.ctx
  thrown : left.thrown = right.thrown
  effects : left.effects = right.effects
  screen : left.thrown = none -> left.device.screen = right.device.screen

/-! ## Displays -/

section Displays

variable {count : Nat} {left right : Display build}

theorem Display.Agrees.refl (count : Nat) (display : Display build) :
    display.Agrees count display :=
  ⟨rfl, fun _ _ => rfl⟩

/-- Displays that agree with the same one. -/
theorem Display.Agrees.both {shared : Display build}
    (first : left.Agrees count shared) (second : right.Agrees count shared) :
    left.Agrees count right where
  displayIndex := first.displayIndex.trans second.displayIndex.symm
  strings position inside := (first.strings position inside).trans
    (second.strings position inside).symm

/-- Displays that agree in all strings are the same. -/
theorem Display.Agrees.eq (agrees : left.Agrees count right)
    (whole : build.stringsSize ≤ count) : left = right := by
  obtain ⟨index, strings⟩ := left
  obtain ⟨other, others⟩ := right
  have same : strings = others := Region.ext_get fun position inside =>
    agrees.strings position (by omega)
  rw [same, show index = other from agrees.displayIndex]

/-- Storing the same bytes. -/
theorem Display.Agrees.write (agrees : left.Agrees count right)
    (offset : Nat) (bytes : List UInt8) :
    Relates (Display.Agrees count) (left.write offset bytes)
      (right.write offset bytes) := by
  unfold Display.write Region.write?
  by_cases fits : offset + bytes.length ≤ build.stringsSize
  · rw [if_pos fits, if_pos fits]
    apply Relates.ok
    refine ⟨agrees.displayIndex, ?_⟩
    intro position inside
    dsimp only
    by_cases within : position < build.stringsSize
    · rw [Region.get_splice _ _ _ _ within, Region.get_splice _ _ _ _ within,
        agrees.strings position inside]
    · simp [Region.get, within]
  · rw [if_neg fits, if_neg fits]
    exact Relates.error _

theorem Display.Agrees.writeAddress (agrees : left.Agrees count right)
    (offset : Nat) (address : Region 20) :
    Relates (Display.Agrees count) (left.writeAddress offset address)
      (right.writeAddress offset address) := by
  unfold Display.writeAddress
  split
  · exact Relates.ok agrees
  · exact agrees.write _ _

/-- The same conversion on both. -/
theorem Display.Agrees.writeAmount (agrees : left.Agrees count right)
    (offset : Nat) (lengthAt : Option Nat) (int : TxInt256) :
    Relates
      (fun one other => Display.Agrees count one.1 other.1 ∧ one.2 = other.2)
      (left.writeAmount offset lengthAt int)
      (right.writeAmount offset lengthAt int) := by
  unfold Display.writeAmount
  apply Relates.bind_same
  intro numberBuf
  apply Relates.bind_same
  intro conversion
  apply Relates.bind
  · apply Relates.foldlM _ agrees
    rintro left right ⟨position, bytes⟩ agrees
    exact agrees.write _ _
  · intro left right agrees
    split
    · apply Relates.bind (agrees.write _ _)
      intro left right agrees
      exact Relates.pure ⟨agrees, rfl⟩
    · exact Relates.pure ⟨agrees, rfl⟩

theorem Display.Agrees.assignShardString (agrees : left.Agrees count right)
    (content : TxContent) :
    Relates (Display.Agrees count) (assignShardString content left)
      (LedgerOne.assignShardString content right) :=
  agrees.write _ _

end Displays

/-! ## Handlers -/

section Handlers

variable {count : Nat} {left right : Ctx build}
  (device other : Device build)

theorem Ctx.Agrees.proceed (agrees : left.Agrees count right)
    (screen : Screen) :
    (device.proceed left screen).Agrees count (other.proceed right screen) :=
  ⟨agrees, rfl, rfl, fun _ => rfl⟩

theorem Ctx.Agrees.throw (agrees : left.Agrees count right) (code : Nat) :
    (device.throw left code).Agrees count (other.throw right code) :=
  ⟨agrees, rfl, rfl, fun quiet => by cases quiet⟩

/-- One context on two displays. -/
theorem Display.Agrees.within {display shown : Display build}
    (displays : display.Agrees count shown) (ctx : Ctx build) :
    ({ ctx with display := display } : Ctx build).Agrees count
      { ctx with display := shown } :=
  ⟨displays, rfl, rfl, rfl⟩

/-- Contexts that agree differ in their displays only. -/
theorem Ctx.Agrees.eq_within (agrees : left.Agrees count right) :
    ∃ display, Display.Agrees count display right.display ∧
      left = { right with display := display } := by
  refine ⟨left.display, agrees.display, ?_⟩
  rw [← agrees.buf, ← agrees.length, ← agrees.txContext]

theorem Ctx.Agrees.processTx (agrees : left.Agrees count right) :
    Relates
      (fun one two => one.1 = two.1 ∧ Ctx.Agrees count one.2 two.2)
      left.processTx right.processTx := by
  unfold Ctx.processTx
  rw [agrees.buf, agrees.txContext]
  apply Relates.bind_same
  rintro ⟨code, txContext⟩
  exact Relates.pure ⟨rfl, agrees.display, rfl, agrees.length, rfl⟩

theorem Ctx.Agrees.processStaking (agrees : left.Agrees count right) :
    Relates
      (fun one two => one.1 = two.1 ∧ Ctx.Agrees count one.2 two.2)
      left.processStaking right.processStaking := by
  unfold Ctx.processStaking
  rw [agrees.buf, agrees.txContext]
  apply Relates.bind_same
  rintro ⟨code, txContext⟩
  exact Relates.pure ⟨rfl, agrees.display, rfl, agrees.length, rfl⟩

end Handlers

/-! ## Reviews -/

theorem Ctx.Agrees.reviewTxNanoX {count : Nat} {left right : Ctx .nanoX}
    (agrees : left.Agrees count right) (env : Env)
    (device other : Device .nanoX) :
    Relates (Outcome.Agrees count) (reviewTxNanoX env device left)
      (LedgerOne.reviewTxNanoX env other right) := by
  apply Relates.bind agrees.processTx
  rintro ⟨code, left⟩ ⟨same, right⟩ ⟨rfl, agrees⟩
  dsimp only at agrees ⊢
  obtain ⟨shown, display, rfl⟩ := agrees.eq_within
  apply Relates.bind (display.writeAddress _ _)
  intro one two displays
  apply Relates.bind (displays.writeAmount _ _ _)
  rintro ⟨one, conversion⟩ ⟨two, same⟩ ⟨displays, rfl⟩
  dsimp only at displays ⊢
  apply Relates.ite
  · intro _
    exact Relates.pure ((displays.within right).throw _ _ _)
  · intro _
    apply Relates.bind (displays.assignShardString _)
    intro one two displays
    exact Relates.pure ((displays.within right).proceed _ _ _)

theorem Ctx.Agrees.reviewTx {count : Nat} {left right : Ctx build}
    (agrees : left.Agrees count right) (env : Env)
    (device other : Device build) :
    Relates (Outcome.Agrees count) (reviewTx env build device left)
      (LedgerOne.reviewTx env build other right) := by
  cases build with
  | nanoS =>
      obtain ⟨shown, display, rfl⟩ := agrees.eq_within
      apply Relates.bind (display.write _ _)
      intro one two displays
      exact Relates.pure ((displays.within right).proceed _ _ _)
  | nanoX => exact agrees.reviewTxNanoX env device other

theorem Display.Agrees.showStatusNanoS {count : Nat}
    {left right : Display .nanoS} (agrees : left.Agrees count right)
    (content : TxContent) :
    Relates (Display.Agrees count) (showStatusNanoS content left)
      (LedgerOne.showStatusNanoS content right) := by
  unfold LedgerOne.showStatusNanoS
  apply Relates.ite
  · intro _
    exact agrees.write _ _
  · intro _
    exact agrees.write _ _

theorem Ctx.Agrees.reviewStakingNanoS {count : Nat} {left right : Ctx .nanoS}
    (agrees : left.Agrees count right) (device other : Device .nanoS) :
    Relates (Outcome.Agrees count) (reviewStakingNanoS device left)
      (LedgerOne.reviewStakingNanoS other right) := by
  obtain ⟨shown, display, rfl⟩ := agrees.eq_within
  apply Relates.bind (Display.Agrees.showStatusNanoS display _)
  · intro one two displays
    exact Relates.pure ((displays.within right).proceed _ _ _)

/-- The strings of a staking operation are all there is on the Nano X. -/
theorem Ctx.Agrees.reviewStakingNanoX {count : Nat} {left right : Ctx .nanoX}
    (agrees : left.Agrees count right)
    (enough : SignStaking.size .nanoX ≤ count) (env : Env)
    (device other : Device .nanoX) :
    Relates (Outcome.Agrees count)
      (reviewStakingNanoX env device left)
      (LedgerOne.reviewStakingNanoX env other right) := by
  obtain ⟨shown, display, rfl⟩ := agrees.eq_within
  obtain rfl := display.eq enough
  apply Relates.bind_same
  intro cleared
  apply Relates.bind_same
  rintro ⟨display, composed⟩
  dsimp only
  apply Relates.ite
  · intro _
    exact Relates.pure ((Display.Agrees.within (.refl _ _) right).throw _ _ _)
  · intro _
    apply Relates.bind_same
    intro named
    apply Relates.bind_same
    intro display
    exact Relates.pure ((Display.Agrees.within (.refl _ _) right).proceed _ _ _)

theorem Ctx.Agrees.reviewStaking {count : Nat} {left right : Ctx build}
    (agrees : left.Agrees count right)
    (enough : SignStaking.size build ≤ count) (env : Env)
    (device other : Device build) :
    Relates (Outcome.Agrees count)
      (reviewStaking env build device left)
      (LedgerOne.reviewStaking env build other right) := by
  cases build with
  | nanoS => exact agrees.reviewStakingNanoS device other
  | nanoX => exact agrees.reviewStakingNanoX enough env device other

theorem Ctx.Agrees.parseStaking {count : Nat} {left right : Ctx build}
    (agrees : left.Agrees count right)
    (enough : SignStaking.size build ≤ count) (env : Env)
    (device other : Device build) :
    Relates (Outcome.Agrees count)
      (parseStaking env device left)
      (LedgerOne.parseStaking env other right) := by
  apply Relates.bind agrees.processStaking
  rintro ⟨code, left⟩ ⟨same, right⟩ ⟨rfl, agrees⟩
  dsimp only at agrees ⊢
  obtain ⟨shown, display, rfl⟩ := agrees.eq_within
  apply Relates.ite
  · intro _
    exact Relates.pure (agrees.throw _ _ _)
  · intro _
    dsimp only [Ctx.txContent]
    split
    · exact Relates.pure (agrees.throw _ _ _)
    · apply Relates.bind (display.write _ _)
      intro one two displays
      exact (displays.within right).reviewStaking enough env device other

/-- The review of a message on two devices. -/
theorem Signing.review_agrees (signing : Signing) {count : Nat}
    {left right : Ctx build} (agrees : left.Agrees count right)
    (enough : signing.size build ≤ count) (env : Env)
    (device other : Device build) :
    Relates (Outcome.Agrees count)
      (signing.review env device left) (signing.review env other right) := by
  cases signing with
  | tx => exact agrees.reviewTx env device other
  | staking => exact agrees.parseStaking enough env device other

end LedgerOne
