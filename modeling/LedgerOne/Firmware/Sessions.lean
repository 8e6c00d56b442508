import LedgerOne.Decoder.Start
import LedgerOne.Firmware.Agreement

/-!
# Sessions

The packets of one message: the first one carries `P1_FIRST` and the last one
`P2_FINISH`.  Whatever the device did before, a session hands its parser the
data of its packets, one after the other, with a fresh parser context.
-/

namespace LedgerOne

namespace Signing

/-- The packets of a session with more to come. -/
inductive Opens (signing : Signing) : List Apdu -> Prop
  | first {apdu : Apdu} (addressed : apdu.signing = some signing)
      (first : apdu.p1 = P1_FIRST) (more : apdu.p2 ≠ P2_FINISH) :
      Opens signing [apdu]
  | next {front : List Apdu} {apdu : Apdu} (opens : Opens signing front)
      (addressed : apdu.signing = some signing)
      (later : apdu.p1 ≠ P1_FIRST) (more : apdu.p2 ≠ P2_FINISH) :
      Opens signing (front ++ [apdu])

/-- The packets of a session and its last one. -/
inductive Session (signing : Signing) : List Apdu -> Apdu -> Prop
  | single {last : Apdu} (addressed : last.signing = some signing)
      (first : last.p1 = P1_FIRST) (finish : last.p2 = P2_FINISH) :
      Session signing [] last
  | several {front : List Apdu} {last : Apdu} (opens : Opens signing front)
      (addressed : last.signing = some signing)
      (later : last.p1 ≠ P1_FIRST) (finish : last.p2 = P2_FINISH) :
      Session signing front last

theorem Opens.more {signing : Signing} {front : List Apdu}
    (opens : signing.Opens front) :
    ∀ apdu ∈ front, apdu.p2 ≠ P2_FINISH := by
  induction opens with
  | first _ _ more => simpa using more
  | next _ _ _ more inductionHypothesis =>
      intro other member
      obtain earlier | last := List.mem_append.mp member
      · exact inductionHypothesis other earlier
      · exact List.mem_singleton.mp last ▸ more

section Session

variable {signing : Signing} {front : List Apdu} {last : Apdu}
  (session : signing.Session front last)

include session

/-- Only the last packet of a session finishes its message. -/
theorem Session.more : ∀ apdu ∈ front, apdu.p2 ≠ P2_FINISH := by
  cases session with
  | single => simp
  | several opens => exact opens.more

theorem Session.addressed : last.signing = some signing := by
  cases session with
  | single addressed => exact addressed
  | several _ addressed => exact addressed

theorem Session.finish : last.p2 = P2_FINISH := by
  cases session with
  | single _ _ finish => exact finish
  | several _ _ _ finish => exact finish

end Session

/-- The context on which a fresh session calls its parser. -/
def start (signing : Signing) (length : Nat) : TxContext :=
  match signing with
  | .tx => transferStart length
  | .staking => stakingStart length

theorem parserContext_fresh (signing : Signing) (length : Nat) :
    signing.parserContext { workBuffer := some 0 } length =
      signing.start length := by
  cases signing <;> rfl

end Signing

/-- The bytes of the packets. -/
def messageOf (apdus : List Apdu) : List UInt8 := apdus.flatMap Apdu.data

@[simp] theorem messageOf_concat (front : List Apdu) (apdu : Apdu) :
    messageOf (front ++ [apdu]) = messageOf front ++ apdu.data := by
  simp [messageOf]

/-- The context holds bytes of a message that no parser has seen. -/
structure Ctx.Gathers (bytes : List UInt8) (ctx : Ctx build) : Prop where
  buf : ctx.buf = Region.ofList bytes
  length : ctx.length = bytes.length
  txContext : ctx.txContext = { workBuffer := some 0 }

/-- The strings of the instruction are as `P1_FIRST` leaves them. -/
def Signing.Blank (signing : Signing) (ctx : Ctx build) : Prop :=
  ctx.display.Agrees (signing.size build)
    { strings := Region.zero.splice (signing.initialized build) [1] }

section Packets

variable {signing : Signing} {apdu : Apdu} {ctx : Ctx build}
  {bytes : List UInt8}

theorem gathers_opened_first (first : apdu.p1 = P1_FIRST) :
    (signing.opened apdu ctx).Gathers [] := by
  rw [Signing.opened, if_pos first]
  refine ⟨?_, rfl, rfl⟩
  show Region.zero = Region.zero.splice 0 []
  rw [Region.splice_nil]

theorem Signing.gathers_opened_later (signing : Signing)
    (later : apdu.p1 ≠ P1_FIRST)
    (gathers : ctx.Gathers bytes) :
    (signing.opened apdu ctx).Gathers bytes := by
  rwa [Signing.opened, if_neg later]

theorem fits_of_gathers (gathers : (signing.opened apdu ctx).Gathers bytes)
    (fits : (bytes ++ apdu.data).length ≤ 1020) :
    ¬signing.Refused apdu ctx := by
  show ¬255 * 4 < (signing.opened apdu ctx).length + apdu.data.length
  rw [gathers.length]
  simp only [List.length_append] at fits
  omega

theorem gathers_collected
    (gathers : (signing.opened apdu ctx).Gathers bytes) :
    (signing.collected apdu ctx).Gathers (bytes ++ apdu.data) where
  buf := by
    show (signing.opened apdu ctx).buf.splice
      (signing.opened apdu ctx).length apdu.data = _
    rw [gathers.buf, gathers.length, Region.splice_ofList]
  length := by
    show (signing.opened apdu ctx).length + apdu.data.length = _
    rw [gathers.length, List.length_append]
  txContext := gathers.txContext

theorem blank_opened_first (first : apdu.p1 = P1_FIRST) :
    signing.Blank (signing.opened apdu ctx) := by
  rw [Signing.Blank, Signing.opened, if_pos first]
  refine ⟨rfl, ?_⟩
  intro position inside
  dsimp only [Ctx.clearFor]
  by_cases within : position < build.stringsSize
  · rw [Region.get_splice _ _ _ _ within, Region.get_splice _ _ _ _ within,
      Region.get_splice _ _ _ _ within]
    have cleared : 0 ≤ position ∧ position <
        0 + (List.replicate (signing.size build) (0 : UInt8)).length := by
      rw [List.length_replicate]
      omega
    rw [if_pos cleared]
    simp
  · simp [Region.get, within]

theorem Signing.blank_opened_later (later : apdu.p1 ≠ P1_FIRST)
    (blank : signing.Blank ctx) :
    signing.Blank (signing.opened apdu ctx) := by
  rwa [Signing.opened, if_neg later]

theorem Signing.blank_collected (signing : Signing)
    (blank : signing.Blank (signing.opened apdu ctx)) :
    signing.Blank (signing.collected apdu ctx) :=
  blank

/-- A review starts on zeroed strings. -/
theorem display_finished (blank : signing.Blank (signing.opened apdu ctx)) :
    (signing.finished apdu ctx).display.Agrees (signing.size build) {} := by
  refine ⟨blank.displayIndex, ?_⟩
  intro position inside
  have same := blank.strings position inside
  dsimp only [Signing.finished]
  by_cases within : position < build.stringsSize
  · rw [Region.get_splice _ _ _ _ within, List.length_singleton] at same ⊢
    by_cases flag : signing.initialized build ≤ position ∧
        position < signing.initialized build + 1
    · rw [if_pos flag, Region.get_zero,
        show position - signing.initialized build = 0 by omega]
      rfl
    · rw [if_neg flag] at same ⊢
      exact same
  · simp [Region.get, within]

/-- The context on which the parser of a session is called. -/
structure Ctx.Presents (signing : Signing) (bytes : List UInt8)
    (ctx : Ctx build) : Prop where
  buf : ctx.buf = Region.ofList bytes
  length : ctx.length = bytes.length
  txContext : ctx.txContext = signing.start bytes.length

theorem presents_finished
    (gathers : (signing.opened apdu ctx).Gathers bytes) :
    (signing.finished apdu ctx).Presents signing (bytes ++ apdu.data) := by
  have collected := gathers_collected gathers
  refine ⟨collected.buf, collected.length, ?_⟩
  show signing.parserContext (signing.collected apdu ctx).txContext
    (signing.collected apdu ctx).length = _
  rw [collected.txContext, collected.length, signing.parserContext_fresh]

/-- A presented message was not refused. -/
theorem fits_of_presents
    (presents : (signing.finished apdu ctx).Presents signing bytes)
    (fits : bytes.length ≤ 1020) : ¬signing.Refused apdu ctx := by
  have length : (signing.opened apdu ctx).length + apdu.data.length =
      bytes.length := presents.length
  show ¬255 * 4 < (signing.opened apdu ctx).length + apdu.data.length
  omega

theorem message_of_presents {signing : Signing}
    (presents : ctx.Presents signing bytes) (fits : bytes.length ≤ 1024) :
    ctx.message = bytes := by
  rw [Ctx.message, presents.buf, presents.length]
  exact Region.read_splice_self _ _ _ (by omega)

end Packets

section Runs

variable (env : Env) {signing : Signing} (device : Device build)
  {front : List Apdu} {last : Apdu}

/-- The packets before the last one are collected. -/
theorem run_opens (opens : signing.Opens front)
    (fits : (messageOf front).length ≤ 1020) :
    ∃ opened replies,
      (firmware env build).run (front.map .apdu) device =
          .ok (opened, replies) ∧
        opened.ctx.Gathers (messageOf front) ∧
        signing.Blank opened.ctx ∧
        opened.screen = device.screen := by
  induction opens with
  | first addressed first more =>
      rename_i apdu
      have opened : (signing.opened apdu device.ctx).Gathers [] :=
        gathers_opened_first first
      have collects := step_collected env addressed
        (fits_of_gathers opened (by simpa [messageOf] using fits)) more
      have nothing : (firmware env build).run [] device = .ok (device, []) :=
        rfl
      refine ⟨_, _, Machine.run_concat nothing collects, ?_, ?_, ?_⟩
      · simpa [Device.throw, messageOf] using gathers_collected opened
      · simpa [Device.throw] using
          signing.blank_collected (blank_opened_first first)
      · simp [Device.throw]
  | next opens addressed later more inductionHypothesis =>
      rename_i front apdu
      rw [messageOf_concat] at fits ⊢
      obtain ⟨before, replies, runs, gathers, blank, screen⟩ :=
        inductionHypothesis (by simp at fits; omega)
      have opened : (signing.opened apdu before.ctx).Gathers
          (messageOf front) := signing.gathers_opened_later later gathers
      have collects := step_collected env addressed
        (fits_of_gathers opened fits) more
      rw [List.map_append]
      refine ⟨_, _, Machine.run_concat runs collects, ?_, ?_, ?_⟩
      · simpa [Device.throw] using gathers_collected opened
      · simpa [Device.throw] using
          signing.blank_collected (signing.blank_opened_later later blank)
      · simpa [Device.throw] using screen

/-- The last packet hands the message to what follows on it. -/
theorem run_session (session : signing.Session front last)
    (fits : (messageOf (front ++ [last])).length ≤ 1020) :
    ∃ opened replies,
      (firmware env build).run (front.map .apdu) device =
          .ok (opened, replies) ∧
        opened.screen = device.screen ∧
        (signing.finished last opened.ctx).Presents signing
          (messageOf (front ++ [last])) ∧
        (signing.finished last opened.ctx).display.Agrees
          (signing.size build) {} ∧
        (firmware env build).step opened (.apdu last) =
          (signing.review env (opened.received last)
            (signing.finished last opened.ctx)).map Outcome.caught := by
  rw [messageOf_concat] at fits ⊢
  cases session with
  | single addressed first finish =>
      have opened : (signing.opened last device.ctx).Gathers [] :=
        gathers_opened_first first
      exact ⟨device, [], rfl, rfl, presents_finished opened,
        display_finished (blank_opened_first first),
        step_finished addressed (fits_of_gathers opened fits) finish⟩
  | several opens addressed later finish =>
      obtain ⟨before, replies, runs, gathers, blank, screen⟩ :=
        run_opens env device opens (by simp at fits; omega)
      have opened := signing.gathers_opened_later later gathers
      exact ⟨before, replies, runs, screen, presents_finished opened,
        display_finished (signing.blank_opened_later later blank),
        step_finished addressed (fits_of_gathers opened fits) finish⟩

end Runs

end LedgerOne
