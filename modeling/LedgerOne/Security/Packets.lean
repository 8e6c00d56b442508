import LedgerOne.Firmware.Sessions

/-!
# Packet boundaries

What a session ends with depends on its message only, neither on the way the
message is cut into packets nor on what the device did before.  A message that
is too long meets a packet that is refused.
-/

namespace LedgerOne

/-- A session has led to a device on which its last packet starts the review
of the message. -/
structure Signing.Delivers (signing : Signing) (env : Env)
    (front : List Apdu) (last : Apdu) (device opened : Device build) :
    Prop where
  runs : ∃ replies, (firmware env build).run (front.map .apdu) device =
    .ok (opened, replies)
  message : (signing.finished last opened.ctx).message =
    messageOf (front ++ [last])
  reviews : (firmware env build).step opened (.apdu last) =
    (signing.review env (opened.received last)
      (signing.finished last opened.ctx)).map Outcome.caught

/-- Two devices after their last packets: the message is in both buffers, and
the parser contexts, the strings and the replies are the same. -/
structure Signing.SameEnd (signing : Signing) (message : List UInt8)
    (one two : Device build × List Effect) : Prop where
  first : one.1.ctx.message = message
  second : two.1.ctx.message = message
  ctx : one.1.ctx.Agrees (signing.size build) two.1.ctx
  replies : one.2 = two.2

/-- A packet is refused for its length, and leaves the buffer alone. -/
def RefusesSome (env : Env) (device : Device build) (packets : List Apdu) :
    Prop :=
  ∃ before apdu after opened replies refused,
    packets = before ++ apdu :: after ∧
    (firmware env build).run (before.map .apdu) device =
      .ok (opened, replies) ∧
    (firmware env build).step opened (.apdu apdu) =
      .ok (refused, [.respond [] (statusOf env.exceptionOverflow)]) ∧
    refused.ctx.buf = opened.ctx.buf ∧
    refused.ctx.length = opened.ctx.length

section Delivery

variable (env : Env) {signing : Signing} {front : List Apdu} {last : Apdu}

/-- A session delivers its message, on a fresh context. -/
theorem delivers_session (session : signing.Session front last)
    (fits : (messageOf (front ++ [last])).length ≤ 1020)
    (device : Device build) :
    ∃ opened, signing.Delivers env front last device opened ∧
      (signing.finished last opened.ctx).Presents signing
        (messageOf (front ++ [last])) ∧
      (signing.finished last opened.ctx).display.Agrees
        (signing.size build) {} := by
  obtain ⟨opened, replies, runs, screen, presents, display, steps⟩ :=
    run_session env device session fits
  have message := message_of_presents presents (by omega)
  exact ⟨opened, ⟨⟨replies, runs⟩, message, steps⟩, presents, display⟩

/-- The message stays in the buffer during its review. -/
theorem message_review (device : Device build) {ctx : Ctx build} :
    Ensures (signing.review env device ctx) fun outcome =>
      outcome.device.ctx.message = ctx.message := by
  apply (signing.raises_review env device ctx).mono
  · intro outcome raises
    rw [Ctx.message, Ctx.message, raises.buf, raises.length]
  · exact fun _ _ => trivial

/-- Handlers that end in the same way are answered in the same way. -/
theorem sameEnd_caught {message : List UInt8} {one two : Outcome build}
    (agrees : one.Agrees (signing.size build) two)
    (first : one.device.ctx.message = message)
    (second : two.device.ctx.message = message) :
    signing.SameEnd message one.caught two.caught where
  first := by rwa [caught_ctx]
  second := by rwa [caught_ctx]
  ctx := by
    rw [caught_ctx, caught_ctx]
    exact agrees.ctx
  replies := by
    unfold Outcome.caught
    rw [agrees.thrown, agrees.effects]
    cases two.thrown <;> rfl

/-- Reviews of one message on two fresh contexts end alike. -/
theorem reviews_sameEnd {message : List UInt8} {left right : Ctx build}
    (device other : Device build)
    (first : left.Presents signing message)
    (second : right.Presents signing message)
    (display : left.display.Agrees (signing.size build) right.display)
    (fits : message.length ≤ 1020) :
    Relates (signing.SameEnd message)
      ((signing.review env device left).map Outcome.caught)
      ((signing.review env other right).map Outcome.caught) := by
  have agrees : left.Agrees (signing.size build) right :=
    ⟨display, first.buf.trans second.buf.symm,
      first.length.trans second.length.symm,
      first.txContext.trans second.txContext.symm⟩
  have reviewed := (signing.review_agrees agrees le_rfl env device other).ensures
    (message_review env device) (message_review env other)
  apply reviewed.map
  rintro one two ⟨same, kept, keptToo⟩
  exact sameEnd_caught same
    (kept.trans (message_of_presents first (by omega)))
    (keptToo.trans (message_of_presents second (by omega)))

end Delivery

/-! ## Messages that are too long -/

section Refusal

variable (env : Env) {signing : Signing} {front : List Apdu} {apdu : Apdu}

/-- The first packet that exceeds the limit. -/
theorem refusesSome_next (opens : signing.Opens front)
    (fits : (messageOf front).length ≤ 1020)
    (addressed : apdu.signing = some signing) (later : apdu.p1 ≠ P1_FIRST)
    (exceeds : 1020 < (messageOf (front ++ [apdu])).length)
    (device : Device build) : RefusesSome env device (front ++ [apdu]) := by
  obtain ⟨opened, replies, runs, gathers, blank, screen⟩ :=
    run_opens env device opens fits
  have same : signing.opened apdu opened.ctx = opened.ctx := by
    rw [Signing.opened, if_neg later]
  have tooLong : signing.Refused apdu opened.ctx := by
    rw [messageOf_concat, List.length_append] at exceeds
    show 255 * 4 < (signing.opened apdu opened.ctx).length + apdu.data.length
    rw [same, gathers.length]
    omega
  have refuses : (firmware env build).step opened (.apdu apdu) = _ :=
    step_refused addressed tooLong
  refine ⟨front, apdu, [], opened, replies, _, rfl, runs, refuses, ?_, ?_⟩
  · simp [Device.throw, same]
  · simp [Device.throw, same]

/-- Later packets do not take a refusal back. -/
theorem RefusesSome.append {device : Device build} {packets : List Apdu}
    (refuses : RefusesSome env device packets) (more : List Apdu) :
    RefusesSome env device (packets ++ more) := by
  obtain ⟨before, apdu, after, opened, replies, refused, rfl, rest⟩ := refuses
  exact ⟨before, apdu, after ++ more, opened, replies, refused, by simp, rest⟩

/-- A long message is refused while it is collected. -/
theorem refusesSome_opens (opens : signing.Opens front)
    (exceeds : 1020 < (messageOf front).length) (device : Device build) :
    RefusesSome env device front := by
  induction opens with
  | first addressed first more =>
      rename_i apdu
      have short := apdu.length_data
      simp [messageOf] at exceeds
      omega
  | next opens addressed later more inductionHypothesis =>
      rename_i front apdu
      by_cases fits : (messageOf front).length ≤ 1020
      · exact refusesSome_next env opens fits addressed later exceeds device
      · exact (inductionHypothesis (not_le.mp fits)).append env [apdu]

/-- A long message is refused at its last packet if not before. -/
theorem refusesSome_session {last : Apdu}
    (session : signing.Session front last)
    (exceeds : 1020 < (messageOf (front ++ [last])).length)
    (device : Device build) : RefusesSome env device (front ++ [last]) := by
  cases session with
  | single addressed first finish =>
      have short := last.length_data
      simp [messageOf] at exceeds
      omega
  | several opens addressed later finish =>
      by_cases fits : (messageOf front).length ≤ 1020
      · exact refusesSome_next env opens fits addressed later exceeds device
      · exact (refusesSome_opens env opens (not_le.mp fits) device).append env
          [last]

end Refusal

/-- For every two sessions of one message and every two devices: a message of
up to 1020 bytes is in the buffer when the review is composed, and both reviews
end alike, with the same replies, parser context and strings; of a longer one
some packet is refused, on both. -/
theorem packets_makeNoDifference (env : Env) (signing : Signing)
    {front front' : List Apdu} {last last' : Apdu}
    (session : signing.Session front last)
    (session' : signing.Session front' last')
    (same : messageOf (front ++ [last]) = messageOf (front' ++ [last']))
    (device device' : Device build) :
    ((messageOf (front ++ [last])).length ≤ 1020 ->
      ∃ opened opened', signing.Delivers env front last device opened ∧
        signing.Delivers env front' last' device' opened' ∧
        Relates (signing.SameEnd (messageOf (front ++ [last])))
          ((firmware env build).step opened (.apdu last))
          ((firmware env build).step opened' (.apdu last'))) ∧
    (1020 < (messageOf (front ++ [last])).length ->
      RefusesSome env device (front ++ [last]) ∧
        RefusesSome env device' (front' ++ [last'])) := by
  constructor
  · intro fits
    obtain ⟨opened, delivers, presents, display⟩ :=
      delivers_session env session fits device
    obtain ⟨opened', delivers', presents', display'⟩ :=
      delivers_session env session' (same ▸ fits) device'
    refine ⟨opened, opened', delivers, delivers', ?_⟩
    rw [delivers.reviews, delivers'.reviews]
    exact reviews_sameEnd env _ _ presents (same ▸ presents')
      (display.both display') fits
  · intro exceeds
    exact ⟨refusesSome_session env session exceeds device,
      refusesSome_session env session' (same ▸ exceeds) device'⟩

/-- A message in one packet. -/
def wholePacket : Apdu := Signing.tx.packet P1_FIRST P2_FINISH [0xc1, 0x80]

/-- The same message, of which an empty packet is to come. -/
def firstPart : Apdu := Signing.tx.packet P1_FIRST 0 [0xc1, 0x80]

theorem length_emptyRest : ([] : List UInt8).length ≤ 255 := by decide

def emptyRest : Apdu :=
  Signing.tx.packet P1_MORE P2_FINISH [] length_emptyRest

/-- One message as one packet, and as a packet and an empty one, on a device
that has just started and on one in the middle of another message. -/
theorem packets_makeNoDifference_emptyRest :
    ∃ opened opened' : Device .nanoX,
      Signing.tx.Delivers (.ofTables [] []) [] wholePacket (.boot .nanoX)
        opened ∧
      Signing.tx.Delivers (.ofTables [] []) [firstPart] emptyRest
        { ctx := { length := 1000 } } opened' ∧
      Relates (Signing.tx.SameEnd [0xc1, 0x80])
        ((firmware (.ofTables [] []) .nanoX).step opened (.apdu wholePacket))
        ((firmware (.ofTables [] []) .nanoX).step opened'
          (.apdu emptyRest)) :=
  (packets_makeNoDifference (.ofTables [] []) .tx
    (.single rfl rfl rfl) (.several (.first rfl rfl (by decide)) rfl
      (by decide) rfl) rfl (.boot .nanoX) { ctx := { length := 1000 } }).1
    (by decide)

end LedgerOne
