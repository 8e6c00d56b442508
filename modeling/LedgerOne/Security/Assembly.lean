import LedgerOne.Firmware.Sessions

/-!
# Messages in several packets

The buffer in which a message is collected is shared by both signing
instructions and by the address command, and nothing in the context says whose
message it holds.  A watch beside the device keeps what the host has sent to
each instruction, and whose session nothing has disturbed.
-/

namespace LedgerOne

/-- The message of an instruction after one more packet. -/
def announce (apdu : Apdu) (before : Option (List UInt8)) :
    Option (List UInt8) :=
  if apdu.p1 = P1_FIRST then some apdu.data
  else before.map fun bytes => bytes ++ apdu.data

/-- What the host has sent. -/
structure Sessions where
  /-- For each instruction the data of its packets since the last first one,
  unless the message was finished. -/
  announced : Signing -> Option (List UInt8) := fun _ => none
  /-- The instruction whose packets alone have touched the context since its
  last first packet, none of which was refused or the last one. -/
  undisturbed : Option Signing := none

namespace Sessions

/-- What was sent, after an event. -/
def announcedAfter (sessions : Sessions) (event : Event)
    (signing : Signing) : Option (List UInt8) :=
  match event with
  | .apdu apdu =>
      if apdu.signing = some signing then
        if apdu.p2 = P2_FINISH then none
        else announce apdu (sessions.announced signing)
      else sessions.announced signing
  | .press _ => sessions.announced signing

/-- Whose session is undisturbed after an event. -/
def undisturbedAfter (sessions : Sessions) (device : Device build)
    (event : Event) : Option Signing :=
  match event with
  | .apdu apdu =>
      match apdu.signing with
      | some signing =>
          if apdu.p2 ≠ P2_FINISH ∧ ¬signing.Refused apdu device.ctx ∧
              (apdu.p1 = P1_FIRST ∨ sessions.undisturbed = some signing) then
            some signing
          else none
      | none =>
          if apdu.addressee = some .getPublicKey then none
          else sessions.undisturbed
  | .press press =>
      if device.TakesUp press ∨ device.screen.comparesAddress then none
      else sessions.undisturbed

/-- The watch of the sessions. -/
def follow (sessions : Sessions) (device : Device build) (event : Event)
    (_ : Device build) : Sessions where
  announced := sessions.announcedAfter event
  undisturbed := sessions.undisturbedAfter device event

end Sessions

/-! ## The buffer holds what was sent -/

/-- The buffer holds what was sent to the undisturbed instruction. -/
def Sessions.HeldBy (sessions : Sessions) (device : Device build) : Prop :=
  ∀ signing, sessions.undisturbed = some signing ->
    ∃ bytes, sessions.announced signing = some bytes ∧
      device.ctx.Gathers bytes

section Held

variable {env : Env} {sessions : Sessions} {device : Device build}

/-- A packet opens a context that holds what was sent before it. -/
theorem gathers_announced {signing : Signing} {apdu : Apdu}
    (held : sessions.HeldBy device)
    (continues : apdu.p1 = P1_FIRST ∨
      sessions.undisturbed = some signing) :
    ∃ bytes, announce apdu (sessions.announced signing) =
        some (bytes ++ apdu.data) ∧
      (signing.opened apdu device.ctx).Gathers bytes := by
  by_cases first : apdu.p1 = P1_FIRST
  · refine ⟨[], ?_, gathers_opened_first first⟩
    rw [announce, if_pos first, List.nil_append]
  · obtain ⟨bytes, announced, gathers⟩ :=
      held signing (continues.resolve_left first)
    refine ⟨bytes, ?_, signing.gathers_opened_later first gathers⟩
    rw [announce, if_neg first, announced, Option.map_some]

/-- An event that leaves both the context and what was sent alone. -/
theorem heldBy_same {next : Device build} {event : Event}
    (held : sessions.HeldBy device)
    (announced : sessions.announcedAfter event = sessions.announced)
    (undisturbed : sessions.undisturbedAfter device event =
      sessions.undisturbed)
    (gathers : ∀ bytes, device.ctx.Gathers bytes -> next.ctx.Gathers bytes) :
    (sessions.follow device event next).HeldBy next := by
  intro signing still
  obtain ⟨bytes, sent, collected⟩ := held signing (undisturbed ▸ still)
  refine ⟨bytes, ?_, gathers bytes collected⟩
  show sessions.announcedAfter event signing = some bytes
  rw [announced, sent]

/-- An event that disturbs every session. -/
theorem heldBy_disturbed {next : Device build} {event : Event}
    (disturbed : sessions.undisturbedAfter device event = none) :
    (sessions.follow device event next).HeldBy next := by
  intro signing still
  rw [show (sessions.follow device event next).undisturbed = none from
    disturbed] at still
  cases still

theorem heldBy_signing {signing : Signing} {apdu : Apdu}
    (held : sessions.HeldBy device)
    (addressed : apdu.signing = some signing)
    {next : Device build} {outputs : List Effect}
    (answers : signing.Answers env apdu device next outputs) :
    (sessions.follow device (.apdu apdu) next).HeldBy next := by
  by_cases goesOn : apdu.p2 ≠ P2_FINISH ∧ ¬signing.Refused apdu device.ctx ∧
    (apdu.p1 = P1_FIRST ∨ sessions.undisturbed = some signing)
  · obtain ⟨more, fits, continues⟩ := goesOn
    obtain ⟨bytes, announced, opened⟩ := gathers_announced held continues
    intro other still
    have own : sessions.undisturbedAfter device (.apdu apdu) =
        some signing := by
      unfold Sessions.undisturbedAfter
      simp only [addressed]
      exact if_pos ⟨more, fits, continues⟩
    obtain rfl : signing = other := Option.some.inj (own.symm.trans still)
    refine ⟨bytes ++ apdu.data, ?_, ?_⟩
    · show sessions.announcedAfter (.apdu apdu) signing = _
      unfold Sessions.announcedAfter
      dsimp only
      rw [if_pos addressed, if_neg more, announced]
    · cases answers with
      | refused tooLong => exact absurd tooLong fits
      | collected _ _ ctx =>
          rw [ctx]
          exact gathers_collected opened
      | finished _ last => exact absurd last more
  · apply heldBy_disturbed
    unfold Sessions.undisturbedAfter
    simp only [addressed]
    exact if_neg goesOn

theorem heldBy_other {apdu : Apdu} (held : sessions.HeldBy device)
    (other : apdu.signing = none) :
    Ensures ((firmware env build).step device (.apdu apdu)) fun result =>
      (sessions.follow device (.apdu apdu) result.1).HeldBy result.1 := by
  by_cases address : apdu.addressee = some .getPublicKey
  · apply Ensures.trivial.mono
    · intro result _
      apply heldBy_disturbed
      unfold Sessions.undisturbedAfter
      simp only [other]
      exact if_pos address
    · exact fun _ _ => trivial
  · apply (step_aside env apdu device other address).mono
    · intro result same
      apply heldBy_same held
      · funext signing
        simp [Sessions.announcedAfter, other]
      · simp [Sessions.undisturbedAfter, other, address]
      · intro bytes gathers
        rwa [same.1]
    · exact fun _ _ => trivial

theorem heldBy_press {press : Press} (held : sessions.HeldBy device) :
    Ensures ((firmware env build).step device (.press press)) fun result =>
      (sessions.follow device (.press press) result.1).HeldBy result.1 := by
  by_cases disturbs : device.TakesUp press ∨ device.screen.comparesAddress
  · apply Ensures.trivial.mono
    · intro result _
      exact heldBy_disturbed (if_pos disturbs)
    · exact fun _ _ => trivial
  · have same : ∀ next : Device build,
        (∀ bytes, device.ctx.Gathers bytes -> next.ctx.Gathers bytes) ->
        (sessions.follow device (.press press) next).HeldBy next :=
      fun next gathers => heldBy_same held rfl (if_neg disturbs) gathers
    obtain ⟨leaves, elsewhere⟩ := not_or.mp disturbs
    cases signs : device.screen.signs with
    | false =>
        apply (step_press_aside env device press signs
          (eq_false_of_ne_true elsewhere)).mono
        · intro result ctx
          exact same _ fun bytes gathers => by rwa [ctx]
        · exact fun _ _ => trivial
    | true =>
        apply (step_press_review env device press signs).mono
        · intro result reviews
          apply same
          intro bytes gathers
          exact {
            buf := reviews.buf.trans gathers.buf
            length := reviews.length.trans gathers.length
            txContext := (reviews.txContext leaves).trans gathers.txContext }
        · exact fun _ _ => trivial

/-- Every step keeps the buffer in line with what was sent. -/
theorem heldBy_step (event : Event) (held : sessions.HeldBy device) :
    Ensures ((firmware env build).step device event) fun result =>
      (sessions.follow device event result.1).HeldBy result.1 := by
  cases event with
  | apdu apdu =>
      cases addressed : apdu.signing with
      | none => exact heldBy_other held addressed
      | some signing =>
          exact (step_signing env apdu device addressed).mono
            (fun result answers => heldBy_signing held addressed answers)
            fun _ _ => trivial
  | press press => exact heldBy_press held

end Held

/-! ## Finished messages -/

/-- A parser is handed these bytes, from their start. -/
structure Ctx.Hands (bytes : List UInt8) (ctx : Ctx build) : Prop where
  message : ctx.message = bytes
  cursor : ctx.txContext.workBuffer = some 0
  length : ctx.txContext.commandLength = bytes.length

/-- A packet that finishes a message is answered with an error, or what
follows on the message is done on what was sent to its instruction since the
last first packet. -/
def Sessions.AsSent (env : Env) (sessions : Sessions) (signing : Signing)
    (apdu : Apdu) (device : Device build) : Prop :=
  (∃ next code,
    (firmware env build).step device (.apdu apdu) =
      .ok (next, [.respond [] code]) ∧ code ≠ SW_OK) ∨
  ∃ bytes, announce apdu (sessions.announced signing) = some bytes ∧
    (signing.finished apdu device.ctx).Hands bytes ∧
    (firmware env build).step device (.apdu apdu) =
      (signing.review env (device.received apdu)
        (signing.finished apdu device.ctx)).map Outcome.caught

/-- The packet starts its session, or nothing has disturbed the session, or
the data do not fit. -/
def Sessions.Accepts (sessions : Sessions) (signing : Signing) (apdu : Apdu)
    (device : Device build) : Prop :=
  apdu.p1 = P1_FIRST ∨ sessions.undisturbed = some signing ∨
    signing.Refused apdu device.ctx

section Halves

/-- The first and the second half of a message. -/
def firstHalf : Apdu := Signing.tx.packet P1_FIRST 0 [0xc1]
def secondHalf : Apdu := Signing.tx.packet P1_MORE P2_FINISH [0x80]

/-- The first half of a message, sent to the other instruction. -/
def foreignHalf : Apdu := Signing.staking.packet P1_FIRST 0 [0xc1]

end Halves

end LedgerOne
