import LedgerOne.Host.Sdk
import LedgerOne.Security.Signer

/-!
# Conversations

A host sends a request and the user presses buttons until it is answered.
From an idle device every conversation is polite, so that the device answers
as the signer does.
-/

namespace LedgerOne

/-! ## One step of the signer -/

section Steps

variable {env : Env} {device next : Device build} {sessions : Sessions}
  {signer : Signer} {outputs : List Effect}

/-- A polite step of the application is one of the signer. -/
theorem Signer.Models.step (event : Event)
    (models : signer.Models env (device, sessions))
    (polite : Polite (device, sessions) event)
    (steps : (firmware env build).step device event = .ok (next, outputs)) :
    ∃ after, Signer.specification env signer event after outputs ∧
      after.Models env (next, sessions.follow device event next) := by
  apply politely_implements env build (device, sessions) signer event
    (next, sessions.follow device event next) outputs models
  refine ⟨polite, ?_⟩
  unfold Machine.watch
  dsimp only
  rw [steps]
  rfl

/-- The screen asks nothing while no question is open. -/
theorem Signer.Models.quiet (models : signer.Models env (device, sessions))
    (closed : signer.question = none) : device.screen.asks = false := by
  rw [← models.isSome_question, closed]
  rfl

/-- What the signer has gathered, the host may continue. -/
theorem Signer.Models.continues {signing : Signing} {bytes : List UInt8}
    (models : signer.Models env (device, sessions))
    (gathered : signer.gathered = some (signing, bytes)) :
    sessions.undisturbed = some signing := by
  have same := models.gathered.symm.trans gathered
  obtain ⟨undisturbed, open_, announced⟩ := Option.bind_eq_some_iff.mp same
  obtain ⟨_, _, pair⟩ := Option.map_eq_some_iff.mp announced
  rw [open_, (Prod.mk.inj pair).1]

end Steps

/-! ## Presses -/

section Presses

variable {env : Env} {device last : Device build} {sessions : Sessions}
  {signer : Signer} {presses : List Press} {outputs : List Effect}

/-- Without an open question presses are not answered, and unless the address
is on the screen they change nothing of what the signer keeps. -/
theorem Signer.Models.presses_closed
    (models : signer.Models env (device, sessions))
    (closed : signer.question = none)
    (runs : (firmware env build).run (presses.map .press) device =
      .ok (last, outputs)) :
    outputs = [] ∧ ∃ (after : Signer) (watched : Sessions),
      after.question = none ∧ (signer.comparing = false -> after = signer) ∧
      after.Models env (last, watched) := by
  induction presses generalizing device sessions signer outputs with
  | nil =>
      cases runs
      exact ⟨rfl, signer, sessions, closed, fun _ => rfl, models⟩
  | cons press presses inductionHypothesis =>
      obtain ⟨next, first, more, steps, goesOn, rfl⟩ := Machine.run_cons runs
      obtain ⟨after, attends, kept⟩ := models.step (.press press) trivial steps
      cases (show signer.Attends env after first from attends) with
      | looks comparing ends =>
          obtain ⟨rfl, final, watched, none, same, held⟩ :=
            inductionHypothesis kept closed goesOn
          refine ⟨rfl, final, watched, none, fun steady => ?_, held⟩
          have still : comparing = false := by
            cases comparing
            · rfl
            · exact (ends closed rfl).symm.trans steady
          subst still
          rw [same rfl, steady]
          cases signer
          cases steady
          rfl
      | agrees asked => simp [closed] at asked
      | declines asked => simp [closed] at asked

/-- How the presses after a question end. -/
inductive Signer.Closes (env : Env) (question : Question) :
    Option Question -> List Effect -> Prop
  | asks : Closes env question (some question) []
  | agreed : Closes env question none (question.answer env)
  | declined : Closes env question none [.respond [] SW_USER_REJECTED]

/-- An open question is agreed to, declined, or still open. -/
theorem Signer.Models.presses_asked {question : Question}
    (models : signer.Models env (device, sessions))
    (asked : signer.question = some question)
    (runs : (firmware env build).run (presses.map .press) device =
      .ok (last, outputs)) :
    ∃ (after : Signer) (watched : Sessions),
      Signer.Closes env question after.question outputs ∧
      after.Models env (last, watched) := by
  induction presses generalizing device sessions signer outputs with
  | nil =>
      cases runs
      exact ⟨signer, sessions, asked ▸ .asks, models⟩
  | cons press presses inductionHypothesis =>
      obtain ⟨next, first, more, steps, goesOn, rfl⟩ := Machine.run_cons runs
      obtain ⟨after, attends, kept⟩ := models.step (.press press) trivial steps
      cases (show signer.Attends env after first from attends) with
      | looks comparing ends => exact inductionHypothesis kept asked goesOn
      | agrees open_ comparing =>
          obtain rfl := Option.some.inj (open_.symm.trans asked)
          obtain ⟨rfl, final, watched, none, _, held⟩ :=
            kept.presses_closed rfl goesOn
          rw [List.append_nil]
          exact ⟨final, watched, none ▸ .agreed, held⟩
      | declines open_ =>
          obtain ⟨rfl, final, watched, none, _, held⟩ :=
            kept.presses_closed rfl goesOn
          exact ⟨final, watched, none ▸ .declined, held⟩

end Presses

/-! ## Packets -/

section Packets

variable {env : Env} {device next : Device build} {sessions : Sessions}
  {signer : Signer} {outputs : List Effect} {signing : Signing} {apdu : Apdu}
  {bytes : List UInt8}

/-- The statuses with which packets are refused. -/
inductive Refusal (env : Env) (signing : Signing) (bytes : List UInt8) :
    Nat -> Prop
  | tooLong (exceeds : 1020 < bytes.length) :
      Refusal env signing bytes (statusOf env.exceptionOverflow)
  | unaccepted (fits : bytes.length ≤ 1020)
      (notAccepted : ¬signing.Accepts bytes) :
      Refusal env signing bytes (statusOf env.invalidParameter)

theorem Refusal.ne_ok {code : Nat} (refusal : Refusal env signing bytes code) :
    code ≠ SW_OK := by
  cases refusal with
  | tooLong => exact statusOf_ne_ok env.exceptionOverflow_lt
  | unaccepted => exact statusOf_ne_ok env.invalidParameter_lt

variable (models : signer.Models env (device, sessions))
  (closed : signer.question = none)
  (addressed : apdu.signing = some signing)
  (extended : signer.extended signing apdu = some bytes)
  (steps : (firmware env build).step device (.apdu apdu) =
    .ok (next, outputs))

include models closed addressed extended steps

/-- What the signer does with a packet. -/
theorem Signer.Models.serves_packet :
    ∃ (after : Signer) (watched : Sessions),
      signer.Serves env apdu after outputs ∧ after.Models env (next, watched) := by
  have continues : apdu.p1 = P1_FIRST ∨ sessions.undisturbed = some signing := by
    by_cases first : apdu.p1 = P1_FIRST
    · exact Or.inl first
    · unfold Signer.extended at extended
      rw [if_neg first] at extended
      split at extended
      next gathering before gathered =>
        split_ifs at extended with own
        subst own
        exact Or.inr (models.continues gathered)
      next => cases extended
  have polite : Polite (device, sessions) (.apdu apdu) := by
    refine ⟨models.quiet closed, fun other same => ?_⟩
    obtain rfl := Option.some.inj (addressed.symm.trans same)
    exact continues
  obtain ⟨after, serves, kept⟩ := models.step (.apdu apdu) polite steps
  exact ⟨after, _, serves.2, kept⟩

/-- A packet with more to come. -/
theorem Signer.Models.packet_more (more : apdu.p2 ≠ P2_FINISH) :
    (bytes.length ≤ 1020 ∧ outputs = [.respond [] SW_OK] ∧
      ∃ watched : Sessions, ({ signer with
        gathered := some (signing, bytes) } : Signer).Models env
          (next, watched)) ∨
    ∃ code, Refusal env signing bytes code ∧ outputs = [.respond [] code] := by
  obtain ⟨after, watched, serves, kept⟩ :=
    models.serves_packet closed addressed extended steps
  cases serves with
  | tooLong own same exceeds =>
      obtain rfl := Option.some.inj (addressed.symm.trans own)
      obtain rfl := Option.some.inj (extended.symm.trans same)
      exact Or.inr ⟨_, .tooLong exceeds, rfl⟩
  | gather own same fits =>
      obtain rfl := Option.some.inj (addressed.symm.trans own)
      obtain rfl := Option.some.inj (extended.symm.trans same)
      exact Or.inl ⟨fits, rfl, watched, kept⟩
  | ask own same fits last => exact absurd last more
  | refuse own same fits last => exact absurd last more
  | unknown addressee | version addressee | address addressee
  | askAddress addressee | refuseAddress addressee =>
      simp [Apdu.signing, addressee] at addressed

/-- The last packet of a message. -/
theorem Signer.Models.packet_last (last : apdu.p2 = P2_FINISH) :
    (bytes.length ≤ 1020 ∧ signing.Accepts bytes ∧ outputs = [] ∧
      ∃ watched : Sessions,
        ({ question := some (.signature bytes) } : Signer).Models env
          (next, watched)) ∨
    ∃ code, Refusal env signing bytes code ∧ outputs = [.respond [] code] := by
  obtain ⟨after, watched, serves, kept⟩ :=
    models.serves_packet closed addressed extended steps
  cases serves with
  | tooLong own same exceeds =>
      obtain rfl := Option.some.inj (addressed.symm.trans own)
      obtain rfl := Option.some.inj (extended.symm.trans same)
      exact Or.inr ⟨_, .tooLong exceeds, rfl⟩
  | gather own same fits more => exact absurd last more
  | ask own same fits _ accepts =>
      obtain rfl := Option.some.inj (addressed.symm.trans own)
      obtain rfl := Option.some.inj (extended.symm.trans same)
      exact Or.inl ⟨fits, accepts, rfl, watched, kept⟩
  | refuse own same fits _ notAccepted =>
      obtain rfl := Option.some.inj (addressed.symm.trans own)
      obtain rfl := Option.some.inj (extended.symm.trans same)
      exact Or.inr ⟨_, .unaccepted fits notAccepted, rfl⟩
  | unknown addressee | version addressee | address addressee
  | askAddress addressee | refuseAddress addressee =>
      simp [Apdu.signing, addressee] at addressed

end Packets

/-! ## Transports -/

/-- The first answer among the effects. -/
def answerOf (effects : List Effect) : Option (List UInt8 × Nat) :=
  effects.findSome? fun effect =>
    match effect with
    | .respond data code => some (data, code)
    | .hash _ => none

/-- A request of a host is well formed if its data fit. -/
def APDU.received (apdu : APDU) (short : apdu.payload.length ≤ 255) : Apdu where
  cla := apdu.cla
  ins := apdu.ins
  p1 := apdu.p1
  p2 := apdu.p2
  data := apdu.payload
  length_data := short

/-- A device with a request, and the presses that follow it. -/
def Device.converse (env : Env) (device : Device build) (apdu : Apdu)
    (presses : List Press) : Except Fault (Device build × List Effect) :=
  (firmware env build).run (.apdu apdu :: presses.map .press) device

/-- The answers of a device to requests, each followed by the next presses of a
script, up to the first that is refused; none if one of them is not answered. -/
def Device.answers (env : Env) : Device build × List (List Press) ->
    List APDU -> Option (List (List UInt8 × Nat))
  | _, [] => some []
  | (device, script), apdu :: apdus =>
      if short : apdu.payload.length ≤ 255 then
        match device.converse env (apdu.received short) (script.headD []) with
        | .error _ => none
        | .ok (after, effects) =>
            match answerOf effects with
            | none => none
            | some answer =>
                if answer.2 = SW_OK then
                  (Device.answers env (after, script.tail) apdus).map
                    (answer :: ·)
                else some [answer]
      else none

/-- What the promise of `transport.send` becomes for an answer: the response
with its status, or rejected unless the status is `SW_OK`. -/
def sentAnswer (answer : List UInt8 × Nat) :
    Except Sdk.TransportError (List UInt8) :=
  if answer.2 = SW_OK then .ok (answer.1 ++ putUint16 answer.2)
  else .error (.statusCode answer.2)

/-- A transport relays requests to a device.  `view` tells which device stands
behind a state of the transport, and the presses after the requests to come. -/
structure RelaysRequests {τ : Type} (send : Sdk.Transport τ) (env : Env)
    (view : τ -> Device build × List (List Press)) : Prop where
  answers : ∀ (state : τ) (apdu : APDU) (short : apdu.payload.length ≤ 255)
    (after : Device build) (effects : List Effect)
    (answer : List UInt8 × Nat),
    (view state).1.converse env (apdu.received short)
      ((view state).2.headD []) = .ok (after, effects) ->
    answerOf effects = some answer ->
    ∃ next, send state apdu = some (sentAnswer answer, next) ∧
      view next = (after, (view state).2.tail)

/-- A transport that holds the device and the script itself. -/
def Device.send (env : Env) :
    Sdk.Transport (Device build × List (List Press)) := fun state apdu =>
  if short : apdu.payload.length ≤ 255 then
    match state.1.converse env (apdu.received short) (state.2.headD []) with
    | .error _ => none
    | .ok (after, effects) =>
        (answerOf effects).map fun answer =>
          (sentAnswer answer, after, state.2.tail)
  else some (.error .dataLengthTooBig, state)

theorem relaysRequests_send (env : Env) :
    RelaysRequests (Device.send env) env
      (id : Device build × List (List Press) -> _) where
  answers state apdu short after effects answer converses answers := by
    change state.1.converse env (apdu.received short) (state.2.headD []) = _
      at converses
    refine ⟨(after, state.2.tail), ?_, rfl⟩
    unfold Device.send
    rw [dif_pos short, converses]
    dsimp only
    rw [answers]
    rfl

section Answers

variable {env : Env} {device : Device build} {script : List (List Press)}
  {apdu : APDU} {apdus : List APDU}

/-- The first of the answers. -/
theorem exists_answer_of_answers {answers : List (List UInt8 × Nat)}
    (answered : Device.answers env (device, script) (apdu :: apdus) =
      some answers) :
    ∃ (short : apdu.payload.length ≤ 255) (after : Device build)
      (effects : List Effect) (answer : List UInt8 × Nat),
      device.converse env (apdu.received short) (script.headD []) =
        .ok (after, effects) ∧
      answerOf effects = some answer ∧
      if answer.2 = SW_OK then ∃ rest,
        Device.answers env (after, script.tail) apdus = some rest ∧
          answers = answer :: rest
      else answers = [answer] := by
  rw [Device.answers] at answered
  split at answered
  case isFalse => cases answered
  case isTrue short =>
    split at answered
    next => cases answered
    next after effects converses =>
      split at answered
      next => cases answered
      next answer found =>
        refine ⟨short, after, effects, answer, converses, found, ?_⟩
        split_ifs at answered ⊢ with accepted
        · obtain ⟨rest, goesOn, rfl⟩ := Option.map_eq_some_iff.mp answered
          exact ⟨rest, goesOn, rfl⟩
        · exact (Option.some.inj answered).symm

/-- An answer with the status `SW_OK`, and those after it. -/
theorem answers_accepted {after : Device build} {effects : List Effect}
    {data : List UInt8} {rest : List (List UInt8 × Nat)}
    (short : apdu.payload.length ≤ 255)
    (converses : device.converse env (apdu.received short)
      (script.headD []) = .ok (after, effects))
    (answers : answerOf effects = some (data, SW_OK))
    (goesOn : Device.answers env (after, script.tail) apdus = some rest) :
    Device.answers env (device, script) (apdu :: apdus) =
      some ((data, SW_OK) :: rest) := by
  rw [Device.answers, dif_pos short, converses]
  dsimp only
  rw [answers]
  dsimp only
  rw [if_pos rfl, goesOn]
  rfl

/-- An answer that is the last one. -/
theorem answers_last {after : Device build} {effects : List Effect}
    {answer : List UInt8 × Nat} (short : apdu.payload.length ≤ 255)
    (converses : device.converse env (apdu.received short)
      (script.headD []) = .ok (after, effects))
    (answers : answerOf effects = some answer) :
    Device.answers env (device, script) [apdu] = some [answer] := by
  rw [Device.answers, dif_pos short, converses]
  dsimp only
  rw [answers]
  dsimp only
  rw [Device.answers]
  split_ifs <;> rfl

end Answers

/-- The signer waits for a request. -/
def Device.Waits (env : Env) (device : Device build)
    (gathered : Option (Signing × List UInt8)) : Prop :=
  ∃ sessions : Sessions,
    ({ gathered := gathered } : Signer).Models env (device, sessions)

/-- An idle device waits. -/
theorem waits_of_idle (env : Env) {device : Device build}
    (idle : device.screen = .idle) : device.Waits env none := by
  have start := models_start env device (by rw [idle]; rfl)
  rw [idle] at start
  exact ⟨{}, start⟩

section Exchanges

variable {env : Env} {device after : Device build} {apdu : Apdu}
  {presses : List Press} {effects : List Effect} {signing : Signing}
  {gathered : Option (Signing × List UInt8)} {bytes : List UInt8}

/-- What was gathered, with a packet. -/
def gatheredWith (gathered : Option (Signing × List UInt8))
    (signing : Signing) (apdu : Apdu) : Option (List UInt8) :=
  ({ gathered := gathered } : Signer).extended signing apdu

variable (waits : device.Waits env gathered)
  (addressed : apdu.signing = some signing)
  (extended : gatheredWith gathered signing apdu = some bytes)
  (converses : device.converse env apdu presses = .ok (after, effects))

include waits addressed extended converses

/-- A packet with more to come is acknowledged or refused. -/
theorem converse_more (more : apdu.p2 ≠ P2_FINISH) :
    (bytes.length ≤ 1020 ∧ effects = [.respond [] SW_OK] ∧
      after.Waits env (some (signing, bytes))) ∨
    ∃ code, Refusal env signing bytes code ∧
      answerOf effects = some ([], code) := by
  obtain ⟨sessions, models⟩ := waits
  obtain ⟨next, first, rest, steps, goesOn, rfl⟩ := Machine.run_cons converses
  obtain ⟨fits, rfl, watched, kept⟩ | ⟨code, refusal, rfl⟩ :=
    models.packet_more rfl addressed extended steps more
  · obtain ⟨rfl, signer, last, _, same, held⟩ := kept.presses_closed rfl goesOn
    rw [same rfl] at held
    exact Or.inl ⟨fits, rfl, last, held⟩
  · exact Or.inr ⟨code, refusal, rfl⟩

/-- The last packet of a message is refused, or the user is asked. -/
theorem converse_last (last : apdu.p2 = P2_FINISH) :
    (bytes.length ≤ 1020 ∧ signing.Accepts bytes ∧
      (effects = [] ∨
        effects = [.hash bytes,
          .respond (env.signature (env.keccak bytes)) SW_OK] ∨
        effects = [.respond [] SW_USER_REJECTED])) ∨
    ∃ code, Refusal env signing bytes code ∧
      answerOf effects = some ([], code) := by
  obtain ⟨sessions, models⟩ := waits
  obtain ⟨next, first, rest, steps, goesOn, rfl⟩ := Machine.run_cons converses
  obtain ⟨fits, accepts, rfl, watched, kept⟩ | ⟨code, refusal, rfl⟩ :=
    models.packet_last rfl addressed extended steps last
  · obtain ⟨signer, _, closes, _⟩ := kept.presses_asked rfl goesOn
    refine Or.inl ⟨fits, accepts, ?_⟩
    rw [List.nil_append]
    generalize signer.question = question at closes
    cases closes with
    | asks => exact Or.inl rfl
    | agreed => exact Or.inr (Or.inl rfl)
    | declined => exact Or.inr (Or.inr rfl)
  · exact Or.inr ⟨code, refusal, rfl⟩

omit addressed extended in
/-- The address is sent without asking. -/
theorem converse_address (addressee : apdu.addressee = some .getPublicKey)
    (silently : apdu.p2 = P2_SILENT_MODE) :
    effects = [.respond (addressText env.ethAddress) SW_OK] ∧
      after.Waits env none := by
  obtain ⟨sessions, models⟩ := waits
  obtain ⟨next, first, rest, steps, goesOn, rfl⟩ := Machine.run_cons converses
  have polite : Polite (device, sessions) (.apdu apdu) :=
    ⟨models.quiet rfl, fun signing same => by
      simp [Apdu.signing, addressee] at same⟩
  obtain ⟨served, serves, kept⟩ := models.step (.apdu apdu) polite steps
  cases serves.2 with
  | address =>
      obtain ⟨rfl, signer, last, _, same, held⟩ :=
        kept.presses_closed rfl goesOn
      rw [same rfl] at held
      exact ⟨rfl, last, held⟩
  | askAddress _ shown =>
      rw [silently] at shown
      exact absurd shown (by decide)
  | refuseAddress _ loud => exact absurd silently loud
  | unknown other | version other => simp [addressee] at other
  | tooLong own | gather own | ask own | refuse own =>
      simp [Apdu.signing, addressee] at own

omit addressed extended in
/-- The address is sent if the user agrees. -/
theorem converse_askAddress (addressee : apdu.addressee = some .getPublicKey)
    (shown : apdu.p2 = P2_DISPLAY_ADDRESS) :
    effects = [] ∨
      effects = [.respond (addressText env.ethAddress) SW_OK] ∨
      effects = [.respond [] SW_USER_REJECTED] := by
  obtain ⟨sessions, models⟩ := waits
  obtain ⟨next, first, rest, steps, goesOn, rfl⟩ := Machine.run_cons converses
  have polite : Polite (device, sessions) (.apdu apdu) :=
    ⟨models.quiet rfl, fun signing same => by
      simp [Apdu.signing, addressee] at same⟩
  obtain ⟨served, serves, kept⟩ := models.step (.apdu apdu) polite steps
  cases serves.2 with
  | askAddress =>
      obtain ⟨signer, _, closes, _⟩ := kept.presses_asked rfl goesOn
      rw [List.nil_append]
      generalize signer.question = question at closes
      cases closes with
      | asks => exact Or.inl rfl
      | agreed => exact Or.inr (Or.inl rfl)
      | declined => exact Or.inr (Or.inr rfl)
  | address _ silently =>
      rw [shown] at silently
      exact absurd silently (by decide)
  | refuseAddress _ _ hidden => exact absurd shown hidden
  | unknown other | version other => simp [addressee] at other
  | tooLong own | gather own | ask own | refuse own =>
      simp [Apdu.signing, addressee] at own

end Exchanges

end LedgerOne
