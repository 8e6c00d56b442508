import LedgerOne.Security.Signer

/-!
# Requests, answers and signatures

What holds of the application in every run with a polite host, because it
holds of the signer: every request is answered once, and a signature is made
only of a message that the host sent as one session, when the user has just
agreed to it.
-/

namespace LedgerOne

def Event.isRequest : Event -> Bool
  | .apdu _ => true
  | .press _ => false

def Effect.isAnswer : Effect -> Bool
  | .respond .. => true
  | .hash .. => false

/-- The packet that finishes a message. -/
def Event.finishes : Event -> Bool
  | .apdu packet => packet.signing.isSome && packet.p2 == P2_FINISH
  | .press _ => false

/-- A signature is made. -/
def Effect.signs : Effect -> Bool
  | .hash .. => true
  | .respond .. => false

/-- The signing packets among the events. -/
def packetsIn (events : List Event) : List Apdu :=
  events.filterMap fun event =>
    match event with
    | .apdu apdu => if apdu.signing.isSome then some apdu else none
    | .press _ => none

/-- The last events are those of a session of an instruction that is to go on,
among which there are no other signing packets. -/
def Gathered (events : List Event) (signing : Signing) (bytes : List UInt8) :
    Prop :=
  ∃ before during, events = before ++ during ∧
    signing.Opens (packetsIn during) ∧ messageOf (packetsIn during) = bytes

/-- The last events are those of a session whose message is accepted, and
presses. -/
def Asked (events : List Event) (message : List UInt8) : Prop :=
  ∃ (signing : Signing) (before during : List Event) (last : Apdu)
      (presses : List Press),
    events = before ++ during ++ .apdu last :: presses.map .press ∧
    signing.Session (packetsIn during) last ∧
    messageOf (packetsIn during ++ [last]) = message ∧
    signing.Accepts message

section Packets

@[simp] theorem packetsIn_concat_press (events : List Event) (press : Press) :
    packetsIn (events ++ [.press press]) = packetsIn events := by
  simp [packetsIn]

theorem packetsIn_concat_signing {apdu : Apdu} {signing : Signing}
    (events : List Event) (addressed : apdu.signing = some signing) :
    packetsIn (events ++ [.apdu apdu]) = packetsIn events ++ [apdu] := by
  simp [packetsIn, addressed]

theorem packetsIn_concat_other {apdu : Apdu} (events : List Event)
    (other : apdu.signing = none) :
    packetsIn (events ++ [.apdu apdu]) = packetsIn events := by
  simp [packetsIn, other]

variable {events : List Event} {signing : Signing} {bytes : List UInt8}

theorem Gathered.press (gathered : Gathered events signing bytes)
    (press : Press) : Gathered (events ++ [.press press]) signing bytes := by
  obtain ⟨before, during, rfl, opens, message⟩ := gathered
  refine ⟨before, during ++ [.press press], by simp, ?_, ?_⟩
  · rwa [packetsIn_concat_press]
  · rwa [packetsIn_concat_press]

theorem Gathered.aside (gathered : Gathered events signing bytes)
    {apdu : Apdu} (other : apdu.signing = none) :
    Gathered (events ++ [.apdu apdu]) signing bytes := by
  obtain ⟨before, during, rfl, opens, message⟩ := gathered
  refine ⟨before, during ++ [.apdu apdu], by simp, ?_, ?_⟩
  · rwa [packetsIn_concat_other _ other]
  · rwa [packetsIn_concat_other _ other]

theorem Asked.press (asked : Asked events bytes) (press : Press) :
    Asked (events ++ [.press press]) bytes := by
  obtain ⟨signing, before, during, last, presses, rfl, rest⟩ := asked
  exact ⟨signing, before, during, last, presses ++ [press], by simp, rest⟩

end Packets

/-! ## What the signer has seen -/

/-- What the signer keeps goes back to the events. -/
structure Signer.Recalls (events : List Event) (signer : Signer) : Prop where
  gathered : ∀ signing bytes, signer.gathered = some (signing, bytes) ->
    Gathered events signing bytes
  asked : ∀ message, signer.question = some (.signature message) ->
    Asked events message

section Recalls

variable {env : Env} {events : List Event} {signer after : Signer}
  {outputs : List Effect} {apdu : Apdu} {signing : Signing}
  {bytes : List UInt8}

/-- A packet extends what was gathered, or starts anew. -/
theorem Signer.Recalls.extended (recalls : signer.Recalls events)
    (addressed : apdu.signing = some signing)
    (extended : signer.extended signing apdu = some bytes) :
    ∃ before during, events = before ++ during ∧
      messageOf (packetsIn during ++ [apdu]) = bytes ∧
      (apdu.p2 ≠ P2_FINISH -> signing.Opens (packetsIn during ++ [apdu])) ∧
      (apdu.p2 = P2_FINISH -> signing.Session (packetsIn during) apdu) := by
  unfold Signer.extended at extended
  split_ifs at extended with first
  · cases extended
    refine ⟨events, [], by simp, by simp [messageOf, packetsIn], ?_, ?_⟩
    · exact .first addressed first
    · exact .single addressed first
  · split at extended
    · next gathering before same =>
      split_ifs at extended with own
      subst own
      cases extended
      obtain ⟨front, during, rfl, opens, rfl⟩ := recalls.gathered _ _ same
      exact ⟨front, during, rfl, messageOf_concat _ _,
        opens.next addressed first, .several opens addressed first⟩
    · cases extended

/-- After a request. -/
theorem Signer.Recalls.serves (recalls : signer.Recalls events)
    (serves : signer.Serves env apdu after outputs)
    (closed : signer.question = none) :
    after.Recalls (events ++ [.apdu apdu]) := by
  have aside : apdu.signing = none -> ∀ signing bytes,
      signer.gathered = some (signing, bytes) ->
        Gathered (events ++ [.apdu apdu]) signing bytes :=
    fun other signing bytes same =>
      (recalls.gathered signing bytes same).aside other
  have none : ∀ message, signer.question = some (.signature message) ->
      Asked (events ++ [.apdu apdu]) message := by
    simp [closed]
  cases serves with
  | unknown addressee =>
      exact ⟨aside (by simp [Apdu.signing, addressee]), none⟩
  | version addressee =>
      exact ⟨aside (by simp [Apdu.signing, addressee]), none⟩
  | address | refuseAddress | tooLong | refuse => exact ⟨by simp, none⟩
  | askAddress => exact ⟨by simp, by simp⟩
  | gather addressed extended fits goesOn =>
      refine ⟨?_, none⟩
      rintro _ _ ⟨⟩
      obtain ⟨before, during, rfl, message, opens, _⟩ :=
        recalls.extended addressed extended
      refine ⟨before, during ++ [.apdu apdu], by simp, ?_, ?_⟩
      · rw [packetsIn_concat_signing _ addressed]
        exact opens goesOn
      · rw [packetsIn_concat_signing _ addressed, message]
  | ask addressed extended fits last accepts =>
      refine ⟨by simp, ?_⟩
      rintro _ ⟨⟩
      obtain ⟨before, during, rfl, message, _, session⟩ :=
        recalls.extended addressed extended
      exact ⟨_, before, during, apdu, [], by simp, session last, message,
        accepts⟩

/-- After a press. -/
theorem Signer.Recalls.attends (recalls : signer.Recalls events)
    (attends : signer.Attends env after outputs) (press : Press) :
    after.Recalls (events ++ [.press press]) := by
  cases attends with
  | looks =>
      refine ⟨?_, fun message same =>
        (recalls.asked message same).press press⟩
      intro signing bytes same
      dsimp only at same
      split_ifs at same
      exact (recalls.gathered signing bytes same).press press
  | agrees | declines => exact ⟨by simp, by simp⟩

/-- Whatever the signer does, it recalls. -/
theorem recalls_of_runs
    (runs : (Signer.specification env).Runs {} events signer outputs) :
    signer.Recalls events := by
  induction runs with
  | start => exact ⟨nofun, nofun⟩
  | step earlier steps inductionHypothesis =>
      rename_i event _ _
      cases event with
      | apdu apdu =>
          exact inductionHypothesis.serves steps.2
            (Option.isNone_iff_eq_none.mp steps.1)
      | press press => exact inductionHypothesis.attends steps press

end Recalls

/-! ## What a step owes -/

section Accounts

variable {env : Env} {signer after : Signer} {outputs : List Effect}

/-- A request is answered or opens a question, and the press that closes the
question answers it. -/
theorem answers_specification (event : Event)
    (steps : Signer.specification env signer event after outputs) :
    outputs.countP Effect.isAnswer + after.question.isSome.toNat =
      signer.question.isSome.toNat + event.isRequest.toNat := by
  cases event with
  | apdu apdu =>
      have closed := Option.isNone_iff_eq_none.mp steps.1
      cases steps.2 <;> simp [closed, Effect.isAnswer, Event.isRequest]
  | press press =>
      cases (show signer.Attends env after outputs from steps) with
      | looks => simp [Event.isRequest]
      | agrees asked =>
          rename_i question _
          cases question <;>
            simp [asked, Question.answer, Effect.isAnswer, Event.isRequest]
      | declines asked => simp [asked, Effect.isAnswer, Event.isRequest]

/-- A signature is being asked for. -/
def Signer.signing (signer : Signer) : Bool :=
  match signer.question with
  | some (.signature _) => true
  | _ => false

/-- A signature is asked for by the packet that finishes a message, and made
when the question is closed. -/
theorem signs_specification (event : Event)
    (steps : Signer.specification env signer event after outputs) :
    outputs.countP Effect.signs + after.signing.toNat ≤
      signer.signing.toNat + event.finishes.toNat := by
  cases event with
  | apdu apdu =>
      have closed := Option.isNone_iff_eq_none.mp steps.1
      cases steps.2 with
      | ask addressed _ _ last =>
          simp [Signer.signing, Event.finishes, addressed, last]
      | _ => simp [Signer.signing, Effect.signs, closed]
  | press press =>
      cases (show signer.Attends env after outputs from steps) with
      | looks => simp [Signer.signing]
      | agrees asked =>
          rename_i question _
          cases question <;>
            simp [Signer.signing, Question.answer, Effect.signs, asked,
              List.countP_cons]
      | declines asked => simp [Signer.signing, Effect.signs]

/-- Only the user's agreement signs, and what is signed is what was asked. -/
theorem asked_of_signs {event : Event} {message : List UInt8}
    (steps : Signer.specification env signer event after outputs)
    (signs : .hash message ∈ outputs) :
    (∃ press, event = .press press) ∧
      signer.question = some (.signature message) ∧
      outputs = [.hash message,
        .respond (env.signature (env.keccak message)) SW_OK] := by
  cases event with
  | apdu apdu => cases steps.2 <;> simp at signs
  | press press =>
      cases (show signer.Attends env after outputs from steps) with
      | looks => simp at signs
      | agrees asked =>
          rename_i question _
          cases question with
          | address => simp [Question.answer] at signs
          | signature sent =>
              obtain rfl : message = sent := by
                simpa [Question.answer] using signs
              exact ⟨⟨press, rfl⟩, asked, rfl⟩
      | declines => simp at signs

end Accounts

/-! ## A message in two packets -/

def halves : List Event := [.apdu firstHalf, .apdu secondHalf]

/-- What is put out when the message is agreed to. -/
def signedHalf : List Effect :=
  [.hash [0xc1, 0x80], .respond (List.replicate SIGNATURE_LEN 0) SW_OK]

/-- The packets of a message, and the press that agrees to it. -/
theorem runs_halves :
    ∃ watched next,
      (politely (.ofTables [] []) .nanoX).Runs (.boot .nanoX, {})
        halves watched [.respond [] SW_OK] ∧
      politely (.ofTables [] []) .nanoX watched (.press .accept) next
        signedHalf ∧
      next.1.screen.asks = false := by
  have computed : ((((firmware (.ofTables [] []) .nanoX).watch
      Sessions.follow).attempt Polite halves
        (.boot .nanoX, {})).bind fun asked =>
          (((firmware (.ofTables [] []) .nanoX).watch Sessions.follow).step
            asked.1 (.press .accept)).toOption.map fun answered =>
              (asked, answered)).map (fun result =>
                (result.1.2, result.2.2, result.2.1.1.screen.asks)) =
        some ([.respond [] SW_OK], signedHalf, false) := by
    decide +kernel
  obtain ⟨⟨asked, answered⟩, both, seen⟩ := Option.map_eq_some_iff.mp computed
  obtain ⟨reached, attempts, answers⟩ := Option.bind_eq_some_iff.mp both
  obtain ⟨result, steps, same⟩ := Option.map_eq_some_iff.mp answers
  obtain ⟨rfl, rfl⟩ := Prod.mk.inj same
  obtain ⟨answered, takes, rfl⟩ := exists_of_view id (by rw [steps]; rfl)
  simp only [Prod.mk.injEq] at seen
  obtain ⟨first, second, silent⟩ := seen
  have runs := Machine.runs_of_attempt _ _ attempts
  rw [first] at runs
  refine ⟨reached.1, answered.1, runs, ⟨trivial, ?_⟩, silent⟩
  rw [takes, ← second]
  rfl

/-! ## What the application does in its runs -/

section Runs

variable {env : Env} {events : List Event}
  {watched : Device build × Sessions} {outputs : List Effect}

/-- There are no more signatures than finished messages. -/
theorem signatures_le_finished
    (runs : (politely env build).Runs (.boot build, {}) events watched
      outputs) :
    outputs.countP Effect.signs ≤ events.countP Event.finishes := by
  obtain ⟨signer, specified, models⟩ :=
    (politely_implements env build).runs (models_boot env build) runs
  have covered := specified.covered (fun signer => signer.signing.toNat)
    Event.finishes Effect.signs
    fun _ event _ _ steps => signs_specification event steps
  have nothing : ({} : Signer).signing.toNat = 0 := rfl
  omega

theorem signatures_le_finished_halves :
    ∃ watched outputs,
      (politely (.ofTables [] []) .nanoX).Runs (.boot .nanoX, {})
        (halves ++ [.press .accept]) watched outputs ∧
      outputs = [.respond [] SW_OK] ++ signedHalf ∧
      outputs.countP Effect.signs ≤ 1 := by
  obtain ⟨_, next, runs, steps, _⟩ := runs_halves
  exact ⟨next, _, runs.step steps, rfl,
    signatures_le_finished (runs.step steps)⟩

end Runs

end LedgerOne
