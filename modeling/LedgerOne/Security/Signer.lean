import LedgerOne.Firmware.Replies
import LedgerOne.Lib.Specification
import LedgerOne.Security.Assembly

/-!
# The signer that the application implements

An abstract signer has no screens, buffers or cursors: it gathers the packets
of a message, asks the user about it and signs it if the user agrees.  For a
host that waits for every answer and sends the packets of one message after
the other, the application does in every run exactly what the signer does.
-/

namespace LedgerOne

/-- What the user is asked. -/
inductive Question
  /-- May the address be shown to the host? -/
  | address
  /-- Is this message to be signed? -/
  | signature (message : List UInt8)

/-- What the signer keeps. -/
structure Signer where
  /-- The instruction whose packets are being gathered, and their data. -/
  gathered : Option (Signing × List UInt8) := none
  question : Option Question := none
  /-- The address is still on the screen. -/
  comparing : Bool := false

/-- What the user's agreement puts out. -/
def Question.answer (env : Env) : Question -> List Effect
  | .address => [.respond (addressText env.ethAddress) SW_OK]
  | .signature message => [.hash message,
      .respond (env.signature (env.keccak message)) SW_OK]

/-- The message that a packet completes, or brings one step further; none for
a packet that continues nothing. -/
def Signer.extended (signer : Signer) (signing : Signing) (apdu : Apdu) :
    Option (List UInt8) :=
  if apdu.p1 = P1_FIRST then some apdu.data
  else
    match signer.gathered with
    | some (gathering, bytes) =>
        if gathering = signing then some (bytes ++ apdu.data) else none
    | none => none

/-- The status of a request for which there is no handler. -/
def Apdu.unknownStatus (apdu : Apdu) : Nat :=
  if apdu.cla ≠ CLA then 0x6E00 else 0x6D00

section Steps

variable (env : Env)

/-- What the signer does on a request.  No question is open then. -/
inductive Signer.Serves (signer : Signer) (apdu : Apdu) :
    Signer -> List Effect -> Prop
  | unknown (addressee : apdu.addressee = none) :
      Serves signer apdu signer [.respond [] apdu.unknownStatus]
  | version (addressee : apdu.addressee = some .getVersion) :
      Serves signer apdu signer [.respond env.appVersion SW_OK]
  | address (addressee : apdu.addressee = some .getPublicKey)
      (silently : apdu.p2 = P2_SILENT_MODE) :
      Serves signer apdu { signer with gathered := none }
        [.respond (addressText env.ethAddress) SW_OK]
  | askAddress (addressee : apdu.addressee = some .getPublicKey)
      (shown : apdu.p2 = P2_DISPLAY_ADDRESS) (comparing : Bool) :
      Serves signer apdu
        { question := some .address, comparing := comparing } []
  | refuseAddress (addressee : apdu.addressee = some .getPublicKey)
      (loud : apdu.p2 ≠ P2_SILENT_MODE) (hidden : apdu.p2 ≠ P2_DISPLAY_ADDRESS) :
      Serves signer apdu { signer with gathered := none }
        [.respond [] SW_INVALID_PARAM]
  | tooLong {signing : Signing} {bytes : List UInt8}
      (addressed : apdu.signing = some signing)
      (extended : signer.extended signing apdu = some bytes)
      (exceeds : 1020 < bytes.length) :
      Serves signer apdu { signer with gathered := none }
        [.respond [] (statusOf env.exceptionOverflow)]
  | gather {signing : Signing} {bytes : List UInt8}
      (addressed : apdu.signing = some signing)
      (extended : signer.extended signing apdu = some bytes)
      (fits : bytes.length ≤ 1020) (more : apdu.p2 ≠ P2_FINISH) :
      Serves signer apdu { signer with gathered := some (signing, bytes) }
        [.respond [] SW_OK]
  | ask {signing : Signing} {bytes : List UInt8}
      (addressed : apdu.signing = some signing)
      (extended : signer.extended signing apdu = some bytes)
      (fits : bytes.length ≤ 1020) (last : apdu.p2 = P2_FINISH)
      (accepts : signing.Accepts bytes) :
      Serves signer apdu { question := some (.signature bytes) } []
  | refuse {signing : Signing} {bytes : List UInt8}
      (addressed : apdu.signing = some signing)
      (extended : signer.extended signing apdu = some bytes)
      (fits : bytes.length ≤ 1020) (last : apdu.p2 = P2_FINISH)
      (notAccepted : ¬signing.Accepts bytes) :
      Serves signer apdu { signer with gathered := none }
        [.respond [] (statusOf env.invalidParameter)]

/-- What the signer does on a press. -/
inductive Signer.Attends (signer : Signer) : Signer -> List Effect -> Prop
  /-- The user goes on looking, which on the screens of the address costs the
  packets that were gathered. -/
  | looks (comparing : Bool)
      (ends : signer.question = none -> comparing -> signer.comparing) :
      Attends signer { signer with
        gathered := if signer.comparing then none else signer.gathered
        comparing := comparing } []
  | agrees {question : Question} (asked : signer.question = some question)
      (comparing : Bool) :
      Attends signer { comparing := comparing } (question.answer env)
  | declines {question : Question} (asked : signer.question = some question) :
      Attends signer {} [.respond [] SW_USER_REJECTED]

/-- The signer, for hosts that wait for an answer. -/
def Signer.specification : Specification Signer Event Effect :=
  fun signer event next outputs =>
    match event with
    | .apdu apdu => signer.question.isNone ∧
        signer.Serves env apdu next outputs
    | .press _ => signer.Attends env next outputs

end Steps

/-! ## Polite hosts -/

/-- The screens on which a request waits for the user. -/
def Screen.asks : Screen -> Bool
  | .idle => false
  | .getPublicKeyCompare => false
  | _ => true

/-- The host waits until its request is answered, and a signing packet starts a
message or continues the one its instruction is gathering. -/
def Polite (watched : Device build × Sessions) : Event -> Prop
  | .press _ => True
  | .apdu apdu => watched.1.screen.asks = false ∧
      ∀ signing, apdu.signing = some signing ->
        apdu.p1 = P1_FIRST ∨ watched.2.undisturbed = some signing

instance (watched : Device build × Sessions) :
    (event : Event) -> Decidable (Polite watched event)
  | .press _ => .isTrue trivial
  | .apdu apdu => inferInstanceAs (Decidable
      (watched.1.screen.asks = false ∧ ∀ signing ∈ apdu.signing,
        apdu.p1 = P1_FIRST ∨ watched.2.undisturbed = some signing))

/-- The application and what polite hosts do with it. -/
def politely (env : Env) (build : Build) :
    Specification (Device build × Sessions) Event Effect :=
  ((firmware env build).watch Sessions.follow).allowing Polite

/-! ## The application as a signer -/

/-- The packets that are being gathered. -/
def Sessions.gathering (sessions : Sessions) :
    Option (Signing × List UInt8) :=
  sessions.undisturbed.bind fun signing =>
    (sessions.announced signing).map fun bytes => (signing, bytes)

/-- What is on the screen while a question is open, or none is. -/
def Device.Asks (env : Env) (device : Device build) : Option Question -> Prop
  | none => device.screen.asks = false
  | some .address => device.screen = .getPublicKeyApprove ∨
      device.screen = .displayPublicFlow ∧
        device.io.read 0 MAX_ONE_ADDRESS = addressText env.ethAddress
  | some (.signature message) => device.screen.signs ∧
      device.ctx.message = message ∧
      (device.screen.reviewsStaking -> device.ctx.txContent.Short)

/-- The application and the signer are in the same situation. -/
structure Signer.Models (env : Env) (watched : Device build × Sessions)
    (signer : Signer) : Prop where
  held : watched.2.HeldBy watched.1
  gathered : signer.gathered = watched.2.gathering
  comparing : signer.comparing = watched.1.screen.comparesAddress
  question : watched.1.Asks env signer.question
  alone : signer.question.isSome -> watched.2.undisturbed = none

/-- A question is open exactly while the screen asks it. -/
theorem Signer.Models.isSome_question {env : Env} {signer : Signer}
    {watched : Device build × Sessions} (models : signer.Models env watched) :
    signer.question.isSome = watched.1.screen.asks := by
  have asks := models.question
  cases question : signer.question with
  | none =>
      rw [question] at asks
      exact asks.symm
  | some asked =>
      rw [question] at asks
      cases asked with
      | address =>
          obtain screen | ⟨screen, _⟩ := asks
          all_goals
            rw [screen]
            rfl
      | signature message =>
          have signs := asks.1
          revert signs
          cases watched.1.screen <;> simp [Screen.asks, Screen.signs]

theorem Sessions.gathering_of_undisturbed {sessions : Sessions}
    (disturbed : sessions.undisturbed = none) : sessions.gathering = none := by
  rw [Sessions.gathering, disturbed]
  rfl

section Requests

variable {env : Env} {device next : Device build} {sessions : Sessions}
  {signer : Signer} {apdu : Apdu} {outputs : List Effect}
  (models : signer.Models env (device, sessions))
  (closed : signer.question = none)
  (steps : (firmware env build).step device (.apdu apdu) =
    .ok (next, outputs))

include models closed steps

/-- A request that leaves the context and the screen alone. -/
theorem Signer.Models.aside (other : apdu.signing = none)
    (aside : apdu.addressee ≠ some .getPublicKey)
    (screen : next.screen = device.screen) :
    signer.Models env (next, sessions.follow device (.apdu apdu) next) := by
  have same : (sessions.follow device (.apdu apdu) next).gathering =
      sessions.gathering := by
    simp [Sessions.gathering, Sessions.follow, Sessions.undisturbedAfter,
      Sessions.announcedAfter, other, aside]
  exact {
    held := (heldBy_other models.held other).value _ steps
    gathered := models.gathered.trans same.symm
    comparing := by
      rw [models.comparing]
      exact congrArg Screen.comparesAddress screen.symm
    question := by
      have asks := models.question
      rw [closed] at asks ⊢
      exact (congrArg Screen.asks screen).trans asks
    alone := by simp [closed] }

/-- A request that ends what was gathered and opens no question. -/
theorem Signer.Models.ends
    (disturbed : sessions.undisturbedAfter device (.apdu apdu) = none)
    (screen : next.screen = device.screen) :
    ({ signer with gathered := none } : Signer).Models env
      (next, sessions.follow device (.apdu apdu) next) where
  held := (heldBy_step _ models.held).value _ steps
  gathered := (Sessions.gathering_of_undisturbed disturbed).symm
  comparing := by
    show signer.comparing = _
    rw [models.comparing]
    exact congrArg Screen.comparesAddress screen.symm
  question := by
    have asks := models.question
    show next.Asks env signer.question
    rw [closed] at asks ⊢
    exact (congrArg Screen.asks screen).trans asks
  alone _ := disturbed

omit closed in
/-- A request that opens a question. -/
theorem Signer.Models.opens {question : Question}
    (disturbed : sessions.undisturbedAfter device (.apdu apdu) = none)
    (asks : next.Asks env (some question)) :
    ({ question := some question, comparing := next.screen.comparesAddress } :
      Signer).Models env (next, sessions.follow device (.apdu apdu) next) where
  held := (heldBy_step _ models.held).value _ steps
  gathered := (Sessions.gathering_of_undisturbed disturbed).symm
  comparing := rfl
  question := asks
  alone _ := disturbed

end Requests

/-! ## Requests -/

/-- The address that `getOneAddress` leaves at the start of the buffer. -/
theorem read_getOneAddress (env : Env) (device : Device build) :
    (getOneAddress env device).io.read 0 MAX_ONE_ADDRESS =
      addressText env.ethAddress := by
  have length := length_addressText env.ethAddress
  rw [getOneAddress, bech32GetAddress_toList]
  dsimp only
  have stored := device.io.take_read_splice 0
    (addressText env.ethAddress ++ [0]) MAX_ONE_ADDRESS
    (by rw [List.length_append, length]; decide)
    (by rw [List.length_append, length]; decide)
  rw [stored]
  exact List.take_left' (by rw [length]; rfl)

section Requests

variable {env : Env} {device next : Device build} {sessions : Sessions}
  {signer : Signer} {apdu : Apdu} {outputs : List Effect}
  (models : signer.Models env (device, sessions))
  (closed : signer.question = none)
  (steps : (firmware env build).step device (.apdu apdu) =
    .ok (next, outputs))

include models steps

/-- The request for the address. -/
theorem Signer.Models.serves_address (closed : signer.question = none)
    (addressee : apdu.addressee = some .getPublicKey) :
    ∃ after, signer.Serves env apdu after outputs ∧
      after.Models env
        (next, sessions.follow device (.apdu apdu) next) := by
  have other : apdu.signing = none := by
    rw [Apdu.signing, addressee]
  have disturbed : sessions.undisturbedAfter device (.apdu apdu) = none := by
    simp [Sessions.undisturbedAfter, other, addressee]
  have begins := steps
  rw [step_apdu, dispatch_addressee, addressee] at steps
  obtain ⟨rfl, rfl⟩ := eq_of_step steps
  unfold handleGetPublicKey at begins ⊢
  by_cases shown : apdu.p2 = P2_DISPLAY_ADDRESS
  · rw [if_pos shown] at begins ⊢
    refine ⟨_, ?_, models.opens begins disturbed
      (show Device.Asks env _ (some .address) from ?_)⟩
    · have silent : ∀ received : Device build,
          (displayAddress env build received).caught.2 = [] := by
        intro received
        cases build <;> rfl
      rw [silent]
      exact .askAddress addressee shown _
    · cases build with
      | nanoS => exact Or.inl rfl
      | nanoX => exact Or.inr ⟨rfl, read_getOneAddress env _⟩
  · rw [if_neg shown] at begins ⊢
    by_cases silently : apdu.p2 = P2_SILENT_MODE
    · rw [if_pos silently] at begins ⊢
      refine ⟨_, ?_, models.ends closed begins disturbed ?_⟩
      · have answer : ∀ received : Device build,
            (getPublicKey env received).caught.2 =
              [.respond (addressText env.ethAddress) SW_OK] := by
          intro received
          show [Effect.respond ((getOneAddress env received).io.read 0
            MAX_ONE_ADDRESS) SW_OK] = _
          rw [read_getOneAddress]
        rw [answer]
        exact .address addressee silently
      · exact getOneAddress_screen env _
    · rw [if_neg silently] at begins ⊢
      exact ⟨_, .refuseAddress addressee silently shown,
        models.ends closed begins disturbed rfl⟩

/-- A request for no signing instruction. -/
theorem Signer.Models.serves_other (closed : signer.question = none)
    (other : apdu.signing = none) :
    ∃ after, signer.Serves env apdu after outputs ∧
      after.Models env
        (next, sessions.follow device (.apdu apdu) next) := by
  cases addressee : apdu.addressee with
  | none =>
      have aside := models.aside closed steps other (by simp [addressee])
      rw [step_apdu, dispatch_addressee, addressee] at steps
      obtain ⟨rfl, rfl⟩ := eq_of_step steps
      refine ⟨signer, ?_, aside rfl⟩
      have status : statusOf apdu.unknownStatus = apdu.unknownStatus := by
        unfold Apdu.unknownStatus
        split <;> decide
      have answer : ((device.received apdu).throw device.ctx
          (if apdu.cla ≠ CLA then 0x6E00 else 0x6D00)).caught.2 =
            [.respond [] apdu.unknownStatus] :=
        (caught_of_thrown rfl).trans (by
          rw [← status]
          rfl)
      rw [answer]
      exact .unknown addressee
  | some handler =>
      cases handler with
      | getVersion =>
          have aside := models.aside closed steps other (by simp [addressee])
          rw [step_apdu, dispatch_addressee, addressee] at steps
          obtain ⟨rfl, rfl⟩ := eq_of_step steps
          refine ⟨signer, ?_, aside rfl⟩
          have read : ((device.received apdu).io.splice 0
              env.appVersion).read 0 3 = env.appVersion := by
            have stored := (device.received apdu).io.read_splice_self 0
              env.appVersion (by rw [env.length_appVersion]; decide)
            rwa [env.length_appVersion] at stored
          have answer : (handleGetVersion env (device.received apdu)).caught.2 =
              [.respond env.appVersion SW_OK] := by
            show [Effect.respond (((device.received apdu).io.splice 0
              env.appVersion).read 0 3) SW_OK] = _
            rw [read]
          rw [answer]
          exact .version addressee
      | getPublicKey => exact models.serves_address steps closed addressee
      | signStaking => simp [Apdu.signing, addressee] at other
      | signTx => simp [Apdu.signing, addressee] at other

omit steps in
/-- A packet of a polite host extends what the signer has gathered. -/
theorem Signer.Models.extended {signing : Signing}
    (polite : apdu.p1 = P1_FIRST ∨ sessions.undisturbed = some signing) :
    ∃ bytes, signer.extended signing apdu = some (bytes ++ apdu.data) ∧
      announce apdu (sessions.announced signing) =
        some (bytes ++ apdu.data) ∧
      (signing.opened apdu device.ctx).Gathers bytes := by
  obtain ⟨bytes, announced, opened⟩ := gathers_announced models.held polite
  refine ⟨bytes, ?_, announced, opened⟩
  unfold Signer.extended
  unfold announce at announced
  by_cases first : apdu.p1 = P1_FIRST
  · rw [if_pos first] at announced ⊢
    exact announced
  · rw [if_neg first] at announced ⊢
    obtain ⟨before, sent, same⟩ := Option.map_eq_some_iff.mp announced
    have gathered : signer.gathered = some (signing, before) := by
      rw [models.gathered, Sessions.gathering, polite.resolve_left first,
        Option.bind_some, sent]
      rfl
    rw [gathered]
    dsimp only
    rw [if_pos rfl, same]

/-- A packet of a signing instruction. -/
theorem Signer.Models.serves_signing (closed : signer.question = none)
    {signing : Signing} (addressed : apdu.signing = some signing)
    (polite : apdu.p1 = P1_FIRST ∨ sessions.undisturbed = some signing) :
    ∃ after, signer.Serves env apdu after outputs ∧
      after.Models env
        (next, sessions.follow device (.apdu apdu) next) := by
  obtain ⟨bytes, extended, announced, opened⟩ := models.extended polite
  have length : (bytes ++ apdu.data).length =
      (signing.opened apdu device.ctx).length + apdu.data.length := by
    rw [List.length_append, opened.length]
  cases (step_signing env apdu device addressed).value _ steps with
  | refused tooLong ctx screen replies =>
      have exceeds : 255 * 4 <
        (signing.opened apdu device.ctx).length + apdu.data.length := tooLong
      have disturbed : sessions.undisturbedAfter device (.apdu apdu) =
          none := by
        simp [Sessions.undisturbedAfter, addressed, tooLong]
      obtain rfl : outputs = _ := replies
      exact ⟨_, .tooLong addressed extended (by omega),
        models.ends closed steps disturbed screen⟩
  | collected fits more ctx screen replies =>
      have within : ¬255 * 4 <
        (signing.opened apdu device.ctx).length + apdu.data.length := fits
      have still : sessions.undisturbedAfter device (.apdu apdu) =
          some signing := by
        unfold Sessions.undisturbedAfter
        simp only [addressed]
        exact if_pos ⟨more, fits, polite⟩
      have sent : sessions.announcedAfter (.apdu apdu) signing =
          some (bytes ++ apdu.data) := by
        unfold Sessions.announcedAfter
        dsimp only
        rw [if_pos addressed, if_neg more, announced]
      obtain rfl : outputs = _ := replies
      refine ⟨_, .gather addressed extended (by omega) more, ?_⟩
      exact {
        held := (heldBy_step _ models.held).value _ steps
        gathered := by
          rw [Sessions.gathering, show (sessions.follow device (.apdu apdu)
            next).undisturbed = some signing from still, Option.bind_some,
            show (sessions.follow device (.apdu apdu) next).announced signing =
              _ from sent]
          rfl
        comparing := by
          show signer.comparing = _
          rw [models.comparing]
          exact congrArg Screen.comparesAddress screen.symm
        question := by
          have asks := models.question
          show next.Asks env signer.question
          rw [closed] at asks ⊢
          exact (congrArg Screen.asks screen).trans asks
        alone := by simp [closed] }
  | finished fits last outcome reviewed raises ctx screen replies =>
      have within : ¬255 * 4 <
        (signing.opened apdu device.ctx).length + apdu.data.length := fits
      have disturbed : sessions.undisturbedAfter device (.apdu apdu) =
          none := by
        simp [Sessions.undisturbedAfter, addressed, last]
      have presents := presents_finished opened
      have message : next.ctx.message = bytes ++ apdu.data := by
        rw [ctx, Ctx.message, raises.buf, raises.length]
        exact message_of_presents presents (by omega)
      obtain rfl : outputs = _ := replies
      cases (offers_review env signing (device.received apdu) presents
        (by omega)).value _ reviewed with
      | review accepts thrown effects signs short =>
          rw [caught_of_quiet thrown, effects] at steps ⊢
          have asks : next.Asks env
              (some (.signature (bytes ++ apdu.data))) := by
            refine ⟨?_, message, ?_⟩
            · rw [screen, signs]
            · rw [screen, ctx]
              exact short
          have compares : next.screen.comparesAddress = false := by
            rw [screen]
            revert signs
            cases outcome.device.screen <;> simp [Screen.signs,
              Screen.comparesAddress]
          have opens := models.opens steps disturbed asks
          rw [compares] at opens
          exact ⟨_, .ask addressed extended (by omega) last accepts, opens⟩
      | refused notAccepted thrown effects =>
          rw [caught_of_thrown thrown, effects] at steps ⊢
          refine ⟨_, .refuse addressed extended (by omega) last notAccepted,
            models.ends closed steps disturbed ?_⟩
          rw [screen]
          obtain ⟨quiet, _⟩ | ⟨_, same⟩ := raises.screen
          · rw [thrown] at quiet
            cases quiet
          · exact same

end Requests

/-! ## Presses -/

/-- Without an open question a press is silent. -/
theorem silent_pressed (env : Env) (device : Device build) (press : Press)
    (closed : device.screen.asks = false) :
    Ensures (pressed env build device press) fun outcome =>
      outcome.thrown = none ∧ outcome.effects = [] ∧
        (outcome.device.screen = device.screen ∨
          outcome.device.screen = .idle) := by
  cases build with
  | nanoS =>
      show Ensures (pressNanoS env device press) _
      unfold pressNanoS
      cases screen : device.screen with
      | idle => exact Ensures.ok ⟨rfl, rfl, Or.inl screen⟩
      | getPublicKeyCompare =>
          apply Ensures.ok
          rw [← screen]
          cases press with
          | releasedBoth => exact ⟨rfl, rfl, Or.inr rfl⟩
          | _ => exact ⟨rfl, rfl, Or.inl rfl⟩
      | _ => simp [screen, Screen.asks] at closed
  | nanoX =>
      show Ensures (pressNanoX env device press) _
      unfold pressNanoX
      cases screen : device.screen with
      | idle | getPublicKeyCompare =>
          exact Ensures.ok ⟨rfl, rfl, Or.inl screen⟩
      | _ => simp [screen, Screen.asks] at closed

/-- How a press answers the question about the address. -/
inductive Outcome.RepliesAddress (env : Env) (device : Device build)
    (outcome : Outcome build) : Prop
  | quiet (same : outcome = { device := device })
  | declines (rejected : outcome = device.reject)
  | agrees (thrown : outcome.thrown = none)
    (closed : outcome.device.screen.asks = false)
    (effects : outcome.effects =
      [.respond (addressText env.ethAddress) SW_OK])

theorem repliesAddress_pressed (env : Env) (device : Device build)
    (press : Press) (asks : device.Asks env (some .address)) :
    Ensures (pressed env build device press)
      (Outcome.RepliesAddress env device) := by
  cases build with
  | nanoS =>
      show Ensures (pressNanoS env device press) _
      unfold pressNanoS
      obtain screen | ⟨screen, _⟩ := asks
      · rw [screen]
        apply Ensures.ok
        cases press with
        | releasedLeft => exact .declines rfl
        | releasedRight =>
            refine .agrees rfl rfl ?_
            show [Effect.respond ((getOneAddress env device).io.read 0
              MAX_ONE_ADDRESS) SW_OK] = _
            rw [read_getOneAddress]
        | _ => exact .quiet rfl
      · rw [screen]
        exact Ensures.ok (.quiet rfl)
  | nanoX =>
      show Ensures (pressNanoX env device press) _
      unfold pressNanoX
      obtain screen | ⟨screen, fetched⟩ := asks
      · rw [screen]
        exact Ensures.ok (.quiet rfl)
      · rw [screen]
        apply Ensures.ok
        cases press with
        | accept =>
            refine .agrees rfl rfl ?_
            show [Effect.respond (device.io.read 0 MAX_ONE_ADDRESS) SW_OK] = _
            rw [fetched]
        | cancel => exact .declines rfl
        | _ => exact .quiet rfl

section Presses

variable {env : Env} {device next : Device build} {sessions : Sessions}
  {signer : Signer} {press : Press} {outputs : List Effect}
  (models : signer.Models env (device, sessions))
  (steps : (firmware env build).step device (.press press) =
    .ok (next, outputs))

include models steps

/-- A press that answers the open question. -/
theorem Signer.Models.closes (alone : sessions.undisturbed = none)
    (closed : next.screen.asks = false) :
    ({ comparing := next.screen.comparesAddress } : Signer).Models env
      (next, sessions.follow device (.press press) next) where
  held := (heldBy_step _ models.held).value _ steps
  gathered := by
    apply (Sessions.gathering_of_undisturbed ?_).symm
    show sessions.undisturbedAfter device (.press press) = none
    simp [Sessions.undisturbedAfter, alone]
  comparing := rfl
  question := closed
  alone := nofun

/-- A press after which the same question is open, or still none. -/
theorem Signer.Models.looks
    (gathers : sessions.undisturbedAfter device (.press press) =
      if signer.comparing then none else sessions.undisturbed)
    (asks : next.Asks env signer.question) :
    ({ signer with
      gathered := if signer.comparing then none else signer.gathered
      comparing := next.screen.comparesAddress } : Signer).Models env
      (next, sessions.follow device (.press press) next) where
  held := (heldBy_step _ models.held).value _ steps
  gathered := by
    show (if signer.comparing then none else signer.gathered) =
      (sessions.undisturbedAfter device (.press press)).bind fun signing =>
        (sessions.announced signing).map fun bytes => (signing, bytes)
    rw [gathers]
    split
    · rfl
    · exact models.gathered
  comparing := rfl
  question := asks
  alone opened := by
    show sessions.undisturbedAfter device (.press press) = none
    rw [gathers, models.alone opened]
    split <;> rfl

/-- A press while no question is open. -/
theorem Signer.Models.attends_closed (closed : signer.question = none) :
    ∃ after, signer.Attends env after outputs ∧
      after.Models env
        (next, sessions.follow device (.press press) next) := by
  have asks : device.screen.asks = false := by
    have asks := models.question
    rwa [closed] at asks
  have pressing := steps
  rw [step_press] at pressing
  cases presses : pressed env build device press with
  | error fault =>
      rw [presses] at pressing
      cases pressing
  | ok outcome =>
      rw [presses] at pressing
      obtain ⟨rfl, rfl⟩ := eq_of_step pressing
      obtain ⟨quiet, silent, screen⟩ :=
        (silent_pressed env device press asks).value _ presses
      rw [caught_of_quiet quiet] at steps ⊢
      rw [silent] at steps ⊢
      refine ⟨_, .looks outcome.device.screen.comparesAddress ?_,
        models.looks steps ?_ ?_⟩
      · intro _ compares
        rw [models.comparing]
        obtain same | idle := screen
        · exact same ▸ compares
        · rw [idle] at compares
          cases compares
      · have leaves : ¬device.TakesUp press := by
          rintro ⟨_, takesUp, _⟩
          rw [takesUp] at asks
          cases asks
        rw [models.comparing]
        simp [Sessions.undisturbedAfter, leaves]
      · rw [closed]
        obtain same | idle := screen
        · exact (congrArg Screen.asks same).trans asks
        · exact congrArg Screen.asks idle

/-- A press while the question about the address is open. -/
theorem Signer.Models.attends_address
    (asked : signer.question = some .address) :
    ∃ after, signer.Attends env after outputs ∧
      after.Models env
        (next, sessions.follow device (.press press) next) := by
  have asks : device.Asks env (some .address) := asked ▸ models.question
  have alone : sessions.undisturbed = none := models.alone (by rw [asked]; rfl)
  have pressing := steps
  rw [step_press] at pressing
  cases presses : pressed env build device press with
  | error fault =>
      rw [presses] at pressing
      cases pressing
  | ok outcome =>
      rw [presses] at pressing
      obtain ⟨rfl, rfl⟩ := eq_of_step pressing
      cases (repliesAddress_pressed env device press asks).value _ presses with
      | quiet same =>
          subst same
          refine ⟨_, .looks device.screen.comparesAddress ?_,
            models.looks steps ?_ (by rwa [asked])⟩
          · simp [asked]
          · simp [Sessions.undisturbedAfter, alone]
      | declines rejected =>
          subst rejected
          exact ⟨_, .declines asked, models.closes steps alone rfl⟩
      | agrees thrown closed effects =>
          rw [caught_of_quiet thrown] at steps ⊢
          rw [effects] at steps ⊢
          exact ⟨_, .agrees asked _, models.closes steps alone closed⟩

/-- A press while the question about a message is open. -/
theorem Signer.Models.attends_signature {message : List UInt8}
    (asked : signer.question = some (.signature message)) :
    ∃ after, signer.Attends env after outputs ∧
      after.Models env
        (next, sessions.follow device (.press press) next) := by
  obtain ⟨signs, rfl, short⟩ : device.Asks env (some (.signature message)) :=
    asked ▸ models.question
  have alone : sessions.undisturbed = none := models.alone (by rw [asked]; rfl)
  have reviews := (step_press_review env device press signs).value _ steps
  have pressing := steps
  rw [step_press] at pressing
  cases presses : pressed env build device press with
  | error fault =>
      rw [presses] at pressing
      cases pressing
  | ok outcome =>
      rw [presses] at pressing
      obtain ⟨rfl, rfl⟩ := eq_of_step pressing
      cases (replies_pressed env device press signs short).value _ presses with
      | quiet thrown effects signsStill staking =>
          rw [caught_of_quiet thrown] at steps reviews ⊢
          rw [effects] at steps ⊢
          refine ⟨_, .looks outcome.device.screen.comparesAddress ?_,
            models.looks steps ?_ ?_⟩
          · simp [asked]
          · simp [Sessions.undisturbedAfter, alone]
          · rw [asked]
            refine ⟨signsStill, ?_, ?_⟩
            · rw [Ctx.message, Ctx.message, reviews.buf, reviews.length]
            · intro still
              have before := staking still
              have leaves : ¬device.TakesUp press := by
                rintro ⟨_, takesUp, _⟩
                rw [takesUp] at before
                cases before
              have same : outcome.device.ctx.txContent =
                  device.ctx.txContent :=
                congrArg TxContext.content (reviews.txContext leaves)
              rw [same]
              exact short before
      | declines rejected =>
          subst rejected
          exact ⟨_, .declines asked, models.closes steps alone rfl⟩
      | agrees thrown idle effects =>
          rw [caught_of_quiet thrown] at steps ⊢
          rw [effects] at steps ⊢
          exact ⟨_, .agrees asked _, models.closes steps alone
            (congrArg Screen.asks idle)⟩

end Presses

/-! ## Every run -/

/-- Every step of the application with a polite host is one of the signer. -/
theorem politely_implements (env : Env) (build : Build) :
    (politely env build).Implements (Signer.specification env)
      fun watched signer => signer.Models env watched := by
  rintro ⟨device, sessions⟩ signer event ⟨next, after⟩ outputs models
    ⟨polite, watched⟩
  obtain ⟨steps, followed⟩ := Machine.step_of_watch watched
  dsimp only at steps followed
  subst followed
  cases event with
  | apdu apdu =>
      obtain ⟨waits, continues⟩ := polite
      have closed : signer.question = none :=
        Option.isSome_eq_false_iff.mp (models.isSome_question.trans waits) |>
          Option.isNone_iff_eq_none.mp
      have serves : ∃ after, signer.Serves env apdu after outputs ∧
          after.Models env
            (next, sessions.follow device (.apdu apdu) next) := by
        cases addressed : apdu.signing with
        | none => exact models.serves_other steps closed addressed
        | some signing =>
            exact models.serves_signing steps closed addressed
              (continues signing addressed)
      obtain ⟨after, serves, kept⟩ := serves
      exact ⟨after, ⟨by rw [closed]; rfl, serves⟩, kept⟩
  | press press =>
      cases asked : signer.question with
      | none => exact models.attends_closed steps asked
      | some question =>
          cases question with
          | address => exact models.attends_address steps asked
          | signature message => exact models.attends_signature steps asked

/-- A device without an open question starts as the signer does. -/
theorem models_start (env : Env) (device : Device build)
    (closed : device.screen.asks = false) :
    ({ comparing := device.screen.comparesAddress } : Signer).Models env
      (device, {}) where
  held := nofun
  gathered := rfl
  comparing := rfl
  question := closed
  alone := nofun

/-- The application starts as the signer does. -/
theorem models_boot (env : Env) (build : Build) :
    ({} : Signer).Models env (Device.boot build, {}) :=
  models_start env _ rfl

end LedgerOne
