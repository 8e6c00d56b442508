import LedgerOne.Messages.Transfer
import LedgerOne.Security.Conversation

/-!
# What the hosts get

The hosts over the application: what they return is the signature of the
message they were given, if the user has agreed to it, and an error else.
-/

namespace LedgerOne

open Sdk

/-! ## The SDK -/

/-- The instruction of a signing function of the SDK. -/
def Signing.ins : Signing -> UInt8
  | .tx => SIGN_TX
  | .staking => SIGN_STAKING

section Requests

variable {signing : Signing} {count : Nat} {chunk : List UInt8 × Nat}
  {short : (signRequest signing.ins count chunk).payload.length ≤ 255}

/-- The packets of the SDK are addressed to the instruction. -/
theorem signing_signRequest :
    ((signRequest signing.ins count chunk).received short).signing =
      some signing := by
  cases signing <;> rfl

/-- The first packet starts a message. -/
theorem gatheredWith_first (gathered : Option (Signing × List UInt8))
    (first : chunk.2 = 0) :
    gatheredWith gathered signing
        ((signRequest signing.ins count chunk).received short) =
      some chunk.1 := by
  have starts : ((signRequest signing.ins count chunk).received short).p1 =
      LedgerOne.P1_FIRST := if_pos first
  rw [gatheredWith, Signer.extended, if_pos starts]
  rfl

/-- The other packets continue it. -/
theorem gatheredWith_later (bytes : List UInt8) (later : 0 < chunk.2) :
    gatheredWith (some (signing, bytes)) signing
        ((signRequest signing.ins count chunk).received short) =
      some (bytes ++ chunk.1) := by
  have continues : ((signRequest signing.ins count chunk).received short).p1 =
      P1_MORE := if_neg (by omega)
  have other : ((signRequest signing.ins count chunk).received short).p1 ≠
      LedgerOne.P1_FIRST := by
    rw [continues]
    decide
  rw [gatheredWith, Signer.extended, if_neg other]
  dsimp only
  rw [if_pos rfl]
  rfl

/-- Only the last packet finishes the message. -/
theorem p2_signRequest_iff :
    ((signRequest signing.ins count chunk).received short).p2 =
        LedgerOne.P2_FINISH ↔ chunk.2 = count - 1 := by
  show (if chunk.2 = count - 1 then P2_FINISH else P2_SIGNHASH) = _ ↔ _
  split_ifs with last
  · exact ⟨fun _ => last, fun _ => rfl⟩
  · exact ⟨fun same => absurd same (by decide), fun same => absurd same last⟩

end Requests

/-- The response that carries a signature. -/
def signedResponse (env : Env) (bytes : List UInt8) : List UInt8 :=
  env.signature (env.keccak bytes) ++ putUint16 SW_OK

theorem length_signature (env : Env) (bytes : List UInt8) :
    (env.signature (env.keccak bytes)).length = 65 :=
  env.length_signature _

/-- What is read out of it. -/
theorem response_signed (env : Env) (bytes : List UInt8) :
    Response.mk ((signedResponse env bytes).take 65)
        (returnCode (signedResponse env bytes)) =
      ⟨env.signature (env.keccak bytes), some SW_OK⟩ := by
  have length := length_signature env bytes
  have total : (signedResponse env bytes).length = 67 := by
    rw [signedResponse, List.length_append, length]
    rfl
  have front : (signedResponse env bytes).take 65 =
      env.signature (env.keccak bytes) := List.take_left' length
  have back : (signedResponse env bytes).drop 65 = putUint16 SW_OK :=
    List.drop_left' length
  have status : returnCode (signedResponse env bytes) = some SW_OK := by
    rw [returnCode, total, if_neg (by decide), back,
      beNat_putUint16 (by decide)]
  rw [front, status]

/-- A packet as the host passes it on. -/
def Apdu.sent (apdu : Apdu) : APDU :=
  ⟨apdu.cla, apdu.ins, apdu.p1, apdu.p2, apdu.data⟩

section Sends

variable {τ : Type} {send : Transport τ} {env : Env}
  {view : τ -> Device build × List (List Press)}

/-- What the answers to some requests make of the loop over them. -/
def lastSent (prior : Option (List UInt8))
    (answers : List (List UInt8 × Nat)) :
    Except TransportError (Option (List UInt8)) :=
  match answers.getLast? with
  | none => .ok prior
  | some answer => (sentAnswer answer).map some

theorem lastSent_cons (prior : Option (List UInt8))
    {answer : List UInt8 × Nat} (accepted : answer.2 = SW_OK)
    (rest : List (List UInt8 × Nat)) :
    lastSent prior (answer :: rest) =
      lastSent (some (answer.1 ++ putUint16 answer.2)) rest := by
  cases rest with
  | nil =>
      rw [lastSent, List.getLast?_singleton]
      dsimp only
      rw [sentAnswer, if_pos accepted]
      rfl
  | cons next rest =>
      rw [lastSent, lastSent, List.getLast?_cons_cons, List.getLast?_cons]

/-- The loop over requests that the device answers. -/
theorem sendAll_answers (relays : RelaysRequests send env view)
    {apdus : List APDU} (prior : Option (List UInt8)) {state : τ}
    {answers : List (List UInt8 × Nat)}
    (answered : Device.answers env (view state) apdus = some answers) :
    ∃ final, sendAll send apdus prior state =
      some (lastSent prior answers, final) := by
  induction apdus generalizing prior state answers with
  | nil =>
      cases answered
      exact ⟨state, rfl⟩
  | cons apdu apdus inductionHypothesis =>
      obtain ⟨short, after, effects, answer, converses, found, rest⟩ :=
        exists_answer_of_answers
          (show Device.answers env ((view state).1, (view state).2) _ = _
            from answered)
      obtain ⟨next, sends, stands⟩ :=
        relays.answers state apdu short after effects answer converses found
      rw [sendAll, sends]
      split_ifs at rest with accepted
      · obtain ⟨later, goesOn, rfl⟩ := rest
        rw [← stands] at goesOn
        rw [lastSent_cons prior accepted, sentAnswer, if_pos accepted]
        exact inductionHypothesis _ goesOn
      · subst rest
        refine ⟨next, ?_⟩
        rw [lastSent, List.getLast?_singleton]
        dsimp only
        rw [sentAnswer, if_neg accepted]
        rfl

end Sends

section Sound

variable {env : Env} {signing : Signing} {device after : Device build}
  {script : List (List Press)} {apdu : Apdu} {presses : List Press}
  {effects : List Effect} {gathered : Option (Signing × List UInt8)}
  {bytes data : List UInt8} (waits : device.Waits env gathered)
  (addressed : apdu.signing = some signing)
  (extended : gatheredWith gathered signing apdu = some bytes)
  (converses : device.converse env apdu presses = .ok (after, effects))
  (answers : answerOf effects = some (data, SW_OK))

include waits addressed extended converses answers

/-- A last packet is answered with `SW_OK` only by a signature. -/
theorem answer_last (last : apdu.p2 = P2_FINISH) :
    bytes.length ≤ 1020 ∧ signing.Accepts bytes ∧
      data = env.signature (env.keccak bytes) := by
  obtain ⟨fits, accepts, ending⟩ | ⟨code, refusal, refused⟩ :=
    converse_last waits addressed extended converses last
  · refine ⟨fits, accepts, ?_⟩
    obtain rfl | rfl | rfl := ending
    · cases answers
    · cases answers
      rfl
    · cases answers
  · rw [refused] at answers
    cases answers
    exact absurd rfl refusal.ne_ok

/-- After a packet with more to come the message goes on. -/
theorem answer_more (more : apdu.p2 ≠ P2_FINISH) :
    after.Waits env (some (signing, bytes)) := by
  obtain ⟨-, -, held⟩ | ⟨code, refusal, refused⟩ :=
    converse_more waits addressed extended converses more
  · exact held
  · rw [refused] at answers
    cases answers
    exact absurd rfl refusal.ne_ok

end Sound

section Signs

variable {env : Env} {signing : Signing} {device : Device build}
  {script : List (List Press)} {answers : List (List UInt8 × Nat)}

/-- What is left of a message: nothing has been sent of it, or the signer has
gathered what has. -/
inductive Sends (signing : Signing) :
    Nat -> List UInt8 -> Option (Signing × List UInt8) -> Prop
  | starts {gathered : Option (Signing × List UInt8)} :
      Sends signing 0 [] gathered
  | goesOn {index : Nat} {before : List UInt8} (later : 0 < index) :
      Sends signing index before (some (signing, before))

theorem Sends.gatheredWith {index count : Nat} {before chunk : List UInt8}
    {gathered : Option (Signing × List UInt8)}
    (sends : Sends signing index before gathered)
    (short : (signRequest signing.ins count
      (chunk, index)).payload.length ≤ 255) :
    LedgerOne.gatheredWith gathered signing
        ((signRequest signing.ins count (chunk, index)).received short) =
      some (before ++ chunk) := by
  cases sends with
  | starts => exact gatheredWith_first gathered rfl
  | goesOn later => exact gatheredWith_later before later

/-- What the answers to the packets end with. -/
theorem answers_packets {pieces : List (List UInt8)} (present : pieces ≠ [])
    {index count : Nat} (counts : count = index + pieces.length)
    {before : List UInt8} {gathered : Option (Signing × List UInt8)}
    (partly : Sends signing index before gathered)
    (waits : device.Waits env gathered)
    (answered : Device.answers env (device, script)
      ((pieces.zipIdx index).map (signRequest signing.ins count)) =
        some answers) :
    ∃ data code, answers.getLast? = some (data, code) ∧
      (code = SW_OK -> (before ++ pieces.flatten).length ≤ 1020 ∧
        signing.Accepts (before ++ pieces.flatten) ∧
        data = env.signature (env.keccak (before ++ pieces.flatten))) := by
  induction pieces generalizing index before device script gathered answers with
  | nil => exact absurd rfl present
  | cons chunk pieces inductionHypothesis =>
      rw [List.zipIdx_cons, List.map_cons] at answered
      obtain ⟨short, after, effects, ⟨data, code⟩, converses, found, rest⟩ :=
        exists_answer_of_answers answered
      rw [List.length_cons] at counts
      rw [List.flatten_cons, ← List.append_assoc]
      have addressed : ((signRequest signing.ins count
          (chunk, index)).received short).signing = some signing :=
        signing_signRequest
      have extended := partly.gatheredWith short
      split_ifs at rest with accepted
      · change code = SW_OK at accepted
        subst accepted
        obtain ⟨later, goesOn, rfl⟩ := rest
        by_cases empty : pieces = []
        · subst empty
          cases goesOn
          have last : index = count - 1 := by
            rw [counts, List.length_nil]
            omega
          rw [List.flatten_nil, List.append_nil]
          exact ⟨data, SW_OK, rfl, fun _ => answer_last waits addressed
            extended converses found (p2_signRequest_iff.mpr last)⟩
        · have length := List.length_pos_iff.mpr empty
          have more : ¬index = count - 1 := by omega
          have held := answer_more waits addressed extended converses found
            (fun same => more (p2_signRequest_iff.mp same))
          obtain ⟨last, status, ends, signs⟩ := inductionHypothesis empty
            (by omega) (.goesOn (Nat.succ_pos index)) held goesOn
          refine ⟨last, status, ?_, signs⟩
          rw [List.getLast?_cons, ends]
          rfl
      · subst rest
        exact ⟨data, code, rfl, fun accepts => absurd accepts accepted⟩

/-- What a signing call returns for the device's answers: the signature of the
message if the last one brings it, else an error; an empty message is never
sent. -/
inductive SignReturns (env : Env) (signing : Signing) (bytes : List UInt8)
    (answers : List (List UInt8 × Nat)) : Except JsError Response -> Prop
  | nothing (empty : bytes = []) : SignReturns env signing bytes answers
      (.error .typeError)
  | refused (present : bytes ≠ []) {data : List UInt8} {code : Nat}
      (last : answers.getLast? = some (data, code)) (other : code ≠ SW_OK) :
      SignReturns env signing bytes answers (.ok processErrorResponse)
  | signed (present : bytes ≠ []) (fits : bytes.length ≤ 1020)
      (accepts : signing.Accepts bytes)
      (last : answers.getLast? =
        some (env.signature (env.keccak bytes), SW_OK)) :
      SignReturns env signing bytes answers
        (.ok ⟨env.signature (env.keccak bytes), some SW_OK⟩)

section Transports

variable {τ : Type} {send : Transport τ}
  {view : τ -> Device build × List (List Press)}
  (relays : RelaysRequests send env view) {state : τ}

include relays

/-- What `signTx` and `signStake` return over a device that waits. -/
theorem signBuffer_returns {bytes : List UInt8}
    (waits : (view state).1.Waits env none)
    (answered : Device.answers env (view state)
      (signRequests signing.ins bytes) = some answers) :
    ∃ result final,
      signBuffer send signing.ins bytes state = some (result, final) ∧
        SignReturns env signing bytes answers result := by
  have whole := flatten_chunks (show 0 < CHUNK_SIZE by decide) bytes
  obtain ⟨final, sends⟩ := sendAll_answers relays none answered
  rw [signBuffer, sends]
  by_cases empty : bytes = []
  · subst empty
    cases answered
    exact ⟨_, final, rfl, .nothing rfl⟩
  · obtain ⟨data, code, last, signs⟩ := answers_packets
      (chunks_ne_nil (show 0 < CHUNK_SIZE by decide) empty)
      (Nat.zero_add _).symm .starts waits answered
    rw [List.nil_append, whole] at signs
    rw [lastSent, last]
    dsimp only
    rw [sentAnswer]
    split_ifs with accepted
    · change code = SW_OK at accepted
      subst accepted
      obtain ⟨fits, accepts, rfl⟩ := signs rfl
      refine ⟨_, final, rfl, ?_⟩
      have same := response_signed env bytes
      rw [signedResponse] at same
      rw [same]
      exact .signed empty fits accepts last
    · exact ⟨_, final, rfl, .refused empty last accepted⟩

end Transports

/-- The signing functions of the SDK. -/
def Signing.sign {τ : Type} (send : Transport τ) (signing : Signing)
    (message : List UInt16) : τ -> Option (Except JsError Response × τ) :=
  match signing with
  | .tx => signTx send message
  | .staking => signStake send message

theorem Signing.sign_eq {τ : Type} (send : Transport τ) (signing : Signing)
    (message : List UInt16) :
    signing.sign send message =
      signBuffer send signing.ins (hexToBytes message) := by
  cases signing <;> rfl

/-- The functions of the SDK that have a transaction signed. -/
def Signing.signTransaction {τ : Type} (send : Transport τ)
    (signing : Signing) (unsigned : List UInt8 -> List UInt16) :
    Nat -> τ -> Option (Except SigningError SignedFields × τ) :=
  match signing with
  | .tx => Sdk.signTransaction send unsigned
  | .staking => signStakingTransaction send unsigned

theorem Signing.signTransaction_eq {τ : Type} (send : Transport τ)
    (signing : Signing) (unsigned : List UInt8 -> List UInt16) :
    signing.signTransaction send unsigned =
      signUnsigned send unsigned (signing.sign send) := by
  cases signing <;> rfl

theorem addressee_publicKey (short : ([] : List UInt8).length ≤ 255) :
    ((⟨Sdk.CLA, GET_PUBLIC_KEY, 0, 1, []⟩ : APDU).received short).addressee =
      some .getPublicKey :=
  rfl

/-- The request of `publicKey` when nothing is shown. -/
def publicKeyRequest : APDU := ⟨Sdk.CLA, GET_PUBLIC_KEY, 0, 1, []⟩

/-- A device that waits gives its address away, and waits. -/
theorem publicKey_returns {τ : Type} {send : Transport τ}
    {view : τ -> Device build × List (List Press)}
    (relays : RelaysRequests send env view) {state : τ} {apdus : List APDU}
    (waits : (view state).1.Waits env none)
    (answered : Device.answers env (view state) (publicKeyRequest :: apdus) =
      some answers) :
    ∃ next rest, publicKey send true state =
        some (.ok (addressText env.ethAddress, some SW_OK), next) ∧
      (view next).1.Waits env none ∧
      Device.answers env (view next) apdus = some rest ∧
      answers = (addressText env.ethAddress, SW_OK) :: rest := by
  have length := length_addressText env.ethAddress
  obtain ⟨short, after, effects, answer, converses, found, rest⟩ :=
    exists_answer_of_answers
      (show Device.answers env ((view state).1, (view state).2) _ = _
        from answered)
  obtain ⟨rfl, held⟩ :=
    converse_address waits converses (addressee_publicKey short) rfl
  obtain ⟨next, sends, stands⟩ :=
    relays.answers state publicKeyRequest short after _ answer converses found
  cases found
  rw [if_pos rfl] at rest
  obtain ⟨later, goesOn, rfl⟩ := rest
  rw [← stands] at goesOn
  have front : (addressText env.ethAddress ++ putUint16 SW_OK).take 42 =
      addressText env.ethAddress := List.take_left' length
  have back : (addressText env.ethAddress ++ putUint16 SW_OK).drop 42 =
      putUint16 SW_OK := List.drop_left' length
  have total : (addressText env.ethAddress ++ putUint16 SW_OK).length =
      44 := by
    rw [List.length_append, length]
    rfl
  refine ⟨next, later, ?_, ?_, goesOn, rfl⟩
  · rw [sentAnswer, if_pos rfl] at sends
    have asked : send state ⟨Sdk.CLA, GET_PUBLIC_KEY, 0, 1, []⟩ =
        some (.ok (addressText env.ethAddress ++ putUint16 SW_OK), next) :=
      sends
    rw [publicKey, if_pos rfl, asked]
    dsimp only
    rw [front, returnCode, total, if_neg (by decide), back,
      beNat_putUint16 (by decide)]
  · rw [stands]
    exact held

/-- What signing a whole transaction returns for the device's answers: the
fields of the signature of the message, if the last answer brings it, else an
error. -/
inductive SignsTransaction (env : Env) (signing : Signing)
    (bytes : List UInt8) (chainId : Nat) (answers : List (List UInt8 × Nat)) :
    Except SigningError SignedFields -> Prop
  | nothing (empty : bytes = []) :
      SignsTransaction env signing bytes chainId answers
        (.error (.js .typeError))
  | rejected (present : bytes ≠ []) {data : List UInt8} {code : Nat}
      (last : answers.getLast? = some (data, code)) (other : code ≠ SW_OK) :
      SignsTransaction env signing bytes chainId answers
        (.error .confirmReject)
  | signed (fits : bytes.length ≤ 1020) (accepts : signing.Accepts bytes)
      (last : answers.getLast? =
        some (env.signature (env.keccak bytes), SW_OK)) :
      SignsTransaction env signing bytes chainId answers
        (.ok (signedFields (env.signature (env.keccak bytes)) chainId))

/-- Over an idle device that answers the requests, what is signed is the
transaction of the device's own account: the fields are those of the signature
of the unsigned transaction that was made for the device's address. -/
theorem signTransaction_returns {τ : Type} {send : Transport τ}
    {view : τ -> Device build × List (List Press)}
    (relays : RelaysRequests send env view) {state : τ}
    {unsigned : List UInt8 -> List UInt16} (chainId : Nat)
    (idle : (view state).1.screen = .idle)
    (answered : Device.answers env (view state) (publicKeyRequest ::
      signRequests signing.ins
        (hexToBytes (unsigned (addressText env.ethAddress)))) =
          some answers) :
    ∃ result final,
      signing.signTransaction send unsigned chainId state =
        some (result, final) ∧
      SignsTransaction env signing
        (hexToBytes (unsigned (addressText env.ethAddress))) chainId answers
        result := by
  obtain ⟨next, rest, fetched, waits, goesOn, rfl⟩ :=
    publicKey_returns relays (waits_of_idle env idle) answered
  obtain ⟨result, final, signs, returns⟩ :=
    signBuffer_returns relays waits goesOn
  rw [Signing.signTransaction_eq, signUnsigned, fetched]
  dsimp only
  rw [if_neg (by decide), if_neg (by decide), Signing.sign_eq, signs]
  have ends {first answer : List UInt8 × Nat}
      (last : rest.getLast? = some answer) :
      (first :: rest).getLast? = some answer := by
    rw [List.getLast?_cons, last]
    rfl
  cases returns with
  | nothing empty => exact ⟨_, final, rfl, .nothing empty⟩
  | refused present last other =>
      exact ⟨_, final, rfl, .rejected present (ends last) other⟩
  | signed present fits accepts last =>
      exact ⟨_, final, rfl, .signed fits accepts (ends last)⟩

/-- A transfer of one token, for any account. -/
theorem signTransaction_returns_oneToken :
    ∃ answers result final,
      Signing.tx.signTransaction (Device.send (.ofTables [] []))
        (fun _ => hexMessage oneToken.encode) 1
        (.boot .nanoX, [[], [.accept]]) = some (result, final) ∧
      SignsTransaction (.ofTables [] []) .tx
        (hexToBytes (hexMessage oneToken.encode)) 1 answers result := by
  have ends : (Device.answers (.ofTables [] [])
      (.boot .nanoX, [[], [.accept]]) (publicKeyRequest ::
        signRequests Signing.tx.ins
          (hexToBytes (hexMessage oneToken.encode)))).isSome := by
    decide +kernel
  obtain ⟨answers, answered⟩ := Option.isSome_iff_exists.mp ends
  exact ⟨answers, signTransaction_returns (relaysRequests_send _) 1 rfl
    answered⟩

end Signs

end LedgerOne
