import LedgerOne.Host.NanoS
import LedgerOne.Security.Hosts

/-!
# What the commands get

The hosts in Go over the application.  The command line gets the signature of
its message if the user agrees, as the SDK does; the wallet driver never gets
one.
-/

namespace LedgerOne

/-! ## Answers of the application -/

/-- The device behind a port answers a request, after some presses, as the
application does. -/
def ReadWriter.Relays {ρ : Type} (rw : ReadWriter ρ) (env : Env) (port : ρ)
    (device : Device build) (apdu : APDU) (presses : List Press) : Prop :=
  ∃ (short : apdu.payload.length ≤ 255) (after : Device build)
    (effects : List Effect) (data : List UInt8) (code : Nat) (last : ρ),
    device.converse env (apdu.received short) presses = .ok (after, effects) ∧
    answerOf effects = some (data, code) ∧
    rw.Answers port apdu.bytes (data ++ putUint16 code) last

/-- What a command yields, without the framer and the device. -/
def Command.result {ρ α : Type} (command : Command ρ α)
    (state : HidFramer × ρ) : Option (Except NanoSError α) :=
  (command state).map fun result => result.map Prod.fst

/-- What is made of the data of an answer with a status. -/
def codeAnswer (data : List UInt8) (code : Nat) :
    Except NanoSError (List UInt8) :=
  match codeError code with
  | some error => .error error
  | none => .ok data

theorem statusOf_lt {e : Nat} (small : e < 0x1000) : statusOf e < 2 ^ 16 := by
  unfold statusOf
  split_ifs with passes
  · omega
  · exact Nat.or_lt_two_pow (by decide)
      (lt_of_le_of_lt Nat.and_le_right (by decide))

/-- The status codes other than `codeSuccess` are errors. -/
theorem exists_codeError {code : Nat} (other : code ≠ SW_OK) :
    ∃ error, codeError code = some error := by
  unfold codeError
  rw [if_neg (show code ≠ codeSuccess from other)]
  split_ifs <;> exact ⟨_, rfl⟩

section Answers

variable {ρ : Type} {rw : ReadWriter ρ}

theorem decodeAnswer_putUint16 (data : List UInt8) {code : Nat}
    (small : code < 2 ^ 16) :
    decodeAnswer (data ++ putUint16 code) = codeAnswer data code := by
  have length : (data ++ putUint16 code).length = data.length + 2 :=
    List.length_append
  rw [decodeAnswer, length, if_neg (by omega), Nat.add_sub_cancel,
    List.drop_left' rfl, List.take_left' rfl, beNat_putUint16 small]
  rfl

/-- What an exchange makes of an answer. -/
theorem result_nanoSExchange {cmd p1 p2 : UInt8} {payload data : List UInt8}
    {code : Nat} {hf : HidFramer} {port last : ρ}
    (short : payload.length ≤ 255) (few : data.length ≤ 255)
    (small : code < 2 ^ 16)
    (answers : rw.Answers port
      (⟨0xe0, cmd, p1, p2, payload⟩ : APDU).bytes (data ++ putUint16 code)
      last) :
    (nanoSExchange rw cmd p1 p2 payload).result (hf, port) =
      some (codeAnswer data code) := by
  have length : (data ++ putUint16 code).length = data.length + 2 :=
    List.length_append
  obtain ⟨next, exchanged⟩ :=
    apduExchange_answers rw ⟨0xe0, cmd, p1, p2, payload⟩ hf short
      (show (data ++ putUint16 code).length < 2 ^ 16 by omega) answers
  have decoded := decodeAnswer_putUint16 data small
  rw [Command.result, nanoSExchange, exchanged]
  dsimp only
  rw [decoded, Option.map_some]
  cases codeAnswer data code <;> rfl

/-- What a check makes of it. -/
theorem result_checked {α : Type} {command : Command ρ (List UInt8)}
    (check : List UInt8 -> Except NanoSError α) {state : HidFramer × ρ}
    {answer : Except NanoSError (List UInt8)}
    (yields : command.result state = some answer) :
    (command.checked check).result state = some (answer.bind check) := by
  obtain ⟨result, runs, same⟩ := Option.map_eq_some_iff.mp yields
  subst same
  rw [Command.result, Command.checked, runs, Option.map_some, Option.map_some]
  cases result with
  | error error => rfl
  | ok got =>
      show some (Except.map Prod.fst ((check got.1).map _)) =
        some (check got.1)
      cases check got.1 <;> rfl

theorem result_checkSignature {command : Command ρ (List UInt8)}
    {state : HidFramer × ρ} {env : Env} {bytes : List UInt8}
    (yields : command.result state =
      some (codeAnswer (env.signature (env.keccak bytes)) SW_OK)) :
    (command.checked checkSignature).result state =
      some (.ok (env.signature (env.keccak bytes))) := by
  have length := length_signature env bytes
  have checks : checkSignature (env.signature (env.keccak bytes)) =
      .ok (env.signature (env.keccak bytes)) := by
    rw [checkSignature, if_neg (by omega), List.take_of_length_le (by omega)]
  rw [result_checked checkSignature yields]
  exact congrArg some checks

/-- An error stays one. -/
theorem result_refused {command : Command ρ (List UInt8)}
    {state : HidFramer × ρ} {data : List UInt8} {code : Nat}
    {error : NanoSError} {α : Type}
    (check : List UInt8 -> Except NanoSError α)
    (refused : codeError code = some error)
    (yields : command.result state = some (codeAnswer data code)) :
    (command.checked check).result state = some (.error error) := by
  rw [result_checked check yields, codeAnswer, refused]
  rfl

end Answers

/-! ## The command line -/

section Commands

variable {ρ : Type} (rw : ReadWriter ρ) (env : Env) (signing : Signing)
  (bytes : List UInt8)

/-- The commands that have a message signed. -/
def Signing.command : Command ρ (List UInt8) :=
  match signing with
  | .tx => nanoSSignTxn rw bytes
  | .staking => nanoSSignStake rw bytes

/-- The request of both. -/
def Signing.request : APDU := ⟨0xe0, signing.ins, p1First, p2Finish, bytes⟩

theorem Signing.command_eq : signing.command rw bytes =
    (nanoSExchange rw signing.ins p1First p2Finish bytes).checked
      checkSignature := by
  cases signing <;> rfl

variable (device : Device build) (presses : List Press)

/-- The application's answer to a whole message, after some presses. -/
def Signing.Answered (data : List UInt8) (code : Nat) : Prop :=
  Device.answers env (device, [presses]) [signing.request bytes] =
    some [(data, code)]

/-- What the commands yield for the application's answer: the signature of the
message if it is signed, else an error; a long message is never sent. -/
inductive CommandReturns : Except NanoSError (List UInt8) -> Prop
  | tooLong (exceeds : 255 < bytes.length) :
      CommandReturns (.error (.host
        (.panic "APDU payload cannot exceed 255 bytes")))
  | unaccepted (fits : bytes.length ≤ 255)
      (notAccepted : ¬signing.Accepts bytes)
      (answered : signing.Answered env bytes device presses []
        (statusOf env.invalidParameter)) {error : NanoSError}
      (refused : codeError (statusOf env.invalidParameter) = some error) :
      CommandReturns (.error error)
  | canceled (fits : bytes.length ≤ 255) (accepts : signing.Accepts bytes)
      (answered : signing.Answered env bytes device presses []
        SW_USER_REJECTED) :
      CommandReturns (.error .userRejected)
  | signed (fits : bytes.length ≤ 255) (accepts : signing.Accepts bytes)
      (answered : signing.Answered env bytes device presses
        (env.signature (env.keccak bytes)) SW_OK) :
      CommandReturns (.ok (env.signature (env.keccak bytes)))

variable {rw env signing bytes device presses} {port : ρ}

/-- The answers that a device that waits gives to a whole message. -/
inductive WholeAnswer (env : Env) (signing : Signing) (bytes : List UInt8) :
    List UInt8 -> Nat -> Prop
  | unaccepted (notAccepted : ¬signing.Accepts bytes) :
      WholeAnswer env signing bytes [] (statusOf env.invalidParameter)
  | canceled (accepts : signing.Accepts bytes) :
      WholeAnswer env signing bytes [] SW_USER_REJECTED
  | signed (accepts : signing.Accepts bytes) :
      WholeAnswer env signing bytes (env.signature (env.keccak bytes)) SW_OK

theorem wholeAnswer_of_converse {after : Device build}
    {effects : List Effect} {data : List UInt8} {code : Nat}
    (waits : device.Waits env none)
    (short : (signing.request bytes).payload.length ≤ 255)
    (converses : device.converse env ((signing.request bytes).received short)
      presses = .ok (after, effects))
    (answers : answerOf effects = some (data, code)) :
    WholeAnswer env signing bytes data code := by
  have addressed : ((signing.request bytes).received short).signing =
      some signing := by
    cases signing <;> rfl
  have extended : gatheredWith none signing
      ((signing.request bytes).received short) = some bytes := rfl
  have whole : bytes.length ≤ 255 := short
  obtain ⟨-, accepts, rfl | rfl | rfl⟩ | ⟨other, refusal, refused⟩ :=
    converse_last waits addressed extended converses rfl
  · cases answers
  · cases answers
    exact .signed accepts
  · cases answers
    exact .canceled accepts
  · rw [refused] at answers
    cases answers
    cases refusal with
    | tooLong exceeds => omega
    | unaccepted _ notAccepted => exact .unaccepted notAccepted

theorem answered_of_converse {after : Device build} {effects : List Effect}
    {data : List UInt8} {code : Nat}
    (short : (signing.request bytes).payload.length ≤ 255)
    (converses : device.converse env ((signing.request bytes).received short)
      presses = .ok (after, effects))
    (answers : answerOf effects = some (data, code)) :
    signing.Answered env bytes device presses data code :=
  answers_last short converses answers

/-- On an idle device `SignTxn` and `SignStake` yield the signature of the
message, or an error, as the application has answered it, whatever the user
presses. -/
theorem command_returns (hf : HidFramer) (idle : device.screen = .idle)
    (relays : bytes.length ≤ 255 ->
      rw.Relays env port device (signing.request bytes) presses) :
    ∃ result, (signing.command rw bytes).result (hf, port) = some result ∧
      CommandReturns env signing bytes device presses result := by
  rw [Signing.command_eq]
  by_cases short : bytes.length ≤ 255
  · obtain ⟨_, after, effects, data, code, last, converses, answers, serves⟩ :=
      relays short
    have answered := answered_of_converse short converses answers
    cases wholeAnswer_of_converse (waits_of_idle env idle) short converses
      answers with
    | unaccepted notAccepted =>
        obtain ⟨error, refused⟩ :=
          exists_codeError (statusOf_ne_ok env.invalidParameter_lt)
        exact ⟨_, result_refused checkSignature refused
          (result_nanoSExchange short (Nat.zero_le _)
            (statusOf_lt env.invalidParameter_lt) serves),
          .unaccepted short notAccepted answered refused⟩
    | canceled accepts =>
        exact ⟨_, result_refused checkSignature rfl
          (result_nanoSExchange short (Nat.zero_le _) (by decide) serves),
          .canceled short accepts answered⟩
    | signed accepts =>
        have length := length_signature env bytes
        exact ⟨_, result_checkSignature
          (result_nanoSExchange short (by omega) (by decide) serves),
          .signed short accepts answered⟩
  · have long : 255 < bytes.length := by omega
    refine ⟨_, ?_, .tooLong long⟩
    rw [Command.result, Command.checked, nanoSExchange, apduExchange,
      if_pos long]
    rfl

/-- A port that relays an answer of the application. -/
theorem exists_relays {apdu : APDU} {answers : List (List UInt8 × Nat)}
    (answered : Device.answers env (device, [presses]) [apdu] =
      some answers) :
    ∃ port, replayed.Relays env port device apdu presses := by
  obtain ⟨short, after, effects, ⟨data, code⟩, converses, found, -⟩ :=
    exists_answer_of_answers answered
  exact ⟨_, short, after, effects, data, code, _, converses, found,
    replayed_answers apdu.bytes (data ++ putUint16 code) []⟩

theorem exists_relays_oneToken :
    ∃ port, replayed.Relays (.ofTables [] []) port (.boot .nanoX)
      (Signing.tx.request oneToken.encode) [.accept] := by
  have ends : (Device.answers (.ofTables [] []) (.boot .nanoX, [[.accept]])
      [Signing.tx.request oneToken.encode]).isSome := by
    decide +kernel
  obtain ⟨answers, answered⟩ := Option.isSome_iff_exists.mp ends
  exact exists_relays answered

/-- A transfer of one token that the user agrees to. -/
theorem command_returns_oneToken :
    ∃ port result, (Signing.tx.command replayed oneToken.encode).result
        (.opened, port) = some result ∧
      CommandReturns (.ofTables [] []) .tx oneToken.encode (.boot .nanoX)
        [.accept] result := by
  obtain ⟨port, relays⟩ := exists_relays_oneToken
  exact ⟨port, command_returns .opened rfl fun _ => relays⟩

/-! ## The two hosts -/

/-- The SDK sends a short message as the command line does. -/
theorem signRequests_short (present : bytes ≠ [])
    (short : bytes.length ≤ 255) :
    Sdk.signRequests signing.ins bytes = [signing.request bytes] := by
  have once : chunks Sdk.CHUNK_SIZE bytes = [bytes] := by
    have whole : bytes.length ≤ Sdk.CHUNK_SIZE := short
    rw [chunks_cons (by decide) present, List.take_of_length_le whole,
      List.drop_of_length_le whole]
    rfl
  rw [Sdk.signRequests, once]
  rfl

/-- Both hosts have the signature, or neither has. -/
inductive HostsAgree (env : Env) (bytes : List UInt8) :
    Sdk.Response -> Except NanoSError (List UInt8) -> Prop
  | signed : HostsAgree env bytes
      ⟨env.signature (env.keccak bytes), some SW_OK⟩
      (.ok (env.signature (env.keccak bytes)))
  | failed {error : NanoSError} : HostsAgree env bytes
      Sdk.processErrorResponse (.error error)

/-- The SDK and the command line make the same of the same presses, whatever
transport and port they reach the device through. -/
theorem hosts_agree {τ : Type} {send : Sdk.Transport τ}
    {view : τ -> Device build × List (List Press)}
    (requests : RelaysRequests send env view) {state : τ}
    (stands : view state = (device, [presses])) (hf : HidFramer)
    (idle : device.screen = .idle) (present : bytes ≠ [])
    (short : bytes.length ≤ 255)
    (relays : rw.Relays env port device (signing.request bytes) presses) :
    ∃ response final result,
      signing.sign send (Sdk.hexMessage bytes) state =
        some (.ok response, final) ∧
      (signing.command rw bytes).result (hf, port) = some result ∧
      HostsAgree env bytes response result := by
  obtain ⟨_, after, effects, data, code, last, converses, answers, serves⟩ :=
    relays
  have answered : Device.answers env (view state) [signing.request bytes] =
      some [(data, code)] := by
    rw [stands]
    exact answered_of_converse short converses answers
  obtain ⟨final, sends⟩ := sendAll_answers requests none answered
  rw [Signing.sign_eq, Sdk.hexToBytes_hexMessage, Signing.command_eq,
    Sdk.signBuffer, signRequests_short present short, sends, lastSent,
    List.getLast?_singleton]
  dsimp only
  rw [sentAnswer]
  cases wholeAnswer_of_converse (waits_of_idle env idle) short converses
    answers with
  | unaccepted notAccepted =>
      obtain ⟨error, refused⟩ :=
        exists_codeError (statusOf_ne_ok env.invalidParameter_lt)
      rw [if_neg (statusOf_ne_ok env.invalidParameter_lt)]
      exact ⟨_, _, _, rfl, result_refused checkSignature refused
        (result_nanoSExchange short (Nat.zero_le _)
          (statusOf_lt env.invalidParameter_lt) serves), .failed⟩
  | canceled accepts =>
      rw [if_neg (by decide)]
      exact ⟨_, _, _, rfl, result_refused checkSignature rfl
        (result_nanoSExchange short (Nat.zero_le _) (by decide) serves),
        .failed⟩
  | signed accepts =>
      have length := length_signature env bytes
      rw [if_pos rfl]
      refine ⟨_, _, _, rfl, result_checkSignature
        (result_nanoSExchange short (by omega) (by decide) serves), ?_⟩
      have same := response_signed env bytes
      rw [signedResponse] at same
      rw [same]
      exact .signed

/-- Both hosts with a transfer of one token that the user agrees to. -/
theorem hosts_agree_oneToken :
    ∃ port response final result,
      Signing.tx.sign (Device.send (.ofTables [] []))
        (Sdk.hexMessage oneToken.encode) (.boot .nanoX, [[.accept]]) =
          some (.ok response, final) ∧
      (Signing.tx.command replayed oneToken.encode).result (.opened, port) =
        some result ∧
      HostsAgree (.ofTables [] []) oneToken.encode response result := by
  obtain ⟨port, relays⟩ := exists_relays_oneToken
  have present : oneToken.encode ≠ [] := by decide +kernel
  exact ⟨port, hosts_agree (relaysRequests_send _) rfl .opened rfl present
    length_oneToken_le relays⟩

end Commands

/-! ## Addresses -/

section Addresses

variable {ρ : Type} {rw : ReadWriter ρ} {env : Env} {device : Device build}
  {presses : List Press} {port : ρ}

/-- The request of `GetAddress`, in both hosts. -/
def addressRequest : APDU :=
  ⟨0xe0, cmdGetPublicKey, 0, p2DisplayAddress, []⟩

theorem addressee_addressRequest
    (short : addressRequest.payload.length ≤ 255) :
    (addressRequest.received short).addressee = some .getPublicKey :=
  rfl

/-- On an idle device `GetAddress` yields the device's address, or that the
user has denied it. -/
theorem address_returns (hf : HidFramer) (idle : device.screen = .idle)
    (relays : rw.Relays env port device addressRequest presses) :
    ∃ result, (nanoSGetAddress rw).result (hf, port) = some result ∧
      (result = .ok (addressText env.ethAddress) ∨
        result = .error .userRejected) := by
  obtain ⟨short, after, effects, data, code, last, converses, answers,
    serves⟩ := relays
  have length := length_addressText env.ethAddress
  obtain rfl | rfl | rfl := converse_askAddress (waits_of_idle env idle)
    converses (addressee_addressRequest short) rfl
  · cases answers
  · cases answers
    refine ⟨_, result_checked _ (result_nanoSExchange short (by omega)
      (by decide) serves), Or.inl ?_⟩
    show (if _ then _ else _) = _
    rw [if_neg (by omega), List.take_of_length_le (by omega)]
  · cases answers
    exact ⟨_, result_refused _ rfl
      (result_nanoSExchange short (Nat.zero_le _) (by decide) serves),
      Or.inr rfl⟩

/-- A user who denies it. -/
theorem address_returns_denied :
    ∃ port result, (nanoSGetAddress replayed).result (.opened, port) =
        some result ∧
      (result = .ok (addressText (Env.ofTables [] []).ethAddress) ∨
        result = .error .userRejected) := by
  have ends : (Device.answers (.ofTables [] []) (.boot .nanoX, [[.cancel]])
      [addressRequest]).isSome := by
    decide +kernel
  obtain ⟨answers, answered⟩ := Option.isSome_iff_exists.mp ends
  obtain ⟨port, relays⟩ := exists_relays answered
  exact ⟨port, address_returns .opened rfl relays⟩

end Addresses

/-! ## The wallet driver -/

section Wallet

variable {ρ : Type} {rw : ReadWriter ρ} {env : Env} {device : Device build}
  {presses : List Press} {port : ρ}

/-- A packet with more to come is answered at once and without data, whatever
the device is doing. -/
theorem answerOf_unfinished {signing : Signing} {apdu : Apdu}
    {after : Device build} {effects : List Effect} {data : List UInt8}
    {code : Nat} (addressed : apdu.signing = some signing)
    (more : apdu.p2 ≠ P2_FINISH)
    (converses : device.converse env apdu presses = .ok (after, effects))
    (answers : answerOf effects = some (data, code)) :
    data = [] ∧ (code = SW_OK ∨
      signing.Refused apdu device.ctx ∧
        code = statusOf env.exceptionOverflow) := by
  obtain ⟨next, first, rest, steps, goesOn, rfl⟩ := Machine.run_cons converses
  by_cases tooLong : signing.Refused apdu device.ctx
  · rw [step_refused addressed tooLong] at steps
    cases steps
    cases answers
    exact ⟨rfl, Or.inr ⟨tooLong, rfl⟩⟩
  · rw [step_collected env addressed tooLong more] at steps
    cases steps
    cases answers
    exact ⟨rfl, Or.inl rfl⟩

/-- An answer without data is no signature. -/
theorem exists_error_of_empty {command : Command ρ (List UInt8)}
    {state : HidFramer × ρ} {code : Nat}
    (yields : command.result state = some (codeAnswer [] code)) :
    ∃ error, (command.checked checkSignature).result state =
      some (.error error) := by
  rw [result_checked checkSignature yields, codeAnswer]
  cases codeError code with
  | some error => exact ⟨error, rfl⟩
  | none => exact ⟨.signatureLength, rfl⟩

/-- The wallet driver never gets a signature, from whatever device and
whatever the user presses: none of its requests finishes a message. -/
theorem wallet_signsNothing (hf : HidFramer) :
    (∀ txn : List UInt8,
      (txn.length ≤ 255 -> rw.Relays env port device
        ⟨0xe0, cmdSignTx, p1More, p2SignHash, txn⟩ presses) ->
      ∃ error, (walletSignTxn rw txn).result (hf, port) =
        some (.error error)) ∧
    (∀ hash : List UInt8, hash.length = 32 ->
      rw.Relays env port device ⟨0xe0, cmdSignHash, 0, 0, hash⟩ presses ->
      (walletSignHash rw hash).result (hf, port) =
        some (.error .signatureLength)) := by
  constructor
  · intro txn relays
    by_cases short : txn.length ≤ 255
    · obtain ⟨_, after, effects, data, code, last, converses, answers,
        serves⟩ := relays short
      have addressed : (APDU.received
          ⟨0xe0, cmdSignTx, p1More, p2SignHash, txn⟩ short).signing =
        some .tx := rfl
      obtain ⟨rfl, status⟩ := answerOf_unfinished addressed
        (show p2SignHash ≠ P2_FINISH by decide) converses answers
      have small : code < 2 ^ 16 := by
        obtain rfl | ⟨_, rfl⟩ := status
        · decide
        · exact statusOf_lt env.exceptionOverflow_lt
      exact exists_error_of_empty
        (result_nanoSExchange short (Nat.zero_le _) small serves)
    · refine ⟨.host (.panic "APDU payload cannot exceed 255 bytes"), ?_⟩
      rw [Command.result, walletSignTxn, Command.checked, nanoSExchange,
        apduExchange, if_pos (show 255 < txn.length by omega)]
      rfl
  · intro hash length relays
    obtain ⟨short, after, effects, data, code, last, converses, answers,
      serves⟩ := relays
    have addressed : (APDU.received
        ⟨0xe0, cmdSignHash, 0, 0, hash⟩ short).signing = some .staking := rfl
    obtain ⟨rfl, rfl | ⟨tooLong, -⟩⟩ := answerOf_unfinished addressed
      (show (0 : UInt8) ≠ P2_FINISH by decide) converses answers
    · rw [walletSignHash, result_checked checkSignature
        (result_nanoSExchange short (Nat.zero_le _) (by decide) serves)]
      rfl
    · have start : (Signing.staking.opened (APDU.received
          ⟨0xe0, cmdSignHash, 0, 0, hash⟩ short) device.ctx).length = 0 := rfl
      rw [Signing.Refused, start] at tooLong
      exact absurd tooLong (Nat.not_lt.mpr (by
        show 0 + hash.length ≤ 1020
        omega))

/-- A hash of zeros. -/
def zeroHash : List UInt8 := List.replicate 32 0

/-- A transfer of one token and a hash. -/
theorem wallet_signsNothing_oneToken :
    (∃ port error, (walletSignTxn replayed oneToken.encode).result
      (.opened, port) = some (.error error)) ∧
    ∃ port, (walletSignHash replayed zeroHash).result (.opened, port) =
      some (.error .signatureLength) := by
  have txnEnds : (Device.answers (.ofTables [] []) (.boot .nanoX, [[.accept]])
      [⟨0xe0, cmdSignTx, p1More, p2SignHash, oneToken.encode⟩]).isSome := by
    decide +kernel
  have hashEnds : (Device.answers (.ofTables [] [])
      (.boot .nanoX, [[.accept]])
      [⟨0xe0, cmdSignHash, 0, 0, zeroHash⟩]).isSome := by
    decide +kernel
  obtain ⟨_, txnAnswered⟩ := Option.isSome_iff_exists.mp txnEnds
  obtain ⟨_, hashAnswered⟩ := Option.isSome_iff_exists.mp hashEnds
  obtain ⟨txnPort, txnRelays⟩ := exists_relays txnAnswered
  obtain ⟨hashPort, hashRelays⟩ := exists_relays hashAnswered
  exact ⟨⟨txnPort, (wallet_signsNothing .opened).1 _ fun _ => txnRelays⟩,
    hashPort, (wallet_signsNothing .opened).2 _ rfl hashRelays⟩

end Wallet

end LedgerOne
