import LedgerOne.Security.Hosts
import LedgerOne.Security.Pages

/-!
# Messages that the SDK has signed

The packets of the SDK are the session of their message, and on the Nano X the
pages that the session leads to decide what the SDK returns.
-/

namespace LedgerOne

open Rlp Sdk

/-! ## The packets of a message -/

section Sessions

variable {signing : Signing}

/-- A packet of the SDK. -/
theorem exists_sent (signing : Signing) (count index : Nat)
    {chunk : List UInt8} (short : chunk.length ≤ 255) :
    ∃ apdu : Apdu, apdu.sent = signRequest signing.ins count (chunk, index) ∧
      apdu.signing = some signing ∧ apdu.data = chunk ∧
      (apdu.p1 = LedgerOne.P1_FIRST ↔ index = 0) ∧
      (apdu.p2 = LedgerOne.P2_FINISH ↔ index = count - 1) := by
  refine ⟨(signRequest signing.ins count (chunk, index)).received short, rfl,
    signing_signRequest, rfl, ?_, p2_signRequest_iff⟩
  show (if index = 0 then Sdk.P1_FIRST else Sdk.P1_MORE) = _ ↔ _
  split_ifs with first
  · exact ⟨fun _ => first, fun _ => rfl⟩
  · exact ⟨fun same => absurd same (by decide), fun same => absurd same first⟩

/-- The packets behind the first one complete a session. -/
theorem session_later {pieces : List (List UInt8)} (present : pieces ≠ [])
    (short : ∀ chunk ∈ pieces, chunk.length ≤ 255) {index count : Nat}
    (later : 0 < index) (counts : count = index + pieces.length)
    {before : List Apdu} (opens : signing.Opens before) :
    ∃ front last, (pieces.zipIdx index).map (signRequest signing.ins count) =
        (front ++ [last]).map Apdu.sent ∧
      signing.Session (before ++ front) last ∧
      messageOf (front ++ [last]) = pieces.flatten := by
  induction pieces generalizing index before with
  | nil => exact absurd rfl present
  | cons chunk pieces inductionHypothesis =>
      rw [List.length_cons] at counts
      obtain ⟨apdu, sent, addressed, data, first, finish⟩ :=
        exists_sent signing count index (short chunk List.mem_cons_self)
      have other : apdu.p1 ≠ LedgerOne.P1_FIRST := fun same => by
        have := first.mp same
        omega
      rw [List.zipIdx_cons, List.map_cons, ← sent, List.flatten_cons, ← data]
      by_cases empty : pieces = []
      · subst empty
        refine ⟨[], apdu, rfl, ?_, ?_⟩
        · rw [List.append_nil]
          exact .several opens addressed other (finish.mpr (by
            rw [counts, List.length_nil]
            omega))
        · rw [List.nil_append, messageOf, List.flatMap_singleton,
            List.flatten_nil, List.append_nil]
      · have length := List.length_pos_iff.mpr empty
        have more : apdu.p2 ≠ LedgerOne.P2_FINISH := fun same => by
          have := finish.mp same
          omega
        obtain ⟨front, last, requests, session, message⟩ :=
          inductionHypothesis empty
            (fun other member => short other (List.mem_cons_of_mem _ member))
            (Nat.succ_pos index) (by omega) (opens.next addressed other more)
        refine ⟨apdu :: front, last, ?_, ?_, ?_⟩
        · rw [requests]
          rfl
        · rwa [List.append_assoc] at session
        · rw [← message]
          rfl

/-- The packets of a message are a session. -/
theorem session_signRequests (signing : Signing) {bytes : List UInt8}
    (present : bytes ≠ []) :
    ∃ front last, signRequests signing.ins bytes =
        (front ++ [last]).map Apdu.sent ∧
      signing.Session front last ∧ messageOf (front ++ [last]) = bytes := by
  have whole := flatten_chunks (show 0 < CHUNK_SIZE by decide) bytes
  have some := chunks_ne_nil (show 0 < CHUNK_SIZE by decide) present
  have short : ∀ chunk ∈ chunks CHUNK_SIZE bytes, chunk.length ≤ 255 :=
    fun chunk member => (length_of_mem_chunks (by decide) member).2
  unfold signRequests
  dsimp only
  generalize chunks CHUNK_SIZE bytes = pieces at whole some short ⊢
  cases pieces with
  | nil => exact absurd rfl some
  | cons chunk pieces =>
      obtain ⟨apdu, sent, addressed, data, first, finish⟩ :=
        exists_sent signing (chunk :: pieces).length 0
          (short chunk List.mem_cons_self)
      rw [List.flatten_cons, ← data] at whole
      rw [List.zipIdx_cons, List.map_cons, ← sent, ← whole]
      by_cases empty : pieces = []
      · subst empty
        refine ⟨[], apdu, rfl, .single addressed (first.mpr rfl)
          (finish.mpr rfl), ?_⟩
        rw [List.nil_append, messageOf, List.flatMap_singleton,
          List.flatten_nil, List.append_nil]
      · have length := List.length_pos_iff.mpr empty
        have more : apdu.p2 ≠ LedgerOne.P2_FINISH := fun same => by
          have := finish.mp same
          rw [List.length_cons] at this
          omega
        obtain ⟨front, last, requests, session, message⟩ :=
          session_later empty
            (fun other member => short other (List.mem_cons_of_mem _ member))
            (Nat.succ_pos 0)
            (show (chunk :: pieces).length = 0 + 1 + pieces.length by
              rw [List.length_cons]
              omega)
            (Signing.Opens.first addressed (first.mpr rfl) more)
        refine ⟨apdu :: front, last, ?_, session, ?_⟩
        · rw [requests]
          rfl
        · rw [← message]
          rfl

end Sessions

/-! ## The answers to the packets -/

section Answers

variable {env : Env} {device next : Device build} {script : List (List Press)}
  {apdu : Apdu} {data : List UInt8} {code : Nat}

/-- A packet with more to come is acknowledged. -/
theorem exists_step_collected (env : Env) {signing : Signing}
    {bytes : List UInt8}
    (addressed : apdu.signing = some signing)
    (opened : (signing.opened apdu device.ctx).Gathers bytes)
    (fits : (bytes ++ apdu.data).length ≤ 1020)
    (more : apdu.p2 ≠ LedgerOne.P2_FINISH) :
    ∃ next, (firmware env build).step device (.apdu apdu) =
        .ok (next, [.respond [] SW_OK]) ∧
      next.ctx.Gathers (bytes ++ apdu.data) :=
  ⟨_, step_collected env addressed (fits_of_gathers opened fits) more,
    gathers_collected opened⟩

/-- An acknowledged packet, and the answers after it. -/
theorem answers_step {apdus : List APDU} {rest : List (List UInt8 × Nat)}
    (steps : (firmware env build).step device (.apdu apdu) =
      .ok (next, [.respond data SW_OK]))
    (goesOn : Device.answers env (next, script) apdus = some rest) :
    Device.answers env (device, [] :: script) (apdu.sent :: apdus) =
      some ((data, SW_OK) :: rest) := by
  have converses : device.converse env apdu [] =
      .ok (next, [.respond data SW_OK]) := Machine.run_step steps rfl
  exact answers_accepted (show apdu.sent.payload.length ≤ 255 from
    apdu.length_data) converses rfl goesOn

/-- The packets before the last one are acknowledged. -/
theorem answers_opens (env : Env) {signing : Signing} {front : List Apdu}
    (opens : signing.Opens front) (fits : (messageOf front).length ≤ 1020)
    (device : Device build) :
    ∃ opened replies,
      (firmware env build).run (front.map .apdu) device =
        .ok (opened, replies) ∧
      opened.ctx.Gathers (messageOf front) ∧
      ∀ (script : List (List Press)) (apdus : List APDU)
        (rest : List (List UInt8 × Nat)),
        Device.answers env (opened, script) apdus = some rest ->
        Device.answers env (device, List.replicate front.length [] ++ script)
            (front.map Apdu.sent ++ apdus) =
          some (List.replicate front.length ([], SW_OK) ++ rest) := by
  induction opens with
  | first addressed first more =>
      rename_i apdu
      have opened : (signing.opened apdu device.ctx).Gathers [] :=
        gathers_opened_first first
      obtain ⟨next, steps, gathers⟩ := exists_step_collected env addressed
        opened (by simpa [messageOf] using fits) more
      refine ⟨next, _, Machine.run_step steps rfl, ?_, ?_⟩
      · simpa [messageOf] using gathers
      · intro script apdus rest goesOn
        exact answers_step steps goesOn
  | next opens addressed later more inductionHypothesis =>
      rename_i front apdu
      rw [messageOf_concat] at fits ⊢
      obtain ⟨before, replies, runs, gathers, answered⟩ :=
        inductionHypothesis (by simp at fits; omega)
      obtain ⟨next, steps, gathered⟩ := exists_step_collected env addressed
        (signing.gathers_opened_later later gathers) fits more
      refine ⟨next, replies ++ [.respond [] SW_OK], ?_, gathered, ?_⟩
      · rw [List.map_append]
        exact Machine.run_concat runs steps
      · intro script apdus rest goesOn
        have both := answered _ _ _ (answers_step steps goesOn)
        rw [List.map_append, List.length_append, List.length_singleton,
          List.replicate_succ', List.replicate_succ', List.append_assoc,
          List.append_assoc, List.append_assoc]
        exact both

/-- The packets of a session are answered, the last one by what comes of the
press after it. -/
theorem answers_session {signing : Signing} {front : List Apdu} {last : Apdu}
    {opened asking final : Device build} {replies effects : List Effect}
    {press : Press} (session : signing.Session front last)
    (fits : (messageOf (front ++ [last])).length ≤ 1020)
    (runs : (firmware env build).run (front.map .apdu) device =
      .ok (opened, replies))
    (asks : (firmware env build).step opened (.apdu last) = .ok (asking, []))
    (decides : (firmware env build).step asking (.press press) =
      .ok (final, effects))
    (answers : answerOf effects = some (data, code)) :
    Device.answers env
        (device, List.replicate front.length [] ++ [[press]])
        ((front ++ [last]).map Apdu.sent) =
      some (List.replicate front.length ([], SW_OK) ++ [(data, code)]) := by
  have once : (firmware env build).run [.press press] asking =
      .ok (final, effects ++ []) := Machine.run_step decides rfl
  have converses : opened.converse env last [press] =
      .ok (final, [] ++ (effects ++ [])) := Machine.run_step asks once
  rw [List.nil_append, List.append_nil] at converses
  have ends : Device.answers env (opened, [[press]]) [last.sent] =
      some [(data, code)] :=
    answers_last (show last.sent.payload.length ≤ 255 from last.length_data)
      converses answers
  rw [List.map_append, List.map_singleton]
  cases session with
  | single =>
      cases runs
      exact ends
  | several opens =>
      rw [messageOf_concat, List.length_append] at fits
      obtain ⟨ended, _, goesOn, -, answered⟩ :=
        answers_opens env opens (by omega) device
      rw [runs] at goesOn
      cases goesOn
      exact answered _ _ _ ends

end Answers

section Decided

variable {env : Env} {signing : Signing} {device : Device .nanoX}
  {bytes : List UInt8} {pages : List (List UInt8)}

/-- The session of a message leads to pages. -/
def Signing.Shows (env : Env) (signing : Signing) (device : Device .nanoX)
    (bytes : List UInt8) (pages : List (List UInt8)) : Prop :=
  ∀ front last, signing.Session front last ->
    messageOf (front ++ [last]) = bytes ->
    ShowsPages env device front last pages

/-- The presses after the packets of a message: none, and then the user's
decision. -/
def decision (bytes : List UInt8) (press : Press) : List (List Press) :=
  List.replicate ((chunks CHUNK_SIZE bytes).length - 1) [] ++ [[press]]

/-- What the SDK returns for a message over any transport to the device, when
the user ends the review with a press. -/
def Returns (env : Env) (signing : Signing) (device : Device .nanoX)
    (bytes : List UInt8) (press : Press) (response : Response) : Prop :=
  ∀ (τ : Type) (send : Transport τ)
    (view : τ -> Device .nanoX × List (List Press)) (state : τ),
    RelaysRequests send env view ->
    view state = (device, decision bytes press) ->
    ∃ final, signing.sign send (hexMessage bytes) state =
      some (.ok response, final)

/-- The message is signed or refused as the user decides on its pages. -/
structure Decided (env : Env) (signing : Signing) (device : Device .nanoX)
    (bytes : List UInt8) : Prop where
  accepted : Returns env signing device bytes .accept
    ⟨env.signature (env.keccak bytes), some SW_OK⟩
  canceled : Returns env signing device bytes .cancel processErrorResponse

/-- The packets of a session, as many as there are pieces. -/
theorem decision_eq {front : List Apdu} {last : Apdu}
    (requests : signRequests signing.ins bytes =
      (front ++ [last]).map Apdu.sent) (press : Press) :
    decision bytes press = List.replicate front.length [] ++ [[press]] := by
  have count := congrArg List.length requests
  rw [signRequests, List.length_map, List.length_zipIdx, List.length_map,
    List.length_append, List.length_singleton] at count
  rw [decision, count, Nat.add_sub_cancel]

/-- What the SDK makes of the last answer to a message. -/
theorem returns_of_answers {press : Press} {count : Nat} {data : List UInt8}
    {code : Nat}
    (answered : Device.answers env (device, decision bytes press)
      (signRequests signing.ins bytes) =
        some (List.replicate count ([], SW_OK) ++ [(data, code)])) :
    Returns env signing device bytes press
      (if code = SW_OK then
        ⟨(data ++ putUint16 code).take 65, returnCode (data ++ putUint16 code)⟩
      else processErrorResponse) := by
  intro τ send view state relays same
  rw [← same] at answered
  obtain ⟨final, sends⟩ := sendAll_answers relays none answered
  refine ⟨final, ?_⟩
  rw [Signing.sign_eq, hexToBytes_hexMessage, signBuffer, sends, lastSent,
    List.getLast?_concat]
  dsimp only
  rw [sentAnswer]
  split_ifs <;> rfl

/-- The pages of a message decide about it. -/
theorem decided_of_shows (shows : signing.Shows env device bytes pages)
    (present : bytes ≠ []) (short : bytes.length ≤ 1020) :
    Decided env signing device bytes := by
  obtain ⟨front, last, requests, session, message⟩ :=
    session_signRequests signing present
  obtain ⟨opened, replies, asking, runs, asks, -, decides⟩ :=
    shows front last session message
  rw [message] at decides
  have answered : ∀ {press final effects data code},
      (firmware env .nanoX).step asking (.press press) =
        .ok (final, effects) ->
      answerOf effects = some (data, code) ->
      Device.answers env (device, decision bytes press)
          (signRequests signing.ins bytes) =
        some (List.replicate front.length ([], SW_OK) ++ [(data, code)]) := by
    intro press final effects data code pressed answers
    rw [requests, decision_eq requests]
    exact answers_session session (by rwa [message]) runs asks pressed answers
  constructor
  · obtain ⟨next, pressed⟩ := decides.agrees
    have returns := returns_of_answers (answered pressed rfl)
    rw [if_pos rfl] at returns
    have same := response_signed env bytes
    rw [signedResponse] at same
    rwa [same] at returns
  · obtain ⟨next, pressed⟩ := decides.declines
    have returns := returns_of_answers (answered pressed rfl)
    rwa [if_neg (by decide)] at returns

end Decided

/-! ## Encoded messages -/

section Encoded

variable (env : Env) (device : Device .nanoX)

/-- A message is reviewed: however a host cuts it into packets, the pages are
shown, and what the SDK returns for it is what the user decides. -/
structure Reviewed (signing : Signing) (bytes : List UInt8)
    (pages : List (List UInt8)) : Prop where
  shows : signing.Shows env device bytes pages
  decided : Decided env signing device bytes

theorem encode_list_ne_nil (items : List Item) :
    (Item.list items).encode ≠ [] := by
  rw [Item.encode_list]
  exact List.ne_nil_of_length_pos
    (Nat.zero_lt_of_lt (length_lt_encodeList (Item.encodeAll items)))

/-- Transfers are shown as they are, and signed as the user decides. -/
theorem transfer_reviewed {message : TransferMessage}
    (short : message.encode.length ≤ 1020) :
    Reviewed env device .tx message.encode
      ([ascii "Review", ascii "Transaction"] ++ message.pages ++
        [ascii "Accept", ascii "and send", ascii "Reject"]) := by
  have shows : Signing.tx.Shows env device message.encode _ :=
    fun front last session sends => transfer_showsPages short session sends
  exact ⟨shows, decided_of_shows shows (encode_list_ne_nil _) short⟩

theorem length_oneToken : oneToken.encode.length ≤ 1020 :=
  length_oneToken_le.trans (by decide)

/-- A transfer of one token. -/
theorem transfer_reviewed_oneToken :
    Reviewed (.ofTables [] []) (.boot .nanoX) .tx oneToken.encode
      ([ascii "Review", ascii "Transaction"] ++ oneToken.pages ++
        [ascii "Accept", ascii "and send", ascii "Reject"]) :=
  transfer_reviewed _ _ length_oneToken

/-- Staking transactions are shown as they are, and signed as the user
decides. -/
theorem staking_reviewed {transaction : StakingTransaction}
    (fits : IsValidatorOperation transaction.message.directive ->
      FitsNanoX transaction.message.content)
    (short : transaction.encode.length ≤ 1020) :
    Reviewed env device .staking transaction.encode
      ([ascii "Verify", ascii "Staking"] ++ transaction.message.pages ++
        stakingDecision) := by
  have shows : Signing.staking.Shows env device transaction.encode _ :=
    fun front last session sends => staking_showsPages fits short session sends
  exact ⟨shows, decided_of_shows shows (encode_list_ne_nil _) short⟩

theorem Int256.rate_lt : 100000000000000000 < 2 ^ 256 := by decide

theorem length_firstKey : (List.replicate 48 (0xaa : UInt8)).length = 48 := rfl

theorem length_secondKey : (List.replicate 48 (0xbb : UInt8)).length = 48 :=
  rfl

theorem length_keySig : (List.replicate 96 (0xcc : UInt8)).length = 96 := rfl

theorem twoKeys_ne_nil (first second : ByteString 48) :
    [first, second] ≠ [] := by simp

/-- A new validator with two keys. -/
def createAlice : StakingTransaction where
  message := .createValidator {
    validator := ⟨List.replicate 20 0x5b, length_validator⟩
    description := ⟨⟨ascii "Alice", length_alice_le⟩, [], [], [], []⟩
    commission := ⟨⟨100000000000000000, Int256.rate_lt⟩,
      ⟨100000000000000000, Int256.rate_lt⟩, ⟨0, Int256.zero_lt⟩⟩
    minSelfDelegation := ⟨1000000000000000000, Int256.token_lt⟩
    maxTotalDelegation := ⟨1000000000000000000, Int256.token_lt⟩
    slotPubKeys := [⟨List.replicate 48 0xaa, length_firstKey⟩,
      ⟨List.replicate 48 0xbb, length_secondKey⟩]
    slotKeySigs := [⟨List.replicate 96 0xcc, length_keySig⟩,
      ⟨List.replicate 96 0xcc, length_keySig⟩]
    amount := ⟨1000000000000000000, Int256.token_lt⟩
    slotPubKeys_ne_nil := twoKeys_ne_nil _ _
    length_slotKeySigs := rfl }
  trailing := []

theorem length_createAlice : createAlice.encode.length ≤ 1020 := by
  decide +kernel

theorem fits_createAlice : FitsNanoX createAlice.message.content where
  amount := by decide
  commission _ := by decide +kernel
  delegation _ := by
    refine ⟨by decide +kernel, ?_⟩
    unfold limitParts
    simp only [PartsFit]
    decide +kernel
  name := by decide

/-- A new validator. -/
theorem staking_reviewed_createAlice :
    Reviewed (.ofTables [] []) (.boot .nanoX) .staking createAlice.encode
      ([ascii "Verify", ascii "Staking"] ++ createAlice.message.pages ++
        stakingDecision) :=
  staking_reviewed _ _ (fun _ => fits_createAlice) length_createAlice

end Encoded

end LedgerOne
