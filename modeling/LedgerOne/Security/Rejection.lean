import LedgerOne.Decoder.Progress
import LedgerOne.Firmware.Approval
import LedgerOne.Firmware.Sessions

/-!
# Messages that their parser refuses

`handleSignStaking` looks at the result of its parser and answers a refused
message with an error.  `handleSignTx`, and on the Nano S the button that takes
up the review, do not, so that a transfer that is malformed or cut off is
reviewed and can be signed.
-/

namespace LedgerOne

/-- A session is answered with an error, and no presses make the device sign
its message. -/
def Rejects (env : Env) (front : List Apdu) (last : Apdu)
    (device : Device build) : Prop :=
  ∃ opened replies next outputs,
    (firmware env build).run (front.map .apdu) device =
      .ok (opened, replies) ∧
    (firmware env build).step opened (.apdu last) = .ok (next, outputs) ∧
    (∃ code, outputs = [.respond [] code] ∧ code ≠ SW_OK) ∧
    ∀ presses : List Press, ∀ reached effects,
      (firmware env build).run (presses.map .press) next =
        .ok (reached, effects) ->
      .hash (messageOf (front ++ [last])) ∉ effects

/-! ## Staking operations -/

section Quiet

variable (env : Env) (presses : List Press) {device : Device build}

/-- Outside the reviews no presses sign. -/
theorem run_quiet (quiet : device.screen.signs = false) :
    Ensures ((firmware env build).run (presses.map .press) device)
      fun result => ∀ bytes, .hash bytes ∉ result.2 := by
  have run : Ensures
      ((firmware env build).run (presses.map .press) device) fun result =>
        result.1.screen.signs = false ∧
          ∀ output ∈ result.2, ∀ bytes, output ≠ .hash bytes := by
    apply Machine.ensures_run (fun event : Event => ∃ press, event = .press press)
      (fun device : Device build => device.screen.signs = false)
      fun output : Effect => ∀ bytes, output ≠ .hash bytes
    · rintro state event silent ⟨press, rfl⟩
      apply (step_press_outside env state press silent).mono
      · rintro result ⟨quiet, serves⟩
        refine ⟨quiet, ?_⟩
        rintro output member bytes rfl
        exact serves.hashed bytes member
      · exact fun _ _ => trivial
    · intro event member
      obtain ⟨press, _, rfl⟩ := List.mem_map.mp member
      exact ⟨press, rfl⟩
    · exact quiet
  apply run.mono
  · intro result safe bytes member
    exact safe.2 _ member bytes rfl
  · exact fun _ _ => trivial

end Quiet

section Refused

variable {env : Env} {device : Device build} {front : List Apdu}
  {last : Apdu} {code : Int} {after : TxContext}

/-- A refused staking operation is answered with an exception. -/
theorem parseStaking_refused {ctx : Ctx build}
    (parsed : processStaking ctx.buf ctx.txContext = .ok (code, after))
    (nonzero : code ≠ 0) :
    parseStaking env device ctx =
      .ok (device.throw { ctx with txContext := after }
        env.invalidParameter) := by
  unfold parseStaking Ctx.processStaking
  rw [parsed]
  simp only [bind, Except.bind, pure, Except.pure]
  rw [if_pos nonzero]

/-- A session of a refused staking operation ends with an error, on the screen
that was there before. -/
theorem step_refusedStaking (env : Env) (device : Device build)
    (session : Signing.staking.Session front last)
    (fits : (messageOf (front ++ [last])).length ≤ 1020)
    (parsed : processStaking (Region.ofList (messageOf (front ++ [last])))
      (stakingStart (messageOf (front ++ [last])).length) =
        .ok (code, after))
    (nonzero : code ≠ 0) :
    ∃ opened replies next,
      (firmware env build).run (front.map .apdu) device =
        .ok (opened, replies) ∧
      (firmware env build).step opened (.apdu last) =
        .ok (next, [.respond [] (statusOf env.invalidParameter)]) ∧
      next.screen = device.screen ∧
      next.ctx.message = messageOf (front ++ [last]) := by
  obtain ⟨opened, replies, runs, screen, presents, -, steps⟩ :=
    run_session env device session fits
  have same : processStaking
      (Signing.staking.finished last opened.ctx).buf
      (Signing.staking.finished last opened.ctx).txContext =
        .ok (code, after) := by
    rw [presents.buf, presents.txContext]
    exact parsed
  have thrown : Signing.staking.review env (opened.received last)
      (Signing.staking.finished last opened.ctx) = _ :=
    parseStaking_refused same nonzero
  rw [thrown] at steps
  refine ⟨opened, replies, _, runs, steps, ?_, ?_⟩
  · simpa [Device.throw] using screen
  · simpa [Device.throw, Ctx.message] using
      message_of_presents presents (by omega)

end Refused

/-! ## Transfers -/

/-- No store of a field changes the value. -/
def KeepsValue (out : Option Store) : Prop :=
  ∀ store, out = some store -> ∀ bytes content after,
    store bytes content = some after -> after.value = content.value

section Value

variable {buf : Region 1024} {context : TxContext} {out : Option Store}

theorem value_copyField (keeps : KeepsValue out) :
    Ensures (copyField buf out context) fun copied =>
      copied.content.value = context.content.value := by
  unfold copyField
  apply Ensures.ite
  · intro _
    unfold copyTxData
    split
    · exact Ensures.error trivial
    · cases out with
      | none => exact Ensures.ok rfl
      | some store =>
          dsimp only
          split
          · exact Ensures.error trivial
          · split
            next => exact Ensures.error trivial
            next content stored =>
              exact Ensures.ok (keeps store rfl _ _ _ stored)
  · intro _
    exact Ensures.ok rfl

/-- What a handler after which the loop goes on does to the value. -/
def ValueKept (context : TxContext)
    (handled : Except Fault (Flow TxContext (Int × TxContext))) : Prop :=
  Ensures handled (Body.after
    (fun next => next.content.value = context.content.value) fun _ => False)

theorem value_takeField {record : TxContext -> TxContext}
    (keeps : KeepsValue out)
    (records : ∀ complete,
      (record complete).content.value = complete.content.value) :
    ValueKept context (continueWith (takeField buf out record context)) := by
  apply Ensures.map
  apply Ensures.bind (value_copyField keeps)
  intro copied kept
  apply Ensures.pure
  show (finishField record copied).content.value = _
  unfold finishField
  split
  · exact (records copied).trans kept
  · exact kept

theorem keepsValue_int256 {address : Nat} {get : TxContent -> TxInt256}
    {set : TxInt256 -> TxContent -> TxContent} {position : Nat}
    (keeps : ∀ int content, (set int content).value = content.value) :
    KeepsValue (some (storeInt256 address get set position)) := by
  rintro store equal bytes content after stored
  cases equal
  obtain ⟨value, _, rfl⟩ := Option.map_eq_some_iff.mp stored
  exact keeps _ _

theorem keepsValue_shard {address : Nat} {get : TxContent -> Nat}
    {set : Nat -> TxContent -> TxContent} {position : Nat}
    (keeps : ∀ shard content, (set shard content).value = content.value) :
    KeepsValue (some (storeShard address get set position)) := by
  rintro store equal bytes content after stored
  cases equal
  obtain ⟨value, _, rfl⟩ := Option.map_eq_some_iff.mp stored
  exact keeps _ _

theorem keepsValue_bytes {size address : Nat} {get : TxContent -> Region size}
    {set : Region size -> TxContent -> TxContent} {position : Nat}
    (keeps : ∀ bytes content, (set bytes content).value = content.value) :
    KeepsValue (some (storeBytes address get set position)) := by
  rintro store equal bytes content after stored
  cases equal
  obtain ⟨value, _, rfl⟩ := Option.map_eq_some_iff.mp stored
  exact keeps _ _

theorem keepsValue_none : KeepsValue none := by
  rintro store equal
  cases equal

/-- Only the last field of a transfer sets the value, and it is accepted. -/
theorem value_handleTxField (unset : context.content.value = {}) :
    Ensures (handleTxField buf context)
      (Body.after (fun next => next.content.value = {})
        fun result => result.1 ≠ 0 -> result.2.content.value = {}) := by
  have goesOn : ∀ {handled}, ValueKept context handled ->
      Ensures handled (Body.after (fun next => next.content.value = {})
        fun result => result.1 ≠ 0 -> result.2.content.value = {}) := by
    intro handled kept
    apply Ensures.mono kept
    · intro flow after
      cases flow with
      | again next => exact after.trans unset
      | exit result => exact after.elim
    · exact fun _ _ => trivial
  unfold handleTxField
  cases context.txCurrentField with
  | content => exact Ensures.ok unset
  | nonce => exact goesOn (value_takeField keepsValue_none fun _ => rfl)
  | gasprice | gaslimit =>
      exact goesOn (value_takeField (keepsValue_int256 fun _ _ => rfl)
        fun _ => rfl)
  | fromshard | toshard =>
      exact goesOn (value_takeField (keepsValue_shard fun _ _ => rfl)
        fun _ => rfl)
  | «to» =>
      exact goesOn (value_takeField (keepsValue_bytes fun _ _ => rfl)
        fun _ => rfl)
  | amount =>
      apply Ensures.map
      exact Ensures.trivial.mono (fun _ _ nonzero => absurd rfl nonzero)
        fun _ _ => trivial
  | _ => exact Ensures.ok fun _ => unset

end Value

/-- A refused transfer leaves its value unset. -/
theorem value_processTx {buf : Region 1024} {context : TxContext}
    (unset : context.content.value = {}) :
    Ensures (processTx buf context) fun result =>
      result.1 ≠ 0 -> result.2.content.value = {} := by
  have round : ∀ state : TxContext, state.content.value = {} ->
      Ensures (processTxRound buf state)
        (Body.after (fun next => next.content.value = {})
          fun result => result.1 ≠ 0 -> result.2.content.value = {}) := by
    intro state unset
    have head : Ensures
        (beforeSwitch buf (decide (state.txCurrentField = .done)) state)
        fun result => result.2.content = state.content :=
      content_beforeSwitch _ rfl
    unfold processTxRound mainLoop
    split
    next => exact Ensures.error trivial
    next code reached exits =>
      apply Ensures.ok
      intro _
      rw [show reached.content = state.content from head.value _ exits]
      exact unset
    next ready found =>
      apply value_handleTxField
      rw [show ready.content = state.content from head.value _ found]
      exact unset
  unfold processTx runParser
  split
  next => exact Ensures.error trivial
  next result ran => exact Body.ensures_run round unset ran

/-! ## The review of a transfer without a value -/

/-- The amount of an unset value is "0". -/
theorem convert_unset :
    convertU256ToString (List.replicate 32 0) 78 =
      .ok ⟨[(0, List.replicate 78 0), (0, [48])], some 1, true⟩ :=
  rfl

theorem succeeds_writeUnset (display : Display build) (offset place : Nat)
    (fits : offset + 78 ≤ build.stringsSize)
    (counts : place + 4 ≤ build.stringsSize) :
    Ensures (display.writeAmount offset (some place) {})
      (fun result => result.2.succeeds = true) fun _ => False := by
  have padded : padNumber {} = .ok (List.replicate 32 0) := rfl
  have room : offset + 0 + (List.replicate 78 (0 : UInt8)).length ≤
      build.stringsSize := by
    rw [List.length_replicate]
    omega
  unfold Display.writeAmount
  rw [padded]
  apply Ensures.ok_bind
  rw [convert_unset]
  apply Ensures.ok_bind
  simp only [List.foldlM_cons, List.foldlM_nil]
  refine Ensures.bind (?_ : Succeeds _) ?_
  · apply Ensures.bind (display.succeeds_write (offset + 0) _ room)
    intro cleared _
    apply Ensures.bind
      (cleared.succeeds_write (offset + 0) [48] (by simp; omega))
    intro written _
    exact Ensures.pure trivial
  · intro written _
    apply Ensures.bind (written.succeeds_write place
      (uint32Bytes 1).toList (by simpa using counts))
    intro counted _
    exact Ensures.pure rfl

section Unset

variable (env : Env)

theorem signable_addressCompare {device : Device .nanoS}
    (screen : device.screen = .addressCompare)
    (unset : device.ctx.txContent.value = {}) :
    device.Signable env device.ctx.message := by
  obtain ⟨⟨written, conversion⟩, writes, succeeds⟩ :=
    (succeeds_writeUnset device.ctx.display SignTxn.amountStr
      SignTxn.amountLength (by decide) (by decide)).exists_value
  let turned : Display .nanoS := { written with displayIndex := 0 }
  have shows : ∀ count, count ≤ 12 ->
      ∃ copied ended,
        turned.copy SignTxn.partialAmountStr SignTxn.amountStr count =
          .ok copied ∧
        copied.write (SignTxn.partialAmountStr + count) [0] = .ok ended := by
    intro count short
    obtain ⟨copied, copies⟩ := (turned.succeeds_copy SignTxn.partialAmountStr
      SignTxn.amountStr count
      (by show 55 + count ≤ 420; omega)
      (by show 140 + count ≤ 420; omega)).exists_ok
    obtain ⟨ended, ends⟩ := (copied.succeeds_write
      (SignTxn.partialAmountStr + count) [0]
      (by show 140 + count + 1 ≤ 420; omega)).exists_ok
    exact ⟨copied, ended, copies, ends⟩
  by_cases large : 12 < turned.getUint32 SignTxn.amountLength
  · obtain ⟨copied, ended, copies, ends⟩ := shows 12 (by omega)
    apply signable_after .releasedBoth (device.proceed
      { device.ctx with display := ended } .amountCompareLarge)
    · simp only [pressed, pressNanoS, screen, addressCompareButton, unset,
        writes, bind, Except.bind, pure, Except.pure]
      rw [succeeds, if_neg (by decide), if_pos large, copies]
      dsimp only
      rw [ends]
    · exact signable_amountCompareLarge env rfl
  · obtain ⟨copied, ended, copies, ends⟩ := shows _ (not_lt.mp large)
    apply signable_after .releasedBoth (device.proceed
      { device.ctx with display := ended } .amountCompare)
    · simp only [pressed, pressNanoS, screen, addressCompareButton, unset,
        writes, bind, Except.bind, pure, Except.pure]
      rw [succeeds, if_neg (by decide), if_neg large, copies]
      dsimp only
      rw [ends]
    · exact signable_amountCompare env rfl

theorem signable_signTxApprove {device : Device .nanoS} {code : Int}
    {after : TxContext} (screen : device.screen = .signTxApprove)
    (parsed : processTx device.ctx.buf device.ctx.txContext =
      .ok (code, after))
    (unset : after.content.value = {}) :
    device.Signable env device.ctx.message := by
  obtain ⟨addressed, addresses⟩ := (device.ctx.display.succeeds_writeAddress
    SignTxn.toAddr after.content.destination (by decide)).exists_ok
  obtain ⟨copied, copies⟩ := (addressed.succeeds_copy SignTxn.partialAddrStr
    SignTxn.toAddr 12 (by decide) (by decide)).exists_ok
  obtain ⟨ended, ends⟩ := (copied.succeeds_write (SignTxn.partialAddrStr + 12)
    [0] (by decide)).exists_ok
  let ctx : Ctx .nanoS := { device.ctx with
    txContext := after
    display := { ended with displayIndex := 0 } }
  apply signable_after .releasedRight (device.proceed ctx .addressCompare)
  · simp only [pressed, pressNanoS, screen, signTxApproveButton,
      Ctx.processTx, parsed, bind, Except.bind, pure, Except.pure, addresses,
      copies, ends]
    rfl
  · exact signable_addressCompare env rfl unset

/-- The review of a transfer that was parsed without a value. -/
theorem signable_reviewTx (device : Device build) {ctx : Ctx build}
    {code : Int} {after : TxContext}
    (parsed : processTx ctx.buf ctx.txContext = .ok (code, after))
    (unset : after.content.value = {}) :
    ∃ outcome, reviewTx env build device ctx = .ok outcome ∧
      outcome.caught.1.Signable env ctx.message := by
  cases build with
  | nanoS =>
      obtain ⟨typed, types⟩ := (ctx.display.succeeds_write SignTxn.typeStr
        (ascii "Review Transaction?") (by decide)).exists_ok
      refine ⟨device.proceed { ctx with display := typed } .signTxApprove,
        ?_, ?_⟩
      · simp only [reviewTx, types, bind, Except.bind, pure, Except.pure]
      · exact signable_signTxApprove env rfl parsed unset
  | nanoX =>
      obtain ⟨addressed, addresses⟩ := (ctx.display.succeeds_writeAddress
        SignTxn.toAddr after.content.destination (by decide)).exists_ok
      obtain ⟨⟨written, conversion⟩, writes, succeeds⟩ :=
        (succeeds_writeUnset addressed SignTxn.amountStr SignTxn.amountLength
          (by decide) (by decide)).exists_value
      rw [← unset] at writes
      obtain ⟨assigned, assigns⟩ :=
        (succeeds_assignShardString after.content written).exists_ok
      let reviewed : Ctx .nanoX := { ctx with
        txContext := after
        display := assigned }
      refine ⟨device.proceed reviewed .approvalTxFlow, ?_, ?_⟩
      · simp only [reviewTx, reviewTxNanoX, Ctx.processTx, parsed, bind,
          Except.bind, pure, Except.pure, addresses, Ctx.txContent, writes]
        rw [succeeds, if_neg (by decide), assigns]
      · exact signable_approvalTxFlow env rfl

end Unset

/-! ## Refused messages -/

section Sessions

variable {env : Env} {signing : Signing} {front : List Apdu} {last : Apdu}
  {device : Device build} {code : Int} {after : TxContext}

/-- A session after which its message can be signed. -/
def SessionSigns (env : Env) (front : List Apdu) (last : Apdu)
    (device : Device build) : Prop :=
  ∃ opened replies next outputs,
    (firmware env build).run (front.map .apdu) device =
      .ok (opened, replies) ∧
    (firmware env build).step opened (.apdu last) = .ok (next, outputs) ∧
    next.Signable env (messageOf (front ++ [last]))

theorem not_rejects_of_signs (signs : SessionSigns env front last device) :
    ¬Rejects env front last device := by
  obtain ⟨opened, replies, next, outputs, runs, steps, signable⟩ := signs
  rintro ⟨opened', replies', next', outputs', runs', steps', _, never⟩
  obtain ⟨rfl, rfl⟩ : opened = opened' ∧ replies = replies' := by
    simpa using runs.symm.trans runs'
  obtain ⟨rfl, rfl⟩ : next = next' ∧ outputs = outputs' := by
    simpa using steps.symm.trans steps'
  obtain ⟨presses, reached, effects, presses_run, signed⟩ := signable
  exact never presses reached effects presses_run signed

/-- A refused transfer can be signed. -/
theorem signs_refusedTx (session : Signing.tx.Session front last)
    (fits : (messageOf (front ++ [last])).length ≤ 1020)
    (parsed : processTx (Region.ofList (messageOf (front ++ [last])))
      (transferStart (messageOf (front ++ [last])).length) =
        .ok (code, after))
    (nonzero : code ≠ 0) :
    SessionSigns env front last device := by
  obtain ⟨opened, replies, runs, screen, presents, -, steps⟩ :=
    run_session env device session fits
  have same : processTx (Signing.tx.finished last opened.ctx).buf
      (Signing.tx.finished last opened.ctx).txContext = .ok (code, after) := by
    rw [presents.buf, presents.txContext]
    exact parsed
  have unset : after.content.value = {} :=
    (value_processTx rfl).value _ parsed nonzero
  obtain ⟨outcome, reviews, signable⟩ :=
    signable_reviewTx env (opened.received last) same unset
  rw [show Signing.tx.review env (opened.received last)
    (Signing.tx.finished last opened.ctx) = .ok outcome from reviews] at steps
  rw [message_of_presents presents (by omega)] at signable
  exact ⟨opened, replies, _, _, runs, steps, signable⟩

/-- A message that its parser refuses is rejected when it is a staking
operation and no review is waiting, and never when it is a transfer, whatever
is on the screen, or when the last screens of a review are waiting for a
press. -/
theorem rejects_refused_iff (session : signing.Session front last)
    (fits : (messageOf (front ++ [last])).length ≤ 1020)
    (parsed : signing.parse (Region.ofList (messageOf (front ++ [last])))
      (signing.start (messageOf (front ++ [last])).length) =
        .ok (code, after))
    (nonzero : code ≠ 0) :
    (device.screen.signs = false ->
      (Rejects env front last device ↔ signing = .staking)) ∧
    (signing = .tx ∨ Screen.closesReview build device.screen ->
      ¬Rejects env front last device) := by
  cases signing with
  | tx =>
      have never : ¬Rejects env front last device :=
        not_rejects_of_signs (signs_refusedTx session fits parsed nonzero)
      exact ⟨fun _ => iff_of_false never (by simp), fun _ => never⟩
  | staking =>
      obtain ⟨opened, replies, next, runs, steps, screen, message⟩ :=
        step_refusedStaking env device session fits parsed nonzero
      constructor
      · intro quiet
        refine iff_of_true ?_ rfl
        refine ⟨opened, replies, next, _, runs, steps,
          ⟨_, rfl, statusOf_ne_ok env.invalidParameter_lt⟩, ?_⟩
        intro presses reached effects ran
        exact (run_quiet env presses (by rw [screen]; exact quiet)).value
          _ ran _
      · rintro (other | closes)
        · cases other
        apply not_rejects_of_signs
        refine ⟨opened, replies, next, _, runs, steps, ?_⟩
        rw [← message]
        exact signable_closesReview env (by rwa [screen])

end Sessions

theorem length_truncatedStaking : [(0xc1 : UInt8)].length ≤ 255 := by
  decide

/-- A staking operation that ends after the header of its list. -/
def truncatedStaking : Apdu :=
  Signing.staking.packet P1_FIRST P2_FINISH [0xc1] length_truncatedStaking

/-- On the Nano S a truncated staking operation is rejected. -/
theorem rejects_truncatedStaking :
    Rejects (.ofTables [] []) [] truncatedStaking
      (Device.boot .nanoS) := by
  obtain ⟨⟨code, after⟩, parsed, refuses⟩ := exists_of_view Prod.fst
    (show (Signing.staking.parse (Region.ofList [0xc1])
      (Signing.staking.start 1)).toOption.map Prod.fst = some 1 by
        decide +kernel)
  have session : Signing.staking.Session [] truncatedStaking :=
    .single rfl rfl rfl
  have nonzero : code ≠ 0 := by
    rw [show code = 1 from refuses]
    decide
  exact ((rejects_refused_iff session (by decide) parsed nonzero).1 rfl).mpr
    rfl

/-! ## A transfer cut off after its header -/

theorem length_emptyTransfer : [(0xc0 : UInt8)].length ≤ 255 := by decide

/-- The header of a list without its content. -/
def emptyTransfer : Apdu :=
  Signing.tx.packet P1_FIRST P2_FINISH [0xc0] length_emptyTransfer

def emptyTransferHash : List UInt8 :=
  [0x1d, 0xcc, 0x4d, 0xe8, 0xde, 0xc7, 0x5d, 0x7a, 0xab, 0x85, 0xb5, 0x67,
   0xb6, 0xcc, 0xd4, 0x1a, 0xd3, 0x12, 0x45, 0x1b, 0x94, 0x8a, 0x74, 0x13,
   0xf0, 0xa1, 0x42, 0xfd, 0x40, 0xd4, 0x93, 0x47]

def emptyTransferSignature : List UInt8 :=
  [0x26, 0x5a, 0xb1, 0x08, 0x63, 0x44, 0x30, 0x17, 0x8a, 0x1a, 0x13, 0x38,
   0x12, 0x77, 0xb7, 0x76, 0xb9, 0xf9, 0xf1, 0x40, 0xd7, 0x5a, 0xd8, 0x57,
   0xc4, 0xe2, 0x05, 0x47, 0x61, 0xfb, 0x93, 0x7b, 0x1c, 0x8c, 0x00, 0xd8,
   0xa9, 0x46, 0x7f, 0x30, 0xeb, 0xe9, 0x77, 0xe8, 0x4a, 0xf1, 0xb6, 0x8f,
   0x6c, 0xa0, 0x3d, 0x49, 0x8c, 0x1d, 0x1f, 0x45, 0x34, 0x89, 0xdb, 0x9c,
   0xdf, 0x84, 0x1b, 0x75, 0x00]

def emptyTransferEnv : Env :=
  .ofTables [([0xc0], emptyTransferHash)]
    [(emptyTransferHash, emptyTransferSignature)]

/-- The parser refuses the header alone, and the Nano X signs it. -/
theorem not_rejects_emptyTransfer :
    (Signing.tx.parse (Region.ofList [0xc0])
        (Signing.tx.start 1)).toOption.map Prod.fst = some 1 ∧
      ((firmware emptyTransferEnv .nanoX).run
        [.apdu emptyTransfer, .press .accept]
        (.boot .nanoX)).toOption.map Prod.snd =
          some [.hash [0xc0], .respond emptyTransferSignature SW_OK] ∧
      ¬Rejects emptyTransferEnv [] emptyTransfer (.boot .nanoX) := by
  have signs : ((firmware emptyTransferEnv .nanoX).run
      [.apdu emptyTransfer, .press .accept]
      (.boot .nanoX)).toOption.map Prod.snd =
        some [.hash [0xc0], .respond emptyTransferSignature SW_OK] := by
    decide +kernel
  refine ⟨by decide +kernel, signs, ?_⟩
  rintro ⟨opened, replies, next, outputs, begins, steps, errors, never⟩
  cases begins
  obtain ⟨⟨reached, effects⟩, runs, signed⟩ := exists_of_view _ signs
  obtain ⟨after, first, more, moves, _, rfl⟩ := Machine.run_cons runs
  obtain ⟨rfl, rfl⟩ : next = after ∧ outputs = first := by
    simpa using steps.symm.trans moves
  obtain ⟨code, rfl, _⟩ := errors
  cases signed

end LedgerOne
