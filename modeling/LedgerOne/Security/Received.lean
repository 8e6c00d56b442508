import LedgerOne.Firmware.Agreement
import LedgerOne.Texts.Address

/-!
# Requests as they were received

`one_main` looks neither at the number of bytes that it received nor at the
length byte when it hands a request on.  A well-formed request is served on its
own bytes; of another one the bytes that an earlier request or reply left in
`G_io_apdu_buffer` become a part, unless its header alone makes it refused.
-/

namespace LedgerOne

/-- A request without a full header, or with fewer data than it announces. -/
def Malformed (rx : List UInt8) : Prop :=
  rx.length < 5 ∨ rx.length - 5 < (rx.getD OFFSET_LC 0).toNat

/-- The header as far as it was received names a request that is refused. -/
def RefusedByHeader (rx : List UInt8) : Prop :=
  rx.getD OFFSET_CLA 0 ≠ CLA ∨
    2 ≤ rx.length ∧ lookupHandler (rx.getD OFFSET_INS 0) = none ∨
    4 ≤ rx.length ∧ rx.getD OFFSET_INS 0 = INS_GET_PUBLIC_KEY ∧
      rx.getD OFFSET_P2 0 ≠ P2_DISPLAY_ADDRESS ∧
      rx.getD OFFSET_P2 0 ≠ P2_SILENT_MODE

/-- Two devices with the same context, review and replies. -/
structure SameAnswer (one two : Device build × List Effect) : Prop where
  ctx : one.1.ctx = two.1.ctx
  screen : one.1.screen = two.1.screen
  replies : one.2 = two.2

/-- Two devices that differ in `G_io_apdu_buffer` only. -/
structure Device.SameState (device other : Device build) : Prop where
  ctx : device.ctx = other.ctx
  screen : device.screen = other.screen

/-- A request is answered in the same way whatever was left in the buffer. -/
def DependsOnReceived (env : Env) (build : Build) (rx : List UInt8) : Prop :=
  ∀ device other : Device build, device.SameState other ->
    Relates SameAnswer (receive env rx device) (receive env rx other)

/-- A malformed request is refused, and appends nothing to the message. -/
def RefusesMalformed (env : Env) (build : Build) (rx : List UInt8) : Prop :=
  Malformed rx -> ∀ device : Device build, ∃ next code,
    receive env rx device = .ok (next, [.respond [] code]) ∧
    code ≠ SW_OK ∧ next.ctx.length = device.ctx.length

/-! ## The bytes that were received -/

section Received

variable {rx : List UInt8} (device : Device build)

/-- The buffer after `io_exchange`. -/
theorem get_io_received (fits : rx.length ≤ 260) {position : Nat}
    (inside : position < rx.length) :
    (device.io.splice 0 rx).get position = rx.getD position 0 := by
  rw [Region.get_splice _ _ _ _ (by omega), if_pos (by omega), Nat.sub_zero]

/-- The buffer behind the bytes that were received. -/
theorem get_io_leftOver {position : Nat} (behind : rx.length ≤ position)
    (inside : position < 260) :
    (device.io.splice 0 rx).get position = device.io.get position := by
  rw [Region.get_splice _ _ _ _ inside, if_neg (by omega)]

/-- The data of a well-formed request. -/
theorem read_io_received (other : Device build) (fits : rx.length ≤ 260)
    {count : Nat} (inside : 5 + count ≤ rx.length) :
    (device.io.splice 0 rx).read 5 count =
      (other.io.splice 0 rx).read 5 count := by
  apply List.ext_getElem
  · simp
  · intro index within _
    rw [Region.length_read] at within
    rw [Region.getElem_read, Region.getElem_read,
      get_io_received _ fits (by omega), get_io_received _ fits (by omega)]

end Received

/-! ## Handlers on two devices -/

/-- Two handlers that leave the same context, screen and reply. -/
structure Outcome.Same (one two : Outcome build) : Prop where
  ctx : one.device.ctx = two.device.ctx
  screen : one.device.screen = two.device.screen
  thrown : one.thrown = two.thrown
  effects : one.effects = two.effects

theorem Outcome.Same.caught {one two : Outcome build} (same : one.Same two) :
    SameAnswer one.caught two.caught where
  ctx := by rw [caught_ctx, caught_ctx, same.ctx]
  screen := by rw [caught_screen, caught_screen, same.screen]
  replies := by
    unfold Outcome.caught
    rw [same.thrown, same.effects]
    cases two.thrown <;> rfl

section Handlers

variable (env : Env) {device other : Device build}
  (state : device.SameState other)

include state

theorem same_throw (context : Ctx build) (code : Nat) :
    (device.throw context code).Same (other.throw context code) :=
  ⟨rfl, state.screen, rfl, rfl⟩

theorem same_getVersion :
    (handleGetVersion env device).Same (handleGetVersion env other) := by
  have version (io : Region 260) :
      (io.splice 0 env.appVersion).read 0 3 = env.appVersion := by
    rw [← env.length_appVersion]
    exact Region.read_splice_self _ _ _ (by
      rw [env.length_appVersion]; decide)
  refine ⟨state.ctx, state.screen, rfl, ?_⟩
  simp only [handleGetVersion, Device.respond, version]

/-- A review on devices with the same context. -/
theorem same_review (signing : Signing) (context : Ctx build) :
    Relates Outcome.Same (signing.review env device context)
      (signing.review env other context) := by
  have agrees : context.Agrees (max build.stringsSize (signing.size build))
      context := ⟨.refl _ _, rfl, rfl, rfl⟩
  have reviewed := (signing.review_agrees agrees (le_max_right _ _) env device
    other).ensures (signing.raises_review env device context)
    (signing.raises_review env other context)
  apply reviewed.mono
  rintro one two ⟨same, raises, raisesToo⟩
  obtain ⟨display, shown, within⟩ := same.ctx.eq_within
  have displays := shown.eq (le_max_left _ _)
  refine ⟨?_, ?_, same.thrown, same.effects⟩
  · rw [within, displays]
  · obtain ⟨quiet, signs⟩ | ⟨⟨code, thrown⟩, kept⟩ := raises.screen
    · exact same.screen quiet
    · obtain ⟨quietToo, _⟩ | ⟨_, keptToo⟩ := raisesToo.screen
      · rw [same.thrown, quietToo] at thrown
        cases thrown
      · exact kept.trans (state.screen.trans keptToo.symm)

/-- A signing packet on devices with the same context. -/
theorem same_signing (signing : Signing) (p1 p2 : UInt8) (data : List UInt8)
    (few : data.length ≤ 255) :
    Relates Outcome.Same (signing.handler.call env p1 p2 data device)
      (signing.handler.call env p1 p2 data other) := by
  have first := signing.call_eq ⟨CLA, 0, p1, p2, data, few⟩ env device
  have second := signing.call_eq ⟨CLA, 0, p1, p2, data, few⟩ env other
  rw [← state.ctx] at second
  rw [first, second]
  apply Relates.ite
  · intro _
    exact Relates.ok (same_throw state _ _)
  · intro _
    apply Relates.ite
    · intro _
      exact same_review env state signing _
    · intro _
      exact Relates.ok (same_throw state _ _)

end Handlers

/-- The address at the start of `G_io_apdu_buffer`. -/
theorem exists_read_getOneAddress (env : Env) :
    ∃ text, ∀ {build : Build} (device : Device build),
      (getOneAddress env device).io.read 0 MAX_ONE_ADDRESS = text := by
  obtain ⟨text, encodes, length⟩ := exists_bech32GetAddress env.ethAddress
  refine ⟨text, ?_⟩
  intro build device
  have stored : ((device.io.splice 0 (text ++ [0])).read 0
      (text ++ [0]).length).take 42 = (text ++ [0]).take 42 := by
    rw [Region.read_splice_self _ _ _ (by simp [length])]
  rw [getOneAddress, encodes]
  rw [Region.take_read, List.length_append, length,
    List.take_left' length] at stored
  exact stored

/-- Showing the address on devices with the same context. -/
theorem same_getPublicKey (env : Env) {device other : Device build}
    (state : device.SameState other) (p2 : UInt8) :
    (handleGetPublicKey env p2 device).Same
      (handleGetPublicKey env p2 other) := by
  obtain ⟨text, read⟩ := exists_read_getOneAddress env
  unfold handleGetPublicKey
  split_ifs
  · cases build with
    | nanoS =>
        refine ⟨?_, rfl, rfl, rfl⟩
        simp only [displayAddress, Device.proceed, state.ctx]
    | nanoX =>
        refine ⟨?_, rfl, rfl, rfl⟩
        simp only [displayAddress, Device.proceed, getOneAddress_ctx, read,
          state.ctx]
  · refine ⟨?_, ?_, rfl, ?_⟩
    · simp only [getPublicKey, Device.respond, getOneAddress_ctx, state.ctx]
    · simp only [getPublicKey, Device.respond, getOneAddress_screen,
        state.screen]
    · simp only [getPublicKey, Device.respond, read]
  · exact ⟨by simp only [Device.throw, state.ctx], state.screen, rfl, rfl⟩

/-- A handler that is called with the same data. -/
theorem same_call (env : Env) {device other : Device build}
    (state : device.SameState other) (handler : Handler) (p1 p2 : UInt8)
    (data : List UInt8) (few : data.length ≤ 255) :
    Relates Outcome.Same (handler.call env p1 p2 data device)
      (handler.call env p1 p2 data other) := by
  cases handler with
  | getVersion => exact Relates.ok (same_getVersion env state)
  | getPublicKey => exact Relates.ok (same_getPublicKey env state p2)
  | signStaking => exact same_signing env state .staking p1 p2 data few
  | signTx => exact same_signing env state .tx p1 p2 data few

/-! ## Requests that depend on their own bytes -/

/-- The device that `io_exchange` has put a request into. -/
abbrev Device.holding (device : Device build) (rx : List UInt8) :
    Device build :=
  { device with io := device.io.splice 0 rx }

section Dispatch

variable (env : Env) {rx : List UInt8} (fits : rx.length ≤ 260)

include fits

/-- A request of another class. -/
theorem dispatch_class (some : 1 ≤ rx.length)
    (cla : rx.getD OFFSET_CLA 0 ≠ CLA) (device : Device build) :
    dispatch env (device.holding rx) =
      .ok ((device.holding rx).throw device.ctx 0x6E00) := by
  unfold dispatch
  dsimp only
  rw [get_io_received device fits (show OFFSET_CLA < rx.length from some),
    if_pos cla]

/-- A request without a handler. -/
theorem dispatch_unknown (two : 2 ≤ rx.length)
    (cla : rx.getD OFFSET_CLA 0 = CLA)
    (unknown : lookupHandler (rx.getD OFFSET_INS 0) = none)
    (device : Device build) :
    dispatch env (device.holding rx) =
      .ok ((device.holding rx).throw device.ctx 0x6D00) := by
  have some : OFFSET_CLA < rx.length := by
    rw [OFFSET_CLA]
    omega
  unfold dispatch
  dsimp only
  rw [get_io_received device fits some, if_neg (not_not_intro cla),
    get_io_received device fits (show OFFSET_INS < rx.length from two),
    unknown]

/-- A request with a handler. -/
theorem dispatch_handler (some : 1 ≤ rx.length)
    (cla : rx.getD OFFSET_CLA 0 = CLA) (device : Device build)
    {handler : Handler}
    (found : lookupHandler ((device.io.splice 0 rx).get OFFSET_INS) =
      .some handler) :
    dispatch env (device.holding rx) =
      handler.call env ((device.io.splice 0 rx).get OFFSET_P1)
        ((device.io.splice 0 rx).get OFFSET_P2)
        ((device.io.splice 0 rx).read OFFSET_CDATA
          ((device.io.splice 0 rx).get OFFSET_LC).toNat)
        (device.holding rx) := by
  unfold dispatch
  dsimp only
  rw [get_io_received device fits (show OFFSET_CLA < rx.length from some),
    if_neg (not_not_intro cla), found]

/-- A well-formed request is served on its own bytes. -/
theorem dependsOnReceived_of_wellFormed (build : Build)
    (whole : ¬Malformed rx) : DependsOnReceived env build rx := by
  obtain ⟨long, enough⟩ := not_or.mp whole
  intro device other state
  have header (device : Device build) (position : Nat)
      (inside : position < 5) :=
    get_io_received device fits (show position < rx.length by omega)
  have data : (device.io.splice 0 rx).read OFFSET_CDATA
      (rx.getD OFFSET_LC 0).toNat = (other.io.splice 0 rx).read OFFSET_CDATA
        (rx.getD OFFSET_LC 0).toNat :=
    read_io_received device other fits (by omega)
  have few := (rx.getD OFFSET_LC 0).toNat_lt
  have received : (device.holding rx).SameState (other.holding rx) :=
    ⟨state.ctx, state.screen⟩
  refine Relates.map ?_ fun one two => Outcome.Same.caught
  by_cases cla : rx.getD OFFSET_CLA 0 = CLA
  · cases found : lookupHandler (rx.getD OFFSET_INS 0) with
    | none =>
        rw [dispatch_unknown env fits (by omega) cla found device,
          dispatch_unknown env fits (by omega) cla found other, state.ctx]
        exact Relates.ok (same_throw received _ _)
    | some handler =>
        have ins := header device OFFSET_INS (by decide)
        have insToo := header other OFFSET_INS (by decide)
        rw [dispatch_handler env fits (by omega) cla device (ins ▸ found),
          dispatch_handler env fits (by omega) cla other (insToo ▸ found),
          header device OFFSET_P1 (by decide),
          header other OFFSET_P1 (by decide),
          header device OFFSET_P2 (by decide),
          header other OFFSET_P2 (by decide),
          header device OFFSET_LC (by decide),
          header other OFFSET_LC (by decide), data]
        exact same_call env received handler _ _ _
          (by rw [Region.length_read]; omega)
  · rw [dispatch_class env fits (by omega) cla device,
      dispatch_class env fits (by omega) cla other, state.ctx]
    exact Relates.ok (same_throw received _ _)

/-- A refused header is answered with its status. -/
theorem dispatch_refused (some : 1 ≤ rx.length)
    (refused : RefusedByHeader rx) (build : Build) :
    ∃ (change : Ctx build -> Ctx build) (code : Nat),
      (∀ ctx, (change ctx).length = ctx.length) ∧ statusOf code ≠ SW_OK ∧
      ∀ device : Device build, dispatch env (device.holding rx) =
        .ok ((device.holding rx).throw (change device.ctx) code) := by
  by_cases cla : rx.getD OFFSET_CLA 0 = CLA
  · obtain foreign | ⟨two, unknown⟩ | ⟨four, ins, shown, silent⟩ := refused
    · exact absurd cla foreign
    · exact ⟨id, 0x6D00, fun _ => rfl, by decide,
        dispatch_unknown env fits two cla unknown⟩
    · refine ⟨Ctx.clearForPublicKey, SW_INVALID_PARAM, fun _ => rfl,
        by decide, ?_⟩
      intro device
      have found : lookupHandler ((device.io.splice 0 rx).get OFFSET_INS) =
          .some .getPublicKey := by
        rw [get_io_received device fits (show OFFSET_INS < rx.length by
          rw [OFFSET_INS]; omega), ins]
        rfl
      have p2 := get_io_received device fits (show OFFSET_P2 < rx.length from four)
      rw [dispatch_handler env fits some cla device found, p2]
      show Except.ok (handleGetPublicKey env _ _) = _
      unfold handleGetPublicKey
      rw [if_neg shown, if_neg silent]
      rfl
  · exact ⟨id, 0x6E00, fun _ => rfl, by decide,
      dispatch_class env fits some cla⟩

/-- A request whose header is refused meets the claim's demands. -/
theorem dependsOnReceived_of_refused (some : 1 ≤ rx.length)
    (refused : RefusedByHeader rx) (build : Build) :
    DependsOnReceived env build rx ∧ RefusesMalformed env build rx := by
  obtain ⟨change, code, same, error, answers⟩ :=
    dispatch_refused env fits some refused build
  constructor
  · intro device other state
    refine Relates.map ?_ fun one two => Outcome.Same.caught
    rw [answers device, answers other, state.ctx]
    exact Relates.ok ⟨rfl, state.screen, rfl, rfl⟩
  · intro _ device
    have throws := answers device
    refine ⟨((device.holding rx).throw (change device.ctx) code).caught.1,
      statusOf code, ?_, error, ?_⟩
    · unfold receive
      rw [throws]
      rfl
    · rw [caught_ctx]
      exact same device.ctx

end Dispatch

/-! ## Requests that depend on other bytes -/

/-- The application as it starts, with bytes left in the buffer. -/
def Device.leaving (build : Build) (io : List UInt8) : Device build :=
  { io := .ofList io }

section LeftOver

variable (env : Env) {rx : List UInt8} {build : Build}

/-- An answer that is no refusal. -/
theorem not_refusesMalformed (malformed : Malformed rx)
    (device : Device build)
    (answers : Ensures (dispatch env (device.holding rx)) fun outcome =>
      ∀ code ≠ SW_OK, outcome.caught.2 = [.respond [] code] ->
        outcome.device.ctx.length ≠ device.ctx.length) :
    ¬RefusesMalformed env build rx := by
  intro refuses
  obtain ⟨next, code, answered, error, length⟩ := refuses malformed device
  unfold receive at answered
  cases outcome : dispatch env (device.holding rx) with
  | error fault =>
      rw [outcome] at answered
      cases answered
  | ok outcome' =>
      rw [outcome] at answered
      have pair : outcome'.caught = (next, [.respond [] code]) :=
        Except.ok.inj answered
      apply answers.value _ outcome code error (congrArg Prod.snd pair)
      rw [← caught_ctx, pair]
      exact length

/-- The version is never refused. -/
theorem answers_getVersion (device : Device build) :
    ∀ code ≠ SW_OK, (handleGetVersion env device).caught.2 =
      [.respond [] code] -> False := by
  intro code error same
  injection same with same
  injection same with data status
  exact error status.symm

/-- Data are appended to the message of a device that has just started. -/
theorem answers_signing (signing : Signing) (p1 p2 : UInt8)
    {data : List UInt8} (few : data.length ≤ 255) (some : data ≠ [])
    (device : Device build) (empty : device.ctx.length = 0) :
    Ensures (signing.handler.call env p1 p2 data device) fun outcome =>
      ∀ code ≠ SW_OK, outcome.caught.2 = [.respond [] code] ->
        outcome.device.ctx.length ≠ 0 := by
  have opened : (signing.opened ⟨CLA, 0, p1, p2, data, few⟩
      device.ctx).length = 0 := by
    unfold Signing.opened
    split
    · rfl
    · exact empty
  have fits : ¬signing.Refused ⟨CLA, 0, p1, p2, data, few⟩ device.ctx := by
    show ¬255 * 4 < _ + data.length
    rw [opened]
    omega
  have handled := signing.call_eq ⟨CLA, 0, p1, p2, data, few⟩ env device
  rw [if_neg fits] at handled
  rw [handled]
  apply Ensures.ite
  · intro _
    apply (signing.raises_review env device _).mono
    · intro outcome raises code _ _
      rw [raises.length]
      show (signing.opened _ device.ctx).length + data.length ≠ 0
      have := List.length_pos_iff.mpr some
      omega
    · exact fun _ _ => trivial
  · intro _
    apply Ensures.ok
    intro code error same
    injection same with same
    injection same with _ status
    exact absurd status.symm error

/-- The address is shown or sent. -/
theorem answers_getPublicKey (device : Device build) {p2 : UInt8}
    (served : p2 = P2_DISPLAY_ADDRESS ∨ p2 = P2_SILENT_MODE) :
    ∀ code ≠ SW_OK, (handleGetPublicKey env p2 device).caught.2 =
      [.respond [] code] -> False := by
  intro code error same
  unfold handleGetPublicKey at same
  obtain rfl | rfl := served
  · rw [if_pos rfl] at same
    cases build <;> cases same
  · rw [if_neg (by decide), if_pos rfl] at same
    injection same with same
    injection same with _ status
    exact error status.symm

theorem lookupHandler_getPublicKey {ins : UInt8}
    (found : lookupHandler ins = some .getPublicKey) :
    ins = INS_GET_PUBLIC_KEY := by
  by_contra other
  unfold lookupHandler at found
  rw [if_neg other] at found
  split_ifs at found <;> cases found

/-- A header of one byte is continued to a request for the version. -/
theorem not_refusesMalformed_class (build : Build) (some : rx.length = 1)
    (cla : rx.getD OFFSET_CLA 0 = CLA) :
    ¬RefusesMalformed env build rx := by
  have behind : (Device.leaving build [0, INS_GET_VERSION]).io.get
      OFFSET_INS = INS_GET_VERSION := rfl
  have found : lookupHandler (((Device.leaving build
      [0, INS_GET_VERSION]).io.splice 0 rx).get OFFSET_INS) =
      .some .getVersion := by
    rw [get_io_leftOver _ (by rw [OFFSET_INS]; omega) (by decide), behind]
    rfl
  apply not_refusesMalformed env (Or.inl (by omega))
    (.leaving build [0, INS_GET_VERSION])
  rw [dispatch_handler env (by omega) (by omega) cla _ found]
  apply Ensures.ok
  intro code error same
  exact (answers_getVersion env _ code error same).elim

section Served

variable (fits : rx.length ≤ 260) (two : 2 ≤ rx.length)
  (malformed : Malformed rx) (cla : rx.getD OFFSET_CLA 0 = CLA)

include fits two cla

/-- The handler of a request whose instruction was received. -/
theorem dispatch_found (device : Device build) {handler : Handler}
    (found : lookupHandler (rx.getD OFFSET_INS 0) = some handler) :
    dispatch env (device.holding rx) =
      handler.call env ((device.io.splice 0 rx).get OFFSET_P1)
        ((device.io.splice 0 rx).get OFFSET_P2)
        ((device.io.splice 0 rx).read OFFSET_CDATA
          ((device.io.splice 0 rx).get OFFSET_LC).toNat)
        (device.holding rx) := by
  have ins := get_io_received device fits
    (show OFFSET_INS < rx.length from two)
  exact dispatch_handler env fits (by omega) cla device (ins ▸ found)

include malformed

/-- Without all of its data a signing packet appends what is there. -/
theorem not_refusesMalformed_signing (build : Build) (signing : Signing)
    (found : lookupHandler (rx.getD OFFSET_INS 0) = some signing.handler) :
    ¬RefusesMalformed env build rx := by
  have count : ((Device.leaving build [0, 0, 0, 0, 1]).io.splice 0 rx).get
      OFFSET_LC ≠ 0 := by
    by_cases long : 5 ≤ rx.length
    · rw [get_io_received _ fits (show OFFSET_LC < rx.length from long)]
      intro none
      obtain short | missing := malformed
      · omega
      · rw [none] at missing
        exact absurd missing (Nat.not_lt_zero _)
    · have behind : (Device.leaving build [0, 0, 0, 0, 1]).io.get
          OFFSET_LC = 1 := rfl
      rw [get_io_leftOver _ (by rw [OFFSET_LC]; omega) (by decide), behind]
      decide
  apply not_refusesMalformed env malformed
    (.leaving build [0, 0, 0, 0, 1])
  rw [dispatch_found env fits two cla _ found]
  generalize ((Device.leaving build [0, 0, 0, 0, 1]).io.splice 0 rx).get
    OFFSET_LC = lc at count
  have few := lc.toNat_lt
  apply answers_signing env signing _ _ _ _ _ rfl
  · rw [Region.length_read]
    omega
  · rw [← List.length_pos_iff, Region.length_read]
    exact Nat.pos_of_ne_zero fun zero => count (UInt8.toNat_inj.mp zero)

/-- Without its second parameter a request for the address shows it. -/
theorem not_refusesMalformed_getPublicKey (build : Build)
    (found : lookupHandler (rx.getD OFFSET_INS 0) = some .getPublicKey)
    (served : 4 ≤ rx.length -> rx.getD OFFSET_P2 0 = P2_DISPLAY_ADDRESS ∨
      rx.getD OFFSET_P2 0 = P2_SILENT_MODE) :
    ¬RefusesMalformed env build rx := by
  have p2 : ((Device.leaving build []).io.splice 0 rx).get OFFSET_P2 =
      P2_DISPLAY_ADDRESS ∨
      ((Device.leaving build []).io.splice 0 rx).get OFFSET_P2 =
        P2_SILENT_MODE := by
    by_cases four : 4 ≤ rx.length
    · rw [get_io_received _ fits (show OFFSET_P2 < rx.length from four)]
      exact served four
    · rw [get_io_leftOver _ (by rw [OFFSET_P2]; omega) (by decide)]
      exact Or.inl rfl
  apply not_refusesMalformed env malformed (.leaving build [])
  rw [dispatch_found env fits two cla _ found]
  apply Ensures.ok
  intro code error same
  exact (answers_getPublicKey env _ p2 code error same).elim

end Served

/-- A malformed request that has a handler is served, with the bytes that
happen to be there. -/
theorem not_refusesMalformed_of_accepted (build : Build)
    (fits : rx.length ≤ 260) (some : 1 ≤ rx.length)
    (malformed : Malformed rx) (accepted : ¬RefusedByHeader rx) :
    ¬RefusesMalformed env build rx := by
  obtain ⟨cla, known⟩ := not_or.mp accepted
  obtain ⟨known, shown⟩ := not_or.mp known
  have cla := not_not.mp cla
  by_cases two : 2 ≤ rx.length
  · cases found : lookupHandler (rx.getD OFFSET_INS 0) with
    | none => exact absurd ⟨two, found⟩ known
    | some handler =>
        cases handler with
        | getVersion =>
            apply not_refusesMalformed env malformed (.leaving build [])
            rw [dispatch_found env fits two cla _ found]
            apply Ensures.ok
            intro code error same
            exact (answers_getVersion env _ code error same).elim
        | getPublicKey =>
            apply not_refusesMalformed_getPublicKey env fits two malformed cla
              build found
            intro four
            by_contra neither
            obtain ⟨display, silent⟩ := not_or.mp neither
            exact shown ⟨four, lookupHandler_getPublicKey found, display,
              silent⟩
        | signStaking =>
            exact not_refusesMalformed_signing env fits two malformed cla
              build .staking found
        | signTx =>
            exact not_refusesMalformed_signing env fits two malformed cla
              build .tx found
  · exact not_refusesMalformed_class env build (by omega) cla

end LeftOver

/-- For every request that is received: every device answers it by its own
bytes, and refuses it when it is malformed, exactly if it is well formed or its
header is refused anyway. -/
theorem receives_asReceived_iff (env : Env) (build : Build)
    {rx : List UInt8} (some : 1 ≤ rx.length) (fits : rx.length ≤ 260) :
    DependsOnReceived env build rx ∧ RefusesMalformed env build rx ↔
      ¬Malformed rx ∨ RefusedByHeader rx := by
  constructor
  · rintro ⟨_, refuses⟩
    by_contra neither
    obtain ⟨malformed, accepted⟩ := not_or.mp neither
    exact not_refusesMalformed_of_accepted env build fits some
      (not_not.mp malformed) accepted refuses
  · rintro (whole | refused)
    · exact ⟨dependsOnReceived_of_wellFormed env fits build whole,
        fun malformed => absurd malformed whole⟩
    · exact dependsOnReceived_of_refused env fits some refused build

/-- The first two bytes of a transfer. -/
def firstData : List UInt8 := [0xE0, 0x08, 0, 0, 2, 0xc1, 0x80]

/-- A packet with its data is answered by its own bytes. -/
theorem receives_asReceived_firstData :
    DependsOnReceived (.ofTables [] []) .nanoX firstData ∧
        RefusesMalformed (.ofTables [] []) .nanoX firstData ↔
      ¬Malformed firstData ∨ RefusedByHeader firstData :=
  receives_asReceived_iff (.ofTables [] []) .nanoX (by decide) (by decide)

/-- The header of a transfer that announces two bytes of data and has none. -/
def missingData : List UInt8 := [0xE0, 0x08, 0, 0, 2]

/-- Two bytes of an earlier request become the message. -/
theorem not_asReceived_missingData :
    ¬DependsOnReceived (.ofTables [] []) .nanoX missingData := by
  intro depends
  have answers := depends (.leaving .nanoX [0, 0, 0, 0, 0, 0xc1, 0x80])
    (.leaving .nanoX []) ⟨rfl, rfl⟩
  have first : ((receive (.ofTables [] []) missingData
      (.leaving .nanoX [0, 0, 0, 0, 0, 0xc1, 0x80])).toOption.map
        fun result => result.1.ctx.message) = some [0xc1, 0x80] := by
    decide +kernel
  have second : ((receive (.ofTables [] []) missingData
      (.leaving .nanoX [])).toOption.map
        fun result => result.1.ctx.message) = some [0, 0] := by
    decide +kernel
  generalize receive (.ofTables [] []) missingData
    (.leaving .nanoX [0, 0, 0, 0, 0, 0xc1, 0x80]) = one at answers first
  generalize receive (.ofTables [] []) missingData
    (.leaving .nanoX []) = two at answers second
  cases answers with
  | error fault => cases first
  | ok same =>
      simp only [Except.toOption, Option.map_some, Option.some.injEq] at first second
      rw [same.ctx, second] at first
      cases first

end LedgerOne
