import LedgerOne.Firmware.GetPublicKey
import LedgerOne.Firmware.GetTxnSig
import LedgerOne.Firmware.Staking
import LedgerOne.Lib.Machine

/-!
# The application (`main.c`)

`one_main` takes one request after the other and hands it to the handler of
its instruction; in between the user presses buttons.  An exception that a
handler or a button throws becomes a status word.
-/

namespace LedgerOne

def CLA : UInt8 := 0xE0
def OFFSET_CLA : Nat := 0
def OFFSET_INS : Nat := 1
def OFFSET_P1 : Nat := 2
def OFFSET_P2 : Nat := 3
def OFFSET_LC : Nat := 4
def OFFSET_CDATA : Nat := 5

def INS_GET_VERSION : UInt8 := 0x01
def INS_GET_PUBLIC_KEY : UInt8 := 0x02
def INS_SIGN_STAKING : UInt8 := 0x04
def INS_GET_TXN_HASH : UInt8 := 0x08

/-- The handlers of the instructions. -/
inductive Handler
  | getVersion
  | getPublicKey
  | signStaking
  | signTx
  deriving DecidableEq

/-- `lookupHandler`. -/
def lookupHandler (ins : UInt8) : Option Handler :=
  if ins = INS_GET_VERSION then some .getVersion
  else if ins = INS_GET_PUBLIC_KEY then some .getPublicKey
  else if ins = INS_SIGN_STAKING then some .signStaking
  else if ins = INS_GET_TXN_HASH then some .signTx
  else none

/-- `handleGetVersion`. -/
def handleGetVersion (env : Env) (device : Device build) : Outcome build :=
  { device with io := device.io.splice 0 env.appVersion }.respond SW_OK 3

/-- Call a handler. -/
def Handler.call (env : Env) (p1 p2 : UInt8) (data : List UInt8)
    (device : Device build) :
    Handler -> Except Fault (Outcome build)
  | .getVersion => .ok (handleGetVersion env device)
  | .getPublicKey => .ok (handleGetPublicKey env p2 device)
  | .signStaking => handleSignStaking env p1 p2 data device
  | .signTx => handleSignTx env p1 p2 data device

/-- The status word of an exception. -/
def statusOf (e : Nat) : Nat :=
  if e &&& 0xF000 = 0x6000 ∨ e &&& 0xF000 = 0x9000 then e
  else 0x6800 ||| (e &&& 0x7FF)

/-- `CATCH_OTHER` of `one_main`, and the reply at the head of its loop. -/
def Outcome.caught (outcome : Outcome build) : Device build × List Effect :=
  match outcome.thrown with
  | none => (outcome.device, outcome.effects)
  | some e =>
      ({ outcome.device with
          io := outcome.device.io.splice 0
            [UInt8.ofNat (statusOf e / 2 ^ 8), UInt8.ofNat (statusOf e)] },
        outcome.effects ++ [.respond [] (statusOf e)])

/-- The body of `one_main` on the bytes that `io_exchange` has put into
`G_io_apdu_buffer`. -/
def dispatch (env : Env) (device : Device build) :
    Except Fault (Outcome build) :=
  let io := device.io
  if io.get OFFSET_CLA ≠ CLA then .ok (device.throw device.ctx 0x6E00)
  else
    match lookupHandler (io.get OFFSET_INS) with
    | none => .ok (device.throw device.ctx 0x6D00)
    | some handler => handler.call env (io.get OFFSET_P1) (io.get OFFSET_P2)
        (io.read OFFSET_CDATA (io.get OFFSET_LC).toNat) device

/-- One round of `one_main` on the bytes of a request. -/
def receive (env : Env) (rx : List UInt8) (device : Device build) :
    Except Fault (Device build × List Effect) :=
  (dispatch env { device with io := device.io.splice 0 rx }).map
    Outcome.caught

/-- The button handler of the screen of the Nano S. -/
def pressNanoS (env : Env) (device : Device .nanoS) (press : Press) :
    Except Fault (Outcome .nanoS) :=
  match device.screen with
  | .getPublicKeyApprove => .ok (getPublicKeyApproveButton env device press)
  | .getPublicKeyCompare => .ok (getPublicKeyCompareButton device press)
  | .signTxApprove => signTxApproveButton device press
  | .addressCompare => addressCompareButton env device press
  | .amountCompareLarge => amountCompareLargeButton device press
  | .amountCompare => amountCompareButton device press
  | .fromshardApprove => fromshardApproveButton device press
  | .txApprove => txApproveButton env device press
  | .signStakingApprove => signStakingApproveButton device press
  | .delegatorAddressCompare => delegatorAddressCompareButton device press
  | .validatorAddressCompare =>
      validatorAddressCompareButton env device press
  | .stakingAmountCompareLarge =>
      stakingAmountCompareLargeButton device press
  | .stakingAmountCompare => stakingAmountCompareButton device press
  | .descriptionCompare => descriptionCompareButton env device press
  | .commissionRate => commissionRateButton env device press
  | .delegationRate => delegationRateButton env device press
  | .blsKeys => blsKeysButton device press
  | .confirmSigning => confirmSigningButton env device press
  | _ => .ok { device := device }

/-- The callbacks of the flow of the Nano X. -/
def pressNanoX (env : Env) (device : Device .nanoX) (press : Press) :
    Except Fault (Outcome .nanoX) :=
  match device.screen with
  | .displayPublicFlow => .ok (displayPublicFlowStep device press)
  | .approvalTxFlow => approvalTxFlowStep env device press
  | .stakingFlow _ => stakingFlowStep env device press
  | _ => .ok { device := device }

/-- What a press does. -/
def pressed (env : Env) :
    (build : Build) -> Device build -> Press -> Except Fault (Outcome build)
  | .nanoS => pressNanoS env
  | .nanoX => pressNanoX env

/-- A well-formed request. -/
structure Apdu where
  cla : UInt8
  ins : UInt8
  p1 : UInt8
  p2 : UInt8
  data : List UInt8
  length_data : data.length ≤ 255

/-- The bytes of a request. -/
def Apdu.bytes (apdu : Apdu) : List UInt8 :=
  [apdu.cla, apdu.ins, apdu.p1, apdu.p2, UInt8.ofNat apdu.data.length] ++
    apdu.data

/-- What the SDK delivers, one at a time. -/
inductive Event
  | apdu (apdu : Apdu)
  | press (press : Press)

/-- The application, as it takes one event after the other. -/
def firmware (env : Env) (build : Build) :
    Machine Fault (Device build) Event Effect where
  step device
    | .apdu apdu => receive env apdu.bytes device
    | .press press => (pressed env build device press).map Outcome.caught

/-- The application as it starts. -/
def Device.boot (build : Build) : Device build := {}

/-- The environment of the integration tests: the address of their seed, and
the hashes and signatures of the messages in the given tables. -/
def Env.ofTables (hashes signatures : List (List UInt8 × List UInt8)) :
    Env where
  appVersion := [1, 6, 0]
  length_appVersion := rfl
  exceptionOverflow := 3
  exceptionOverflow_lt := by decide
  invalidParameter := 2
  invalidParameter_lt := by decide
  keccak bytes := ((hashes.lookup bytes).getD []).takeD 32 0
  length_keccak _ := List.takeD_length _ _ _
  signature hash := ((signatures.lookup hash).getD []).takeD SIGNATURE_LEN 0
  length_signature _ := List.takeD_length _ _ _
  ethAddress := Region.ofList [0x2b, 0x56, 0x93, 0x8d, 0x69, 0x5b, 0x81, 0xc9,
    0xca, 0x6d, 0xcb, 0x8e, 0x56, 0x57, 0x01, 0x40, 0xd8, 0x53, 0x23, 0x3f]

/-! ## Requests -/

section Requests

variable (env : Env) (apdu : Apdu) (device : Device build)

/-- The device that has received a request. -/
def Device.received : Device build :=
  { device with io := device.io.splice 0 apdu.bytes }

theorem length_bytes : apdu.bytes.length = apdu.data.length + 5 := by
  simp [Apdu.bytes]

private theorem get_received (position : Nat)
    (inside : position < apdu.bytes.length) :
    (device.received apdu).io.get position = apdu.bytes[position] := by
  have bound := apdu.length_data
  rw [length_bytes] at inside
  have within : position < 260 := by omega
  rw [Device.received, Region.get_splice _ _ _ _ within,
    if_pos (by rw [length_bytes]; omega)]
  simp [List.getD_eq_getElem?_getD, length_bytes, inside]

/-- A well-formed request reaches its handler as it was sent. -/
theorem dispatch_received :
    dispatch env (device.received apdu) =
      if apdu.cla ≠ CLA then
        .ok ((device.received apdu).throw device.ctx 0x6E00)
      else
        match lookupHandler apdu.ins with
        | none => .ok ((device.received apdu).throw device.ctx 0x6D00)
        | some handler => handler.call env apdu.p1 apdu.p2 apdu.data
            (device.received apdu) := by
  have long := length_bytes apdu
  have bound := apdu.length_data
  have header : ∀ position, (inside : position < 5) ->
      (device.received apdu).io.get position =
        apdu.bytes.get ⟨position, by omega⟩ :=
    fun position inside => get_received apdu device position (by omega)
  have data : (device.received apdu).io.read OFFSET_CDATA apdu.data.length =
      apdu.data := by
    apply List.ext_getElem
    · simp
    · intro index inside _
      rw [Region.length_read] at inside
      rw [Region.getElem_read, get_received apdu device _ (by
        simp [OFFSET_CDATA, long]; omega)]
      simp [Apdu.bytes, OFFSET_CDATA, Nat.add_comm 5 index]
  have count : (UInt8.ofNat apdu.data.length).toNat = apdu.data.length := by
    simp
    omega
  unfold dispatch
  simp only [OFFSET_CLA, OFFSET_INS, OFFSET_P1, OFFSET_P2, OFFSET_LC,
    header 0 (by omega), header 1 (by omega), header 2 (by omega),
    header 3 (by omega), header 4 (by omega)]
  simp only [Apdu.bytes, List.get_eq_getElem, List.cons_append,
    List.getElem_cons_zero, List.getElem_cons_succ, count, data]
  rfl

end Requests

/-- A press of the firmware is a press of its handler. -/
theorem step_of_pressed {env : Env} {device : Device build} (press : Press)
    {outcome : Outcome build}
    (presses : pressed env build device press = .ok outcome) :
    (firmware env build).step device (.press press) = .ok outcome.caught := by
  show (pressed env build device press).map Outcome.caught = _
  rw [presses]
  rfl

end LedgerOne
