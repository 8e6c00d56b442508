import LedgerOne.Firmware.Bech32
import LedgerOne.Firmware.Rlp

/-!
# The command context and the screens (`ui.h`)

The union of the command contexts, the screens of the two builds and what the
application does to the outside.  The two signing contexts start with the same
fields and go on with display strings at places of their own; here the strings
are one array of bytes, `Display.strings`, and the places are offsets into it.
-/

namespace LedgerOne

/-- The two builds of the application; the second one has `HAVE_UX_FLOW`. -/
inductive Build
  | nanoS
  | nanoX
  deriving DecidableEq

/-- The bytes of `commandContext` behind `txContent`. -/
def Build.stringsSize : Build -> Nat
  | .nanoS => 420
  | .nanoX => 736

/-- What the screens show: `displayIndex` and the strings of the contexts. -/
structure Display (build : Build) where
  displayIndex : UInt8 := 0
  strings : Region build.stringsSize := .zero
  deriving DecidableEq

/-- `commandContext`, as the two signing contexts see it. -/
structure Ctx (build : Build) where
  display : Display build := {}
  buf : Region 1024 := .zero
  length : Nat := 0
  txContext : TxContext := {}
  deriving DecidableEq

/-- `txContent`, which `txContext.content` leads to. -/
abbrev Ctx.txContent (ctx : Ctx build) : TxContent := ctx.txContext.content

/-- The bytes in the buffer. -/
def Ctx.message (ctx : Ctx build) : List UInt8 := ctx.buf.read 0 ctx.length

/-! ## Offsets of the strings

Those of `signTxnContext_t` and `signStakingContext_t` count from the end of
`txContent`.  `getPublicKeyContext_t` covers `displayIndex` and the start of
`buf`, so that its offsets count from there. -/

namespace SignTxn

def toAddr : Nat := 0
def partialAddrStr : Nat := 42
def amountStr : Nat := 55
def amountLength : Nat := 136
def partialAmountStr : Nat := 140
def shardStr : Nat := 153
def hash : Nat := 217
def typeStr : Nat := 377
def initialized : Nat := 417
def size : Nat := 420

end SignTxn

namespace SignStaking

def hash : Nat := 0
def fullStr : Nat := 32
def delegatorAddr : Nat := 164
def validatorAddr : Nat := 212
def commissionRateStr : Nat := 260
def delegationStr : Nat := 392
def amountStr : Nat := 524
def nameStr : Nat := 652
def statusStr : Nat := 682

def fullStrLength : Build -> Nat
  | .nanoS => 164
  | .nanoX => 712

def partialStr : Build -> Nat
  | .nanoS => 168
  | .nanoX => 716

def initialized : Build -> Nat
  | .nanoS => 186
  | .nanoX => 734

def size : Build -> Nat
  | .nanoS => 188
  | .nanoX => 736

end SignStaking

namespace GetPublicKey

def displayIndex : Nat := 0
def typeStr : Nat := 1
def fullStr : Nat := 81
def partialStr : Nat := 158
def size : Nat := 171

end GetPublicKey

/-! ## Writing strings -/

namespace Display

variable (display : Display build)

/-- Store bytes. -/
def write (offset : Nat) (bytes : List UInt8) :
    Except Fault (Display build) :=
  match display.strings.write? offset bytes with
  | none => .error .contextOverrun
  | some strings => .ok { display with strings := strings }

/-- Fetch bytes. -/
def read (offset count : Nat) : Except Fault (List UInt8) :=
  match display.strings.read? offset count with
  | none => .error .contextOverrun
  | some bytes => .ok bytes

/-- `os_memmove` between strings. -/
def copy (target source count : Nat) : Except Fault (Display build) := do
  let bytes ← display.read source count
  display.write target bytes

/-- `os_memset` to zero. -/
def clear (offset count : Nat) : Except Fault (Display build) :=
  display.write offset (List.replicate count 0)

/-- A `uint32_t` among the strings. -/
def getUint32 (offset : Nat) : Nat := leNat (display.strings.read offset 4)

def putUint32 (offset value : Nat) : Except Fault (Display build) :=
  display.write offset (uint32Bytes value).toList

/-- The C string at an offset. -/
def text (offset : Nat) : List UInt8 :=
  (display.strings.toList.drop offset).takeWhile (· ≠ 0)

/-- `bech32_get_address` on an address. -/
def writeAddress (offset : Nat) (address : Region 20) :
    Except Fault (Display build) :=
  match bech32GetAddress address.toList with
  | none => .ok display
  | some text => display.write offset (text ++ [0])

/-- `convertU256ToString` on a padded number, with `sizeLimit` 78; the length
is stored at `lengthAt` if that is given. -/
def writeAmount (offset : Nat) (lengthAt : Option Nat) (int : TxInt256) :
    Except Fault (Display build × Conversion) := do
  let numberBuf ← padNumber int
  let conversion ← convertU256ToString numberBuf 78
  let written ← conversion.writes.foldlM
    (fun display (position, bytes) => display.write (offset + position) bytes)
    display
  match lengthAt, conversion.outLength with
  | some place, some outLength =>
      return (← written.putUint32 place outLength, conversion)
  | _, _ => return (written, conversion)

/-- Scroll a window to the left. -/
def seekLeft (target source count : Nat) : Except Fault (Display build) :=
  let index := if 0 < display.displayIndex then display.displayIndex - 1
    else display.displayIndex
  { display with displayIndex := index }.copy target (source + index.toNat)
    count

/-- Scroll a window to the right, while the index is below a limit. -/
def seekRight (limit target source count : Nat) :
    Except Fault (Display build) :=
  let index := if display.displayIndex.toNat < limit then
    display.displayIndex + 1 else display.displayIndex
  { display with displayIndex := index }.copy target (source + index.toNat)
    count

end Display

/-- The difference of two `uint32_t`. -/
def minusUint32 (left right : Nat) : Nat := (left + 2 ^ 32 - right) % 2 ^ 32

/-! ## Screens, presses and effects -/

/-- The review flows of the Nano X for staking operations. -/
inductive StakingFlow
  | createValidator
  | editValidator
  | delegate
  | collectRewards
  deriving DecidableEq

/-- What is on the screen. -/
inductive Screen
  | idle
  | getPublicKeyApprove
  | getPublicKeyCompare
  | displayPublicFlow
  | signTxApprove
  | addressCompare
  | amountCompareLarge
  | amountCompare
  | fromshardApprove
  | txApprove
  | approvalTxFlow
  | signStakingApprove
  | delegatorAddressCompare
  | validatorAddressCompare
  | stakingAmountCompareLarge
  | stakingAmountCompare
  | descriptionCompare
  | commissionRate
  | delegationRate
  | blsKeys
  | confirmSigning
  | stakingFlow (flow : StakingFlow)
  deriving DecidableEq

/-- What the user does.  The first five are the button masks of the Nano S;
the last two are the steps of a Nano X flow that call back, moving between the
steps being left to the SDK. -/
inductive Press
  | seekLeft
  | seekRight
  | releasedLeft
  | releasedRight
  | releasedBoth
  | accept
  | cancel
  deriving DecidableEq

/-- What the application does to the outside. -/
inductive Effect
  /-- `cx_hash` with `CX_LAST` over these bytes, to be signed. -/
  | hash (bytes : List UInt8)
  /-- A response APDU: its data and its status. -/
  | respond (data : List UInt8) (code : Nat)
  deriving DecidableEq

def P1_FIRST : UInt8 := 0x00
def P1_MORE : UInt8 := 0x80
def P2_FINISH : UInt8 := 0x02
def CMD_BUFFER_SIZE : Nat := 255

def SW_INVALID_PARAM : Nat := 0x6B01
def SW_USER_REJECTED : Nat := 0x6985
def SW_OK : Nat := 0x9000

def SIGNATURE_LEN : Nat := 65

/-- What the application uses of the SDK and of the seed: the version, the two
SDK exceptions it throws, the hash, the signature of a hash and the account's
address. -/
structure Env where
  appVersion : List UInt8
  length_appVersion : appVersion.length = 3
  exceptionOverflow : Nat
  exceptionOverflow_lt : exceptionOverflow < 0x1000
  invalidParameter : Nat
  invalidParameter_lt : invalidParameter < 0x1000
  keccak : List UInt8 -> List UInt8
  length_keccak : ∀ bytes, (keccak bytes).length = 32
  signature : List UInt8 -> List UInt8
  length_signature : ∀ hash, (signature hash).length = SIGNATURE_LEN
  ethAddress : Region 20

/-- The whole application: the command context, the screen and
`G_io_apdu_buffer`. -/
structure Device (build : Build) where
  ctx : Ctx build := {}
  screen : Screen := .idle
  io : Region 260 := .zero
  deriving DecidableEq

/-- How a handler ends: the device it leaves, what it did and the exception it
threw, if any. -/
structure Outcome (build : Build) where
  device : Device build
  effects : List Effect := []
  thrown : Option Nat := none

namespace Device

variable (device : Device build)

/-- Go on with a context and a screen. -/
def proceed (ctx : Ctx build) (screen : Screen) : Outcome build :=
  { device := { device with ctx := ctx, screen := screen } }

/-- `THROW` after the context was changed. -/
def throw (ctx : Ctx build) (code : Nat) : Outcome build :=
  { device := { device with ctx := ctx }, thrown := some code }

/-- `io_exchange_with_code`. -/
def respond (code tx : Nat) : Outcome build where
  device := { device with
    io := device.io.splice tx
      [UInt8.ofNat (code / 2 ^ 8), UInt8.ofNat code] }
  effects := [.respond (device.io.read 0 tx) code]

/-- `io_exchange_with_code`, then `ui_idle`. -/
def respondIdle (code tx : Nat) : Outcome build :=
  let outcome := device.respond code tx
  { outcome with device := { outcome.device with screen := .idle } }

/-- Rejecting a request. -/
def reject : Outcome build := device.respondIdle SW_USER_REJECTED 0

/-- Hash the buffer, keep the hash among the strings, and respond with the
signature. -/
def sign (env : Env) (hashAt : Nat) : Except Fault (Outcome build) := do
  let hash := env.keccak device.ctx.message
  let display ← device.ctx.display.write hashAt hash
  let signed := { device with
    ctx := { device.ctx with display := display }
    io := device.io.splice 0 (env.signature hash) }
  let outcome := signed.respondIdle SW_OK SIGNATURE_LEN
  return { outcome with
    effects := .hash device.ctx.message :: outcome.effects }

end Device

/-! ## Packets of a message -/

/-- `P1_FIRST`: the context of the instruction, whose strings are `size` bytes
long, is cleared. -/
def Ctx.clearFor (size initialized : Nat) (ctx : Ctx build) : Ctx build where
  display := {
    displayIndex := 0
    strings := (ctx.display.strings.splice 0 (List.replicate size 0)).splice
      initialized [1] }
  buf := .zero
  length := 0
  txContext := { workBuffer := some 0 }

/-- How a packet of a message ends: with an exception, or with the message to
be parsed. -/
inductive PacketEnd (build : Build)
  | thrown (ctx : Ctx build) (code : Nat)
  | finished (ctx : Ctx build)

/-- The first half of `handleSignTx` and `handleSignStaking`: collect the bytes
of a message. -/
def collectPacket (env : Env) (size initialized : Nat) (p1 p2 : UInt8)
    (data : List UInt8) (ctx : Ctx build) : PacketEnd build :=
  let ctx := if p1 = P1_FIRST then ctx.clearFor size initialized else ctx
  if CMD_BUFFER_SIZE * 4 < ctx.length + data.length then
    .thrown ctx env.exceptionOverflow
  else
    let ctx := { ctx with
      buf := ctx.buf.splice ctx.length data
      length := ctx.length + data.length }
    if p2 = P2_FINISH then
      .finished { ctx with
        display := { ctx.display with
          strings := ctx.display.strings.splice initialized [0] }
        txContext := { ctx.txContext with commandLength := ctx.length } }
    else .thrown ctx SW_OK

end LedgerOne
