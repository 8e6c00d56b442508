import LedgerOne.Host.Framer
import LedgerOne.Lib.Hex

/-!
# The JavaScript SDK (`ledger_sdk.js`)

`HarmonyApp` cuts a message into packets of 255 bytes, sends one after the
other and takes the signature out of the last answer.
-/

namespace LedgerOne

namespace Sdk

def CLA : UInt8 := 0xe0
def CHUNK_SIZE : Nat := 255

def GET_VERSION : UInt8 := 0x01
def GET_PUBLIC_KEY : UInt8 := 0x02
def SIGN_STAKING : UInt8 := 0x04
def SIGN_TX : UInt8 := 0x08

def SW_ERR : Nat := 0x6985

def P1_FIRST : UInt8 := 0x0
def P1_MORE : UInt8 := 0x80
def P2_SIGNHASH : UInt8 := 0x01
def P2_FINISH : UInt8 := 0x02

/-! ## Messages as text -/

/-- The value of a hexadecimal digit. -/
def hexDigit? (unit : UInt16) : Option Nat :=
  if 0x30 ≤ unit ∧ unit ≤ 0x39 then some (unit.toNat - 0x30)
  else if 0x41 ≤ unit ∧ unit ≤ 0x46 then some (unit.toNat - 0x41 + 10)
  else if 0x61 ≤ unit ∧ unit ≤ 0x66 then some (unit.toNat - 0x61 + 10)
  else none

/-- White space and line ends. -/
def isWhiteSpace (unit : UInt16) : Bool :=
  (0x09 ≤ unit && unit ≤ 0x0d) || unit == 0x20 || unit == 0xa0 ||
    unit == 0x1680 || (0x2000 ≤ unit && unit ≤ 0x200a) || unit == 0x2028 ||
    unit == 0x2029 || unit == 0x202f || unit == 0x205f || unit == 0x3000 ||
    unit == 0xfeff

/-- The hexadecimal digits that text starts with. -/
def leadingDigits (units : List UInt16) : List Nat :=
  (units.map hexDigit?).takeWhile Option.isSome |>.filterMap id

/-- `parseInt` of at most two characters, other than `0x`, with radix 16; none
for `NaN`. -/
def parseInt16 (units : List UInt16) : Option Int :=
  let trimmed := units.dropWhile isWhiteSpace
  let negative := trimmed.head? == some 0x2d
  let unsigned :=
    if negative ∨ trimmed.head? = some 0x2b then trimmed.drop 1 else trimmed
  let digits :=
    if unsigned = [0x30, 0x78] ∨ unsigned = [0x30, 0x58] then []
    else leadingDigits unsigned
  if digits = [] then none
  else
    let value : Int := (digits.foldl (fun value digit => 16 * value + digit) 0 :)
    some (if negative then -value else value)

/-- `Buffer.from`, for one number of a list. -/
def bufferByte (value : Option Int) : UInt8 :=
  UInt8.ofNat ((value.getD 0) % 256).toNat

/-- `hexToBytes`, and `Buffer.from` of its result. -/
def hexToBytes (hex : List UInt16) : List UInt8 :=
  (chunks 2 hex).filterMap fun pair =>
    if pair = [0x30, 0x78] then none else some (bufferByte (parseInt16 pair))

/-- The text of a message: `0x` and its hexadecimal digits. -/
def hexMessage (bytes : List UInt8) : List UInt16 :=
  [0x30, 0x78] ++ (hexText bytes).map UInt8.toUInt16

/-- Two digits are read as their byte. -/
theorem parseInt16_digits : ∀ high < 16, ∀ low < 16,
    [(hexNibble high).toUInt16, (hexNibble low).toUInt16] ≠ [0x30, 0x78] ∧
      bufferByte (parseInt16 [(hexNibble high).toUInt16,
        (hexNibble low).toUInt16]) = UInt8.ofNat (16 * high + low) := by
  decide +kernel

theorem chunks_pair {α : Type} (first second : α) (rest : List α) :
    chunks 2 (first :: second :: rest) = [first, second] :: chunks 2 rest :=
  chunks_cons (by decide) (List.cons_ne_nil _ _)

theorem hexToBytes_digits (bytes : List UInt8) :
    hexToBytes ((hexText bytes).map UInt8.toUInt16) = bytes := by
  induction bytes with
  | nil => rfl
  | cons byte bytes inductionHypothesis =>
      have small := byte.toNat_lt
      obtain ⟨other, value⟩ := parseInt16_digits (byte.toNat / 16) (by omega)
        (byte.toNat % 16) (Nat.mod_lt _ (by decide))
      rw [Nat.div_add_mod, UInt8.ofNat_toNat] at value
      rw [hexText_cons, List.map_cons, List.map_cons, hexToBytes, chunks_pair,
        List.filterMap_cons, if_neg other, value]
      exact congrArg (byte :: ·) inductionHypothesis

/-- The text of a message is read as the message. -/
theorem hexToBytes_hexMessage (bytes : List UInt8) :
    hexToBytes (hexMessage bytes) = bytes := by
  rw [hexMessage, hexToBytes, List.cons_append, List.cons_append,
    List.nil_append, chunks_pair, List.filterMap_cons, if_pos rfl]
  exact hexToBytes_digits bytes

/-! ## Requests -/

/-- Why `transport.send` is rejected. -/
inductive TransportError
  | statusCode (code : Nat)
  | dataLengthTooBig

/-- `transport.send`: what its promise becomes, unless it stays pending. -/
abbrev Transport (τ : Type) :=
  τ -> APDU -> Option (Except TransportError (List UInt8) × τ)

/-- One of a number of packets. -/
def signRequest (ins : UInt8) (count : Nat) (chunk : List UInt8 × Nat) :
    APDU where
  cla := CLA
  ins := ins
  p1 := if chunk.2 = 0 then P1_FIRST else P1_MORE
  p2 := if chunk.2 = count - 1 then P2_FINISH else P2_SIGNHASH
  payload := chunk.1

/-- The packets of `signTx` and `signStake`. -/
def signRequests (ins : UInt8) (buffer : List UInt8) : List APDU :=
  let pieces := chunks CHUNK_SIZE buffer
  pieces.zipIdx.map (signRequest ins pieces.length)

/-- What `HarmonyApp` returns; a `return_code` may be `NaN`. -/
structure Response where
  signature : List UInt8
  return_code : Option Nat
  deriving DecidableEq

/-- What is wrong with `resp.slice` when there is no response. -/
inductive JsError
  | typeError
  deriving DecidableEq

/-- `processErrorResponse`. -/
def processErrorResponse : Response := ⟨ascii "0x0", some SW_ERR⟩

/-- The status that ends a response. -/
def returnCode (resp : List UInt8) : Option Nat :=
  if resp.length < 2 then none
  else some (beNat (resp.drop (resp.length - 2)))

section Calls

variable {τ : Type} (send : Transport τ)

/-- The loop of `signTx` over the packets, with the last response. -/
def sendAll : List APDU -> Option (List UInt8) -> τ ->
    Option (Except TransportError (Option (List UInt8)) × τ)
  | [], resp, state => some (.ok resp, state)
  | apdu :: apdus, _, state =>
      match send state apdu with
      | none => none
      | some (.error error, next) => some (.error error, next)
      | some (.ok resp, next) => sendAll apdus (some resp) next

/-- The body of `signTx` and `signStake`. -/
def signBuffer (ins : UInt8) (buffer : List UInt8) (state : τ) :
    Option (Except JsError Response × τ) :=
  match sendAll send (signRequests ins buffer) none state with
  | none => none
  | some (.error _, next) => some (.ok processErrorResponse, next)
  | some (.ok none, next) => some (.error .typeError, next)
  | some (.ok (some resp), next) =>
      some (.ok ⟨resp.take 65, returnCode resp⟩, next)

/-- `signTx`. -/
def signTx (message : List UInt16) : τ -> Option (Except JsError Response × τ) :=
  signBuffer send SIGN_TX (hexToBytes message)

/-- `signStake`. -/
def signStake (message : List UInt16) :
    τ -> Option (Except JsError Response × τ) :=
  signBuffer send SIGN_STAKING (hexToBytes message)

/-- `publicKey`: the address and the status, or the error. -/
def publicKey (silentMode : Bool) (state : τ) :
    Option (Except Response (List UInt8 × Option Nat) × τ) :=
  match send state ⟨CLA, GET_PUBLIC_KEY, 0, if silentMode then 1 else 0, []⟩ with
  | none => none
  | some (.error _, next) => some (.error processErrorResponse, next)
  | some (.ok resp, next) => some (.ok (resp.take 42, returnCode resp), next)

/-- What `signTransaction` and `signStakingTransaction` throw. -/
inductive SigningError
  /-- `LEDGER_LOCKED`. -/
  | locked
  /-- `Error [..] ..`. -/
  | returned (return_code : Option Nat)
  /-- `LEDGER_CONFIRM_REJECT`. -/
  | confirmReject
  | js (error : JsError)

/-- What is put into a signed transaction. -/
structure SignedFields where
  r : List UInt8
  s : List UInt8
  v : Nat
  deriving DecidableEq

/-- The fields of a signature. -/
def signedFields (signature : List UInt8) (chainId : Nat) : SignedFields :=
  let v := (signature.getD 64 0).toNat
  { r := signature.take 32
    s := (signature.take 64).drop 32
    v := (if v ≠ 27 ∧ v ≠ 28 then 27 + v % 2 else v) + (chainId * 2 + 8) }

/-- The body of `signTransaction` and `signStakingTransaction`: `unsigned`
is the transaction with the nonce of an address, as text, and `sign` the call
that has it signed. -/
def signUnsigned (unsigned : List UInt8 -> List UInt16)
    (sign : List UInt16 -> τ -> Option (Except JsError Response × τ))
    (chainId : Nat) (state : τ) :
    Option (Except SigningError SignedFields × τ) :=
  match publicKey send true state with
  | none => none
  | some (.error _, next) => some (.error .locked, next)
  | some (.ok (address, code), next) =>
      if code = some SW_ERR then some (.error .locked, next)
      else if code ≠ some 0x9000 then some (.error (.returned code), next)
      else
        match sign (unsigned address) next with
        | none => none
        | some (.error error, last) => some (.error (.js error), last)
        | some (.ok response, last) =>
            if response.return_code = some SW_ERR then
              some (.error .confirmReject, last)
            else some (.ok (signedFields response.signature chainId), last)

/-- `signTransaction`. -/
def signTransaction (unsigned : List UInt8 -> List UInt16) :
    Nat -> τ -> Option (Except SigningError SignedFields × τ) :=
  signUnsigned send unsigned (signTx send)

/-- `signStakingTransaction`. -/
def signStakingTransaction (unsigned : List UInt8 -> List UInt16) :
    Nat -> τ -> Option (Except SigningError SignedFields × τ) :=
  signUnsigned send unsigned (signStake send)

end Calls

end Sdk

end LedgerOne
