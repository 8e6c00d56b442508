import LedgerOne.Host.Exchange

/-!
# The command line and the wallet driver (`oneledger.go`,
`wallet/nano_S_driver.go`)

The commands that the hosts in Go send, and what they make of the answers.
-/

namespace LedgerOne

/-- The errors of the commands. -/
inductive NanoSError
  | host (error : HostError)
  /-- `APDU response missing status code`. -/
  | missingStatusCode
  /-- `user denied request`. -/
  | userRejected
  /-- `invalid request parameters`. -/
  | invalidParam
  /-- `Error code 0x%x`. -/
  | errCode (code : Nat)
  /-- `version has wrong length`. -/
  | versionLength
  /-- `pubkey has wrong length`. -/
  | pubkeyLength
  /-- `signature has wrong length`. -/
  | signatureLength
  deriving DecidableEq

def codeSuccess : Nat := 0x9000
def codeUserRejected : Nat := 0x6985
def codeInvalidParam : Nat := 0x6b01

/-- The error of a status code, if it is one. -/
def codeError (code : Nat) : Option NanoSError :=
  if code = codeSuccess then none
  else if code = codeUserRejected then some .userRejected
  else if code = codeInvalidParam then some .invalidParam
  else some (.errCode code)

/-- What is made of an answer: its status code ends it. -/
def decodeAnswer (resp : List UInt8) : Except NanoSError (List UInt8) :=
  if resp.length < 2 then .error .missingStatusCode
  else
    match codeError (beNat (resp.drop (resp.length - 2))) with
    | some error => .error error
    | none => .ok (resp.take (resp.length - 2))

section Commands

variable {ρ : Type} (rw : ReadWriter ρ)

/-- What a command yields, and the framer and the device after it. -/
abbrev Command (ρ α : Type) :=
  HidFramer × ρ -> Option (Except NanoSError (α × HidFramer × ρ))

/-- `NanoS.Exchange`. -/
def nanoSExchange (cmd p1 p2 : UInt8) (data : List UInt8) :
    Command ρ (List UInt8) := fun state =>
  match apduExchange rw ⟨0xe0, cmd, p1, p2, data⟩ state with
  | none => none
  | some (.error error) => some (.error (.host error))
  | some (.ok (resp, next)) =>
      some ((decodeAnswer resp).map fun data => (data, next))

/-- Check what an exchange has got. -/
def Command.checked {α : Type} (command : Command ρ (List UInt8))
    (check : List UInt8 -> Except NanoSError α) : Command ρ α := fun state =>
  (command state).map fun result => result.bind fun got =>
    (check got.1).map fun value => (value, got.2)

def cmdGetVersion : UInt8 := 0x01
def cmdGetPublicKey : UInt8 := 0x02
def cmdSignStake : UInt8 := 0x04
def cmdSignTx : UInt8 := 0x08

def p1First : UInt8 := 0x0
def p1More : UInt8 := 0x80

def p2DisplayAddress : UInt8 := 0x00
def p2SignHash : UInt8 := 0x01
def p2Finish : UInt8 := 0x02

/-- A signature is copied out of the answer. -/
def checkSignature (resp : List UInt8) : Except NanoSError (List UInt8) :=
  if resp.length < 65 then .error .signatureLength else .ok (resp.take 65)

/-- `NanoS.GetVersion`, before the version is formatted. -/
def nanoSGetVersion : Command ρ (List UInt8) :=
  Command.checked (nanoSExchange rw cmdGetVersion 0 0 []) fun resp =>
    if resp.length ≠ 3 then .error .versionLength else .ok resp

/-- `NanoS.GetAddress`. -/
def nanoSGetAddress : Command ρ (List UInt8) :=
  Command.checked (nanoSExchange rw cmdGetPublicKey 0 p2DisplayAddress [])
    fun resp =>
      if resp.length < 42 then .error .pubkeyLength else .ok (resp.take 42)

/-- `NanoS.SignStake`. -/
def nanoSSignStake (stake : List UInt8) : Command ρ (List UInt8) :=
  Command.checked (nanoSExchange rw cmdSignStake p1First p2Finish stake)
    checkSignature

/-- `NanoS.SignTxn`. -/
def nanoSSignTxn (txn : List UInt8) : Command ρ (List UInt8) :=
  Command.checked (nanoSExchange rw cmdSignTx p1First p2Finish txn)
    checkSignature

/-! ## The wallet driver -/

def cmdSignHash : UInt8 := 0x04

/-- `NanoS.SignHash` of the wallet driver. -/
def walletSignHash (hash : List UInt8) : Command ρ (List UInt8) :=
  Command.checked (nanoSExchange rw cmdSignHash 0 0 hash) checkSignature

/-- `NanoS.SignTxn` of the wallet driver. -/
def walletSignTxn (txn : List UInt8) : Command ρ (List UInt8) :=
  Command.checked (nanoSExchange rw cmdSignTx p1More p2SignHash txn)
    checkSignature

end Commands

end LedgerOne
