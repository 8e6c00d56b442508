import LedgerOne.Decoder.Cursor

/-!
# Fresh parser contexts

The first packet of a session clears the parser context and the last one sets
its start; in between only bytes are received.
-/

namespace LedgerOne

/-- The buffer has received a byte string. -/
structure Received (buf : Region 1024) (bytes : List UInt8) : Prop where
  fits : bytes.length ≤ 1024
  bytes : buf.read 0 bytes.length = bytes

/-- The buffer just after `memset`, with a byte string received. -/
theorem received_ofList {bytes : List UInt8} (fits : bytes.length ≤ 1024) :
    Received (Region.ofList bytes) bytes where
  fits := fits
  bytes := Region.read_splice_self _ _ _ (by omega)

/-- The context on which a fresh transfer session calls `processTx`. -/
def transferStart (length : Nat) : TxContext :=
  { txCurrentField := .content
    workBuffer := some 0
    commandLength := length }

/-- The context on which a fresh staking session calls `processStaking`. -/
def stakingStart (length : Nat) : TxContext :=
  { stakeCurrentField := .content
    workBuffer := some 0
    commandLength := length }

variable {buf : Region 1024} {bytes : List UInt8}

theorem Received.clean_of_eq (received : Received buf bytes)
    {context : TxContext} (workBuffer : context.workBuffer = some 0)
    (commandLength : context.commandLength = bytes.length)
    (idle : context.processingField = false)
    (rlpBufferPos : context.rlpBufferPos = 0) :
    Clean buf context bytes where
  holds := ⟨0, workBuffer, by have := received.fits; omega, commandLength,
    received.bytes⟩
  idle := idle
  rlpBufferPos := rlpBufferPos

theorem clean_transferStart (received : Received buf bytes) :
    Clean buf (transferStart bytes.length) bytes :=
  received.clean_of_eq rfl rfl rfl rfl

theorem clean_stakingStart (received : Received buf bytes) :
    Clean buf (stakingStart bytes.length) bytes :=
  received.clean_of_eq rfl rfl rfl rfl

end LedgerOne
