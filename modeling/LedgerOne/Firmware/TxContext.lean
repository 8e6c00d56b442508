import LedgerOne.Lib.Bytes

/-!
# The parser's data (`rlp.h`)

The field enumerations, the decoded transaction `txContent_t` and the parser
context `txContext_t`.  Counters are natural numbers; where the source's
fixed widths can matter the reduction is written out.  The context carries
the decoded content that its `content` pointer leads to, and `workBuffer` is
an offset into the receive buffer, or none for the null pointer.
-/

namespace LedgerOne

def MAX_INT256 : Nat := 32
def MAX_ECC_ADDRESS : Nat := 20
def MAX_BLS_ADDRESS : Nat := 48
def MAX_SIG_ADDRESS : Nat := 96
def MAX_ONE_ADDRESS : Nat := 42
def BLS_KEY_STR_LEN : Nat := 130
def MAX_INT32 : Nat := 4
def MAX_NAME_LEN : Nat := 30

/-- `rlpTxField_e`.  The C code increments the enumeration without a bound, so
the values past `TX_RLP_DONE` are there too. -/
inductive RlpTxField
  | none
  | content
  | nonce
  | gasprice
  | gaslimit
  | fromshard
  | toshard
  | to
  | amount
  | done
  | past (excess : Nat)
  deriving DecidableEq

/-- The increment `txCurrentField++`. -/
def RlpTxField.next : RlpTxField -> RlpTxField
  | .none => .content
  | .content => .nonce
  | .nonce => .gasprice
  | .gasprice => .gaslimit
  | .gaslimit => .fromshard
  | .fromshard => .toshard
  | .toshard => .to
  | .to => .amount
  | .amount => .done
  | .done => .past 0
  | .past excess => .past (excess + 1)

/-- `rlpStakingField_e`, with the values past `STAKE_RLP_DONE`. -/
inductive RlpStakingField
  | none
  | content
  | directive
  | stakemessage
  | delegatoraddr
  | validatoraddr
  | amount
  | nonce
  | gasprice
  | gaslimit
  | description
  | name
  | identity
  | website
  | securitycontact
  | details
  | commissionrates
  | rate
  | rateValue
  | maxrate
  | maxrateValue
  | maxchangerate
  | maxchangerateValue
  | minselfdelegation
  | maxtotaldelegation
  | slotpubkeys
  | blspubkey
  | slotkeytoremove
  | slotkeytoadd
  | blssigs
  | blssignature
  | slotkeytoaddsignature
  | editactive
  | done
  | past (excess : Nat)
  deriving DecidableEq

/-- The increment `stakeCurrentField++`. -/
def RlpStakingField.next : RlpStakingField -> RlpStakingField
  | .none => .content
  | .content => .directive
  | .directive => .stakemessage
  | .stakemessage => .delegatoraddr
  | .delegatoraddr => .validatoraddr
  | .validatoraddr => .amount
  | .amount => .nonce
  | .nonce => .gasprice
  | .gasprice => .gaslimit
  | .gaslimit => .description
  | .description => .name
  | .name => .identity
  | .identity => .website
  | .website => .securitycontact
  | .securitycontact => .details
  | .details => .commissionrates
  | .commissionrates => .rate
  | .rate => .rateValue
  | .rateValue => .maxrate
  | .maxrate => .maxrateValue
  | .maxrateValue => .maxchangerate
  | .maxchangerate => .maxchangerateValue
  | .maxchangerateValue => .minselfdelegation
  | .minselfdelegation => .maxtotaldelegation
  | .maxtotaldelegation => .slotpubkeys
  | .slotpubkeys => .blspubkey
  | .blspubkey => .slotkeytoremove
  | .slotkeytoremove => .slotkeytoadd
  | .slotkeytoadd => .blssigs
  | .blssigs => .blssignature
  | .blssignature => .slotkeytoaddsignature
  | .slotkeytoaddsignature => .editactive
  | .editactive => .done
  | .done => .past 0
  | .past excess => .past (excess + 1)

/-- `stakingDirective_e`, the values a decoded directive is compared with. -/
def DirectiveCreateValidator : Nat := 0
def DirectiveEditValidator : Nat := 1
def DirectiveDelegate : Nat := 2
def DirectiveUndelegate : Nat := 3
def DirectiveCollectRewards : Nat := 4

/-- `txInt256_t`: up to 32 big-endian bytes and their number. -/
structure TxInt256 where
  value : Region 32 := .zero
  length : UInt8 := 0
  deriving DecidableEq

/-- `txContent_t`.  The three `uint32_t` fields are numbers; where their bytes
are written one by one the code below spells the four bytes out. -/
structure TxContent where
  gasprice : TxInt256 := {}
  startgas : TxInt256 := {}
  value : TxInt256 := {}
  rate : TxInt256 := {}
  maxRate : TxInt256 := {}
  maxChangeRate : TxInt256 := {}
  minSelfDelegation : TxInt256 := {}
  maxTotalDelegation : TxInt256 := {}
  fromShard : Nat := 0
  toShard : Nat := 0
  directive : Nat := 0
  destination : Region 20 := .zero
  validatorAddress : Region 20 := .zero
  blsPubKey : Region 48 := .zero
  blsPubKeySize : Nat := 0
  blsKeyStr : Region 130 := .zero
  name : Region 30 := .zero
  deriving DecidableEq

/-- The content as `memset` leaves it. -/
def TxContent.zero : TxContent := {}

/-- `txContext_t`, without `processingFlags`, which nothing reads. -/
structure TxContext where
  txCurrentField : RlpTxField := .none
  stakeCurrentField : RlpStakingField := .none
  currentFieldLength : Nat := 0
  currentFieldPos : Nat := 0
  currentBlsKeyIndex : Nat := 0
  currentFieldIsList : Bool := false
  processingField : Bool := false
  fieldSingleByte : Bool := false
  dataLength : Nat := 0
  rlpBuffer : Region 5 := .zero
  rlpBufferPos : Nat := 0
  workBuffer : Option Nat := none
  commandLength : Nat := 0
  content : TxContent := {}
  deriving DecidableEq

/-- The four bytes of a `uint32_t` in memory, least significant first. -/
def uint32Bytes (value : Nat) : Region 4 :=
  ⟨fun index => UInt8.ofNat (value / 256 ^ index.val)⟩

/-- The `uint32_t` whose four bytes are given. -/
def uint32OfBytes (bytes : Region 4) : Nat := leNat bytes.toList

/-- The accesses that C leaves undefined and at which the model stops. -/
inductive Fault
  /-- A byte is read through the null `workBuffer`. -/
  | nullRead
  /-- A byte is read at or past the end of the receive buffer. -/
  | readPastBuffer
  /-- A header byte is stored past the end of `rlpBuffer`. -/
  | headerOverrun
  /-- A byte of a field is stored past the end of the field's array. -/
  | fieldOverrun
  /-- A byte of a display string is read or stored past the command
  context. -/
  | contextOverrun
  /-- A number longer than its scratch buffer is copied to a negative
  offset. -/
  | scratchUnderrun
  /-- A byte of a text is stored past the end of a scratch buffer. -/
  | scratchOverrun
  /-- The bound the model puts on the parser's main loop is used up; the
  loops are proved to end before. -/
  | outOfRounds
  deriving DecidableEq

end LedgerOne
