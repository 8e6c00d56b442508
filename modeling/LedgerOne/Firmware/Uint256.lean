import LedgerOne.Firmware.TxContext
import Mathlib.Data.Fin.VecNotation

/-!
# Wide numbers and their decimal text (`uint256.c`)

Numbers of 128 and 256 bits as pairs of halves, the long division, and the
texts that the review shows for amounts and rates.
-/

namespace LedgerOne

/-- `uint128_t`. -/
structure Uint128 where
  upper : UInt64
  lower : UInt64
  deriving DecidableEq

/-- `uint256_t`. -/
structure Uint256 where
  upper : Uint128
  lower : Uint128
  deriving DecidableEq

/-- `HEXDIGITS`. -/
def HEXDIGITS : List UInt8 := ascii "0123456789abcdef"

/-- `to_hex`: two hexadecimal digits for each byte until `destLen` of them
are written. -/
def toHex (source : Region size) (destLen : Nat) : List UInt8 :=
  (List.range ((destLen + 1) / 2)).flatMap fun index =>
    let byte := (source.get index).toNat
    [HEXDIGITS.getD (byte / 16 % 16) 0, HEXDIGITS.getD (byte % 16) 0]

/-! ## 128 bits -/

/-- `readUint64BE` at an offset. -/
def readUint64BE (buffer : List UInt8) (offset : Nat) : UInt64 :=
  let byte := fun index => (buffer.getD (offset + index) 0).toUInt64
  byte 0 <<< 56 ||| byte 1 <<< 48 ||| byte 2 <<< 40 ||| byte 3 <<< 32 |||
    byte 4 <<< 24 ||| byte 5 <<< 16 ||| byte 6 <<< 8 ||| byte 7

/-- `readu128BE`. -/
def readu128BE (buffer : List UInt8) (offset : Nat) : Uint128 :=
  ⟨readUint64BE buffer offset, readUint64BE buffer (offset + 8)⟩

/-- `zero128`. -/
def zero128 (number : Uint128) : Bool :=
  number.lower = 0 ∧ number.upper = 0

/-- `clear128`. -/
def clear128 : Uint128 := ⟨0, 0⟩

/-- `add128`. -/
def add128 (number1 number2 : Uint128) : Uint128 :=
  ⟨number1.upper + number2.upper +
      (if number1.lower + number2.lower < number1.lower then 1 else 0),
    number1.lower + number2.lower⟩

/-- The lower 32 bits of a word. -/
def low32 (word : UInt64) : UInt64 := word &&& 0xffffffff

/-- The parts of 32 bits of a number, the highest first. -/
def parts32 (number : Uint128) : Fin 4 -> UInt64 :=
  ![number.upper >>> 32, low32 number.upper,
    number.lower >>> 32, low32 number.lower]

/-- `mul128`: the products of the parts of 32 bits in four columns. -/
def mul128 (number1 number2 : Uint128) : Uint128 :=
  let top := parts32 number1
  let bottom := parts32 number2
  let products := fun x y : Fin 4 => top (3 - x) * bottom y
  let fourth32 := low32 (products 0 3)
  let third32 := low32 (products 0 2) + (products 0 3 >>> 32)
  let second32 := low32 (products 0 1) + (products 0 2 >>> 32)
  let first32 := low32 (products 0 0) + (products 0 1 >>> 32)
  let third32 := third32 + low32 (products 1 3)
  let second32 := second32 +
    (low32 (products 1 2) + (products 1 3 >>> 32))
  let first32 := first32 + (low32 (products 1 1) + (products 1 2 >>> 32))
  let second32 := second32 + low32 (products 2 3)
  let first32 := first32 + (low32 (products 2 2) + (products 2 3 >>> 32))
  let first32 := first32 + low32 (products 3 3)
  let target := add128 ⟨first32 <<< 32, 0⟩ ⟨third32 >>> 32, third32 <<< 32⟩
  let tmp2 := add128 ⟨second32, 0⟩ target
  add128 ⟨0, fourth32⟩ tmp2

/-- `minus128`. -/
def minus128 (number1 number2 : Uint128) : Uint128 :=
  ⟨number1.upper - number2.upper -
      (if number1.lower < number1.lower - number2.lower then 1 else 0),
    number1.lower - number2.lower⟩

/-- `or128`. -/
def or128 (number1 number2 : Uint128) : Uint128 :=
  ⟨number1.upper ||| number2.upper, number1.lower ||| number2.lower⟩

/-- `equal128`. -/
def equal128 (number1 number2 : Uint128) : Bool :=
  number1.upper = number2.upper ∧ number1.lower = number2.lower

/-- `gt128`. -/
def gt128 (number1 number2 : Uint128) : Bool :=
  if number1.upper = number2.upper then number2.lower < number1.lower
  else number2.upper < number1.upper

/-- `gte128`. -/
def gte128 (number1 number2 : Uint128) : Bool :=
  gt128 number1 number2 || equal128 number1 number2

/-- `shiftl128`. -/
def shiftl128 (number : Uint128) (value : Nat) : Uint128 :=
  if 128 ≤ value then clear128
  else if value = 64 then ⟨number.lower, 0⟩
  else if value = 0 then number
  else if value < 64 then
    ⟨(number.upper <<< UInt64.ofNat value) +
        (number.lower >>> UInt64.ofNat (64 - value)),
      number.lower <<< UInt64.ofNat value⟩
  else ⟨number.lower <<< UInt64.ofNat (value - 64), 0⟩

/-- `shiftr128`. -/
def shiftr128 (number : Uint128) (value : Nat) : Uint128 :=
  if 128 ≤ value then clear128
  else if value = 64 then ⟨0, number.upper⟩
  else if value = 0 then number
  else if value < 64 then
    ⟨number.upper >>> UInt64.ofNat value,
      (number.upper <<< UInt64.ofNat (64 - value)) +
        (number.lower >>> UInt64.ofNat value)⟩
  else ⟨0, number.upper >>> UInt64.ofNat (value - 64)⟩

/-! ## 256 bits -/

/-- `readu256BE`. -/
def readu256BE (buffer : List UInt8) : Uint256 :=
  ⟨readu128BE buffer 0, readu128BE buffer 16⟩

/-- `zero256`. -/
def zero256 (number : Uint256) : Bool :=
  zero128 number.lower && zero128 number.upper

/-- `clear256`. -/
def clear256 : Uint256 := ⟨clear128, clear128⟩

/-- A number in the lowest 64 bits. -/
def Uint256.ofUInt64 (value : UInt64) : Uint256 := ⟨clear128, ⟨0, value⟩⟩

/-- `add256`. -/
def add256 (number1 number2 : Uint256) : Uint256 :=
  let upper := add128 number1.upper number2.upper
  let tmp := add128 number1.lower number2.lower
  ⟨if gt128 number1.lower tmp then add128 upper ⟨0, 1⟩ else upper, tmp⟩

/-- The parts of 64 bits of a number, the highest first. -/
def parts64 (number : Uint256) : Fin 4 -> Uint128 :=
  ![⟨0, number.upper.upper⟩, ⟨0, number.upper.lower⟩,
    ⟨0, number.lower.upper⟩, ⟨0, number.lower.lower⟩]

/-- `mul256`: the products of the parts of 64 bits in four columns. -/
def mul256 (number1 number2 : Uint256) : Uint256 :=
  let top := parts64 number1
  let bottom := parts64 number2
  let products := fun x y : Fin 4 => mul128 (top (3 - x)) (bottom y)
  let fourth64 : Uint128 := ⟨0, (products 0 3).lower⟩
  let third64 := add128 ⟨0, (products 0 2).lower⟩ ⟨0, (products 0 3).upper⟩
  let second64 := add128 ⟨0, (products 0 1).lower⟩ ⟨0, (products 0 2).upper⟩
  let first64 := add128 ⟨0, (products 0 0).lower⟩ ⟨0, (products 0 1).upper⟩
  let third64 := add128 ⟨0, (products 1 3).lower⟩ third64
  let second64 := add128 ⟨0, (products 1 3).upper⟩
    (add128 ⟨0, (products 1 2).lower⟩ second64)
  let first64 := add128 ⟨0, (products 1 2).upper⟩
    (add128 ⟨0, (products 1 1).lower⟩ first64)
  let second64 := add128 ⟨0, (products 2 3).lower⟩ second64
  let first64 := add128 ⟨0, (products 2 3).upper⟩
    (add128 ⟨0, (products 2 2).lower⟩ first64)
  let first64 := add128 ⟨0, (products 3 3).lower⟩ first64
  -- the carry of `third64` goes to the highest word
  let target := add256 ⟨shiftl128 first64 64, clear128⟩
    ⟨⟨third64.upper, 0⟩, shiftl128 third64 64⟩
  let target2 := add256 ⟨second64, clear128⟩ target
  add256 ⟨clear128, fourth64⟩ target2

/-- `minus256`. -/
def minus256 (number1 number2 : Uint256) : Uint256 :=
  let upper := minus128 number1.upper number2.upper
  let lower := minus128 number1.lower number2.lower
  ⟨if gt128 lower number1.lower then minus128 upper ⟨0, 1⟩ else upper, lower⟩

/-- `or256`. -/
def or256 (number1 number2 : Uint256) : Uint256 :=
  ⟨or128 number1.upper number2.upper, or128 number1.lower number2.lower⟩

/-- `equal256`. -/
def equal256 (number1 number2 : Uint256) : Bool :=
  equal128 number1.upper number2.upper && equal128 number1.lower number2.lower

/-- `gt256`. -/
def gt256 (number1 number2 : Uint256) : Bool :=
  if equal128 number1.upper number2.upper then
    gt128 number1.lower number2.lower
  else gt128 number1.upper number2.upper

/-- `gte256`. -/
def gte256 (number1 number2 : Uint256) : Bool :=
  gt256 number1 number2 || equal256 number1 number2

/-- `shiftl256`. -/
def shiftl256 (number : Uint256) (value : Nat) : Uint256 :=
  if 256 ≤ value then clear256
  else if value = 128 then ⟨number.lower, clear128⟩
  else if value = 0 then number
  else if value < 128 then
    ⟨add128 (shiftl128 number.upper value)
        (shiftr128 number.lower (128 - value)),
      shiftl128 number.lower value⟩
  else ⟨shiftl128 number.lower (value - 128), clear128⟩

/-- `shiftr256`. -/
def shiftr256 (number : Uint256) (value : Nat) : Uint256 :=
  if 256 ≤ value then clear256
  else if value = 128 then ⟨clear128, number.upper⟩
  else if value = 0 then number
  else if value < 128 then
    ⟨shiftr128 number.upper value,
      add128 (shiftr128 number.lower value)
        (shiftl128 number.upper (128 - value))⟩
  else ⟨clear128, shiftr128 number.upper (value - 128)⟩

/-- The loops of `bits256`, which shift a number to the right until nothing is
left of it; 128 rounds are enough. -/
def countBits : Nat -> Uint128 -> Nat -> Nat
  | 0, _, result => result
  | rounds + 1, number, result =>
      if zero128 number then result
      else countBits rounds (shiftr128 number 1) (result + 1)

/-- `bits256`. -/
def bits256 (number : Uint256) : Nat :=
  if zero128 number.upper then countBits 128 number.lower 0
  else countBits 128 number.upper 128

/-- The variables of the loop of `divmod256`. -/
structure Division where
  copyd : Uint256
  adder : Uint256
  resDiv : Uint256
  resMod : Uint256

/-- The loop of `divmod256`; the bits of the quotient bound its rounds. -/
def divmodLoop (r : Uint256) : Nat -> Division -> Division
  | 0, state => state
  | rounds + 1, state =>
      if gte256 state.resMod r then
        let taken :=
          if gte256 state.resMod state.copyd then
            { state with
              resMod := minus256 state.resMod state.copyd
              resDiv := or256 state.resDiv state.adder }
          else state
        divmodLoop r rounds { taken with
          copyd := shiftr256 taken.copyd 1
          adder := shiftr256 taken.adder 1 }
      else state

/-- `divmod256`: the quotient and the remainder. -/
def divmod256 (l r : Uint256) : Uint256 × Uint256 :=
  let diffBits := (bits256 l + 2 ^ 32 - bits256 r) % 2 ^ 32
  if gt256 r l then (clear256, l)
  else
    let copyd := shiftl256 r diffBits
    let adder := shiftl256 (.ofUInt64 1) diffBits
    let start : Division :=
      if gt256 copyd l then
        ⟨shiftr256 copyd 1, shiftr256 adder 1, clear256, l⟩
      else ⟨copyd, adder, clear256, l⟩
    let ended := divmodLoop r 256 start
    (ended.resDiv, ended.resMod)

/-! ## Decimal texts -/

/-- The loop of `tostring256`: the digits from the last one to the first, or
none when they do not fit; a number has at most 256 digits. -/
def tostringLoop (base : Uint256) (outLength : Nat) :
    Nat -> Uint256 -> List UInt8 -> Option (List UInt8)
  | 0, _, _ => none
  | rounds + 1, rDiv, out =>
      if outLength - 1 < out.length then none
      else
        let (quotient, rMod) := divmod256 rDiv base
        let digit := HEXDIGITS.getD rMod.lower.lower.toUInt8.toNat 0
        if zero256 quotient then some (out ++ [digit])
        else tostringLoop base outLength rounds quotient (out ++ [digit])

/-- `tostring256`: the digits that are written, which a NUL follows. -/
def tostring256 (number : Uint256) (baseParam : Nat) (outLength : Nat) :
    Option (List UInt8) :=
  if baseParam < 2 ∨ 16 < baseParam then none
  else
    (tostringLoop (.ofUInt64 (UInt64.ofNat baseParam)) outLength 256 number
      []).map List.reverse

/-- `tostring256` into a scratch buffer of 78 characters; the NUL has to fit
as well. -/
def tostring78 (number : Uint256) :
    Except Fault (Option (List UInt8)) :=
  match tostring256 number 10 78 with
  | none => .ok none
  | some digits =>
      if digits.length < 78 then .ok (some digits) else .error .scratchOverrun

/-- What `convertU256ToString` does: the bytes it writes from its output
position on, in order, the length it reports, if it does, and whether it
succeeds. -/
structure Conversion where
  writes : List (Nat × List UInt8)
  outLength : Option Nat
  succeeds : Bool

/-- The nine digits after the point, without trailing zeros. -/
def trimZeros (digits : List UInt8) : List UInt8 :=
  (digits.reverse.dropWhile (· = 48)).reverse

/-- `convertU256ToString`. -/
def convertU256ToString (buffer : List UInt8) (sizeLimit : Nat) :
    Except Fault Conversion := do
  let nano := Uint256.ofUInt64 1000000000
  let nanoAmount := (divmod256 (readu256BE buffer) nano).1
  let (amount, rMod) := divmod256 nanoAmount nano
  match ← tostring78 amount with
  | none => return ⟨[], none, false⟩
  | some whole =>
      let len := whole.length
      let cleared := [(0, List.replicate sizeLimit 0), (0, whole)]
      if zero256 rMod then return ⟨cleared, some len, true⟩
      else
        match ← tostring78 rMod with
        | none => return ⟨cleared, some len, false⟩
        | some decimals =>
            let len2 := decimals.length
            let stringBuf := trimZeros decimals
            let pointed := cleared ++ [(len, ascii ".")]
            if 9 < len2 ∨ sizeLimit < len + 1 + 9 then
              return ⟨pointed, some (len + 1), false⟩
            else return ⟨pointed ++
                [(len + 1, List.replicate (9 - len2) 48),
                  (len + 1 + 9 - len2, stringBuf)],
              some (len + 1 + (9 - len2) + stringBuf.length), true⟩

/-- `convertU256ToDecimalString`: the text, which a NUL follows; the output
buffers of 80 characters have room for both. -/
def convertU256ToDecimalString (digits : List UInt8) : List UInt8 :=
  let len := digits.length
  let paddedZeros := (digits.reverse.takeWhile (· = 48)).length
  let rest := fun q => (digits.take (len - paddedZeros)).drop q
  if 18 < len then
    digits.take (len - 18) ++ ascii "." ++ rest (len - 18)
  else if len = 18 then ascii "0." ++ rest 0
  else ascii "0." ++ List.replicate (18 - len) 48 ++ rest 0

/-- A number of at most 32 bytes at the end of a cleared scratch buffer of
32. -/
def padNumber (int : TxInt256) : Except Fault (List UInt8) :=
  if int.length.toNat ≤ 32 then
    .ok (List.replicate (32 - int.length.toNat) 0 ++
      int.value.read 0 int.length.toNat)
  else .error .scratchUnderrun

/-- `convertNumericDecimalToString`; none when it fails. -/
def convertNumericDecimalToString (int : TxInt256) :
    Except Fault (Option (List UInt8)) :=
  if 32 < int.length.toNat then .ok none
  else do
    let numberBuf ← padNumber int
    let digits ← tostring78 (readu256BE numberBuf)
    return digits.map convertU256ToDecimalString

end LedgerOne
