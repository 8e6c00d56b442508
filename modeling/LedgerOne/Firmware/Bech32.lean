import LedgerOne.Lib.Bytes

/-!
# Addresses as text (`base32.c`, `bech32.c`)

The base 32 regrouping of bytes and the checksummed text of an address.
-/

namespace LedgerOne

/-- `code_string`. -/
def codeString : List UInt8 := ascii "qpzry9x8gf2tvdw0s3jn54khce6mua7l"

/-- The variables of the loops of `base32_encode_raw`: the finished values,
the one that is being filled and the number of bits seen. -/
structure Base32Raw where
  output : List UInt8 := []
  current : UInt8 := 0
  k : Nat := 0

/-- The inner loop of `base32_encode_raw`, for the bit `j` of a byte. -/
def Base32Raw.push (state : Base32Raw) (data : UInt8) (j : Nat) :
    Base32Raw :=
  let bit := UInt8.ofNat (data.toNat * 2 ^ j / 2 ^ 7 % 2)
  let filled := state.current * 2 + bit
  if (state.k + 1) % 5 = 0 then
    { output := state.output ++ [filled], current := 0, k := state.k + 1 }
  else { state with current := filled, k := state.k + 1 }

/-- The outer loop of `base32_encode_raw`, for one byte. -/
def Base32Raw.pushByte (state : Base32Raw) (data : UInt8) : Base32Raw :=
  (List.range 8).foldl (fun state j => state.push data j) state

/-- `base32_encode_raw`: the values that the buffer holds afterwards and how
many of them count. -/
def base32EncodeRaw (data : List UInt8) : List UInt8 × Nat :=
  let ended := data.foldl Base32Raw.pushByte {}
  (ended.output ++ [ended.current], (ended.k + 1) / 5)

/-- `base32_get_char`. -/
def base32GetChar (value : Nat) : Option UInt8 := codeString[value]?

/-- `base32_get_raw`. -/
def base32GetRaw (character : UInt8) : Option Nat :=
  codeString.findIdx? (· = character)

/-- `base32_encode`: the text, which a NUL follows. -/
def base32Encode (data : List UInt8) : Option (List UInt8) :=
  let (output, outputLen) := base32EncodeRaw data
  (output.take outputLen).mapM fun value => base32GetChar value.toNat

/-- `bech32_polymod_step`. -/
def bech32PolymodStep (value : Nat) (chk : UInt32) : UInt32 :=
  let generators : List UInt32 :=
    [0x3b6a57b2, 0x26508e6d, 0x1ea119fa, 0x3d4233dd, 0x2a1462b3]
  let b := chk >>> 25
  let shifted := (chk &&& 0x1ffffff) <<< 5 ^^^ UInt32.ofNat value
  generators.zipIdx.foldl
    (fun chk (generator, index) =>
      if (b >>> UInt32.ofNat index) &&& 1 = 1 then chk ^^^ generator else chk)
    shifted

/-- `BECH32_PREFIX_MAINNET`. -/
def bech32Prefix : List UInt8 := ascii "one"

/-- The checksum of the prefix. -/
def bech32PrefixChk : UInt32 :=
  let high := bech32Prefix.foldl
    (fun chk character => bech32PolymodStep (character.toNat / 2 ^ 5) chk) 1
  bech32Prefix.foldl
    (fun chk character => bech32PolymodStep (character.toNat % 2 ^ 5) chk)
    (bech32PolymodStep 0 high)

/-- The six characters of a checksum. -/
def bech32Checksum (chk : UInt32) : Option (List UInt8) :=
  (List.range 6).mapM fun index =>
    base32GetChar (chk >>> UInt32.ofNat (5 * (5 - index)) &&& 31).toNat

/-- `bech32_get_address`: the text, which a NUL follows. -/
def bech32GetAddress (data : List UInt8) : Option (List UInt8) := do
  let encoded ← base32Encode data
  let values ← encoded.mapM base32GetRaw
  let chk := values.foldl (fun chk value => bech32PolymodStep value chk)
    bech32PrefixChk
  let padded := (List.range 6).foldl (fun chk _ => bech32PolymodStep 0 chk) chk
  let checksum ← bech32Checksum (padded ^^^ 1)
  return bech32Prefix ++ ascii "1" ++ encoded ++ checksum

end LedgerOne
