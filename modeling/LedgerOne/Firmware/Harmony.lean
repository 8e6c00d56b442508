import LedgerOne.Lib.Region

/-!
# The form of a signature (`harmony.c`)

`cx_ecdsa_sign` leaves a signature in DER, of which the reply has the two
numbers.
-/

namespace LedgerOne

/-- Fetch bytes from an offset that is computed as an `int`. -/
def Region.readInt? (region : Region size) (offset : Int) (count : Nat) :
    Option (List UInt8) :=
  if 0 ≤ offset then region.read? offset.toNat count else none

/-- `convert_signature_to_RSV`; none when it reads outside `tlv_signature`. -/
def convertSignatureToRSV (tlvSignature : Region 80) (dst : Region 65) :
    Option (Region 65) := do
  let rSize := (tlvSignature.get 3).toNat
  let sSize := (← tlvSignature.read? (3 + rSize + 2) 1).headD 0 |>.toNat
  let rOffset : Int := rSize - 32
  let sOffset : Int := sSize - 32
  let offsetBeforeR := 4
  let offsetBeforeS := 2
  let dst ← dst.write? 0
    (← tlvSignature.readInt? (offsetBeforeR + rOffset) 32)
  dst.write? 32 (← tlvSignature.readInt?
    (offsetBeforeR + 32 + offsetBeforeS + rOffset + sOffset) 32)

end LedgerOne
