import LedgerOne.Firmware.Harmony
import LedgerOne.Lib.Der

/-!
# Numbers of a signature

`convert_signature_to_RSV` finds the numbers of a signature when each of them
has an INTEGER of at least 32 bytes; in front of a shorter one it takes bytes
of the DER header for the zeros it should write.
-/

namespace LedgerOne

/-- An array of the signature's size that begins with its DER form. -/
def HoldsSignature (tlvSignature : Region 80) (r s : Nat) : Prop :=
  tlvSignature.read 0 (derSignature r s).length = derSignature r s

instance (tlvSignature : Region 80) (r s : Nat) :
    Decidable (HoldsSignature tlvSignature r s) :=
  inferInstanceAs (Decidable (_ = _))

section Layout

variable {tlvSignature : Region 80} {r s : Nat}

/-- A part of the DER form. -/
theorem HoldsSignature.part (holds : HoldsSignature tlvSignature r s)
    (front middle back : List UInt8)
    (parts : derSignature r s = front ++ middle ++ back) :
    tlvSignature.read front.length middle.length = middle := by
  unfold HoldsSignature at holds
  rw [parts] at holds
  exact tlvSignature.read_middle holds

/-- The byte before the first number is its length. -/
theorem HoldsSignature.rLength (holds : HoldsSignature tlvSignature r s) :
    tlvSignature.get 3 = UInt8.ofNat (derContent r).length := by
  have byte := holds.part [0x30, UInt8.ofNat (derInteger r ++
    derInteger s).length, 0x02] [UInt8.ofNat (derContent r).length]
    (derContent r ++ derInteger s) (by simp [derSignature, derInteger])
  exact List.head_eq_of_cons_eq byte

/-- The first number. -/
theorem HoldsSignature.rContent (holds : HoldsSignature tlvSignature r s) :
    tlvSignature.read 4 (derContent r).length = derContent r :=
  holds.part [0x30, UInt8.ofNat (derInteger r ++ derInteger s).length, 0x02,
    UInt8.ofNat (derContent r).length] (derContent r) (derInteger s)
    (by simp [derSignature, derInteger])

/-- The byte before the second number is its length. -/
theorem HoldsSignature.sLength (holds : HoldsSignature tlvSignature r s) :
    tlvSignature.get (5 + (derContent r).length) =
      UInt8.ofNat (derContent s).length := by
  have byte := holds.part ([0x30, UInt8.ofNat (derInteger r ++
    derInteger s).length] ++ derInteger r ++ [0x02])
    [UInt8.ofNat (derContent s).length] (derContent s)
    (by simp [derSignature, derInteger])
  have place : ([0x30, UInt8.ofNat (derInteger r ++
      derInteger s).length] ++ derInteger r ++ [0x02]).length =
      5 + (derContent r).length := by
    simp [derInteger]
    omega
  rw [place] at byte
  exact List.head_eq_of_cons_eq byte

/-- The second number. -/
theorem HoldsSignature.sContent (holds : HoldsSignature tlvSignature r s) :
    tlvSignature.read (6 + (derContent r).length) (derContent s).length =
      derContent s := by
  have bytes := holds.part ([0x30, UInt8.ofNat (derInteger r ++
    derInteger s).length] ++ derInteger r ++
    [0x02, UInt8.ofNat (derContent s).length]) (derContent s) []
    (by simp [derSignature, derInteger])
  have place : ([0x30, UInt8.ofNat (derInteger r ++
      derInteger s).length] ++ derInteger r ++
      [0x02, UInt8.ofNat (derContent s).length]).length =
      6 + (derContent r).length := by
    simp [derInteger]
    omega
  rwa [place] at bytes

end Layout

/-- An offset that is not negative. -/
theorem Region.readInt?_eq {size : Nat} (region : Region size)
    {offset : Int} {place count : Nat} (same : offset = place) :
    region.readInt? offset count = region.read? place count := by
  subst same
  exact if_pos (Int.natCast_nonneg place)

section Conversion

variable {tlvSignature : Region 80} {r s : Nat}
  (holds : HoldsSignature tlvSignature r s)

include holds

/-- What `convert_signature_to_RSV` takes for the size of the first number. -/
theorem convertSignatureToRSV_rSize (rBound : (derContent r).length ≤ 33) :
    (tlvSignature.get 3).toNat = (derContent r).length := by
  rw [holds.rLength, UInt8.toNat_ofNat']
  omega

/-- What `convert_signature_to_RSV` takes for the size of the second
number. -/
theorem convertSignatureToRSV_sSize (sBound : (derContent s).length ≤ 33) :
    ((tlvSignature.read (3 + (derContent r).length + 2) 1).headD 0).toNat =
      (derContent s).length := by
  have byte : (tlvSignature.read (3 + (derContent r).length + 2) 1).headD 0 =
      tlvSignature.get (3 + (derContent r).length + 2) := rfl
  have place : 3 + (derContent r).length + 2 = 5 + (derContent r).length := by
    omega
  rw [byte, place, holds.sLength, UInt8.toNat_ofNat']
  omega

/-- What `convert_signature_to_RSV` copies. -/
theorem convertSignatureToRSV_eq (dst : Region 65)
    (rBound : (derContent r).length ≤ 33)
    (sBound : (derContent s).length ≤ 33)
    (long : 28 ≤ (derContent r).length) :
    convertSignatureToRSV tlvSignature dst =
      some ((dst.splice 0
        (tlvSignature.read ((derContent r).length - 28) 32)).splice 32
        (tlvSignature.read ((derContent r).length - 28 +
          (derContent s).length + 2) 32)) := by
  have rSize := convertSignatureToRSV_rSize holds rBound
  have sSize := convertSignatureToRSV_sSize holds sBound
  have rPlace : (4 : Int) + ((derContent r).length - 32) =
      ((derContent r).length - 28 : Nat) := by omega
  have sPlace : (4 : Int) + 32 + 2 + ((derContent r).length - 32) +
      ((derContent s).length - 32) =
      ((derContent r).length - 28 + (derContent s).length + 2 : Nat) := by
    omega
  unfold convertSignatureToRSV
  dsimp only
  rw [rSize, Region.read?_eq_some _ _ _ (by omega), Option.bind_eq_bind,
    Option.bind_some, sSize, Region.readInt?_eq _ rPlace,
    Region.read?_eq_some _ _ _ (by omega), Option.bind_eq_bind,
    Option.bind_some, Region.write?_eq_some _ _ _ (by simp),
    Option.bind_some, Region.readInt?_eq _ sPlace,
    Region.read?_eq_some _ _ _ (by omega), Option.bind_some,
    Region.write?_eq_some _ _ _ (by simp)]

/-- Nothing is copied from before the array. -/
theorem convertSignatureToRSV_eq_none (dst : Region 65)
    (short : (derContent r).length < 28) :
    convertSignatureToRSV tlvSignature dst = none := by
  have rSize := convertSignatureToRSV_rSize holds (by omega)
  have before : ∀ count, tlvSignature.readInt?
      (4 + ((derContent r).length - 32)) count = none := by
    intro count
    exact if_neg (by omega)
  unfold convertSignatureToRSV
  dsimp only
  rw [rSize, Region.read?_eq_some _ _ _ (by omega), Option.bind_eq_bind,
    Option.bind_some, before]
  rfl

end Conversion

/-- The two halves of what `convert_signature_to_RSV` leaves. -/
theorem read_halves (dst : Region 65) {first second : List UInt8}
    (firstLength : first.length = 32) (secondLength : second.length = 32) :
    ((dst.splice 0 first).splice 32 second).read 0 32 = first ∧
      ((dst.splice 0 first).splice 32 second).read 32 32 = second := by
  constructor
  · rw [Region.read_splice_of_disjoint _ _ _ _ _ (Or.inl (by omega)),
      ← firstLength]
    exact Region.read_splice_self _ _ _ (by omega)
  · rw [← secondLength]
    exact Region.read_splice_self _ _ _ (by omega)

/-- Bytes that have the length byte of a short number in front of it are not
the number's word. -/
theorem ne_wordBytes {tlvSignature : Region 80} {value place : Nat}
    (positive : 0 < value) (short : (derContent value).length < 32)
    (header : tlvSignature.get (place + (31 - (derContent value).length)) =
      UInt8.ofNat (derContent value).length) :
    tlvSignature.read place 32 ≠ wordBytes value := by
  intro same
  have some := length_derContent_pos positive
  have zero := getD_wordBytes short 1
  rw [← same, List.getD_eq_getElem _ _ (by
    rw [Region.length_read]; omega), Region.getElem_read, header] at zero
  have number := congrArg UInt8.toNat zero
  rw [UInt8.toNat_ofNat'] at number
  have none : (0 : UInt8).toNat = 0 := rfl
  omega

/-- The last 32 bytes of a number in the DER form. -/
theorem read_wordBytes {tlvSignature : Region 80} {value place : Nat}
    (small : value < 2 ^ 256) (long : 32 ≤ (derContent value).length)
    (content : tlvSignature.read place (derContent value).length =
      derContent value) :
    tlvSignature.read (place + ((derContent value).length - 32)) 32 =
      wordBytes value := by
  have count : (derContent value).length - ((derContent value).length - 32) =
      32 := by omega
  have last : (tlvSignature.read place (derContent value).length).drop
      ((derContent value).length - 32) = wordBytes value := by
    rw [content, drop_derContent small long]
  rwa [Region.drop_read, count] at last

/-- For every signature, the conversion leaves the words of both numbers
exactly if each is long enough for its INTEGER to have 32 bytes. -/
theorem convertSignatureToRSV_exact_iff {r s : Nat}
    (rPositive : 1 ≤ r) (rSmall : r < 2 ^ 256)
    (sPositive : 1 ≤ s) (sSmall : s < 2 ^ 256)
    {tlvSignature : Region 80} (holds : HoldsSignature tlvSignature r s)
    (dst : Region 65) :
    (∃ converted, convertSignatureToRSV tlvSignature dst = some converted ∧
      converted.read 0 32 = wordBytes r ∧
      converted.read 32 32 = wordBytes s) ↔
      2 ^ 247 ≤ r ∧ 2 ^ 247 ≤ s := by
  have rBound := length_derContent_le rPositive rSmall
  have sBound := length_derContent_le sPositive sSmall
  have rLong := length_derContent_le_iff rPositive 30
  have sLong := length_derContent_le_iff sPositive 30
  constructor
  · rintro ⟨converted, converts, rWord, sWord⟩
    by_cases before : (derContent r).length < 28
    · rw [convertSignatureToRSV_eq_none holds dst before] at converts
      cases converts
    rw [convertSignatureToRSV_eq holds dst rBound sBound (by omega)] at converts
    obtain ⟨first, second⟩ := read_halves dst
      (Region.length_read tlvSignature ((derContent r).length - 28) 32)
      (Region.length_read tlvSignature ((derContent r).length - 28 +
        (derContent s).length + 2) 32)
    rw [Option.some.inj converts] at first second
    rw [rWord] at first
    rw [sWord] at second
    constructor
    · by_contra small
      have short := rLong.mpr (by omega)
      apply ne_wordBytes rPositive (by omega) _ first.symm
      rw [← holds.rLength]
      congr 1
      omega
    · by_contra small
      have short := sLong.mpr (by omega)
      apply ne_wordBytes sPositive (by omega) _ second.symm
      rw [← holds.sLength]
      congr 1
      omega
  · rintro ⟨rLarge, sLarge⟩
    have rEnough : 32 ≤ (derContent r).length := by
      have := rLong.not.mpr (by omega)
      omega
    have sEnough : 32 ≤ (derContent s).length := by
      have := sLong.not.mpr (by omega)
      omega
    obtain ⟨first, second⟩ := read_halves dst
      (Region.length_read tlvSignature ((derContent r).length - 28) 32)
      (Region.length_read tlvSignature ((derContent r).length - 28 +
        (derContent s).length + 2) 32)
    refine ⟨_, convertSignatureToRSV_eq holds dst rBound sBound (by omega),
      first.trans ?_, second.trans ?_⟩
    · rw [← read_wordBytes rSmall rEnough holds.rContent]
      congr 1
      omega
    · rw [← read_wordBytes sSmall sEnough holds.sContent]
      congr 1
      omega

/-- Two numbers of 32 bytes each. -/
theorem convertSignatureToRSV_exact_long :
    (∃ converted, convertSignatureToRSV
        (.ofList (derSignature (2 ^ 247) (2 ^ 248))) .zero = some converted ∧
      converted.read 0 32 = wordBytes (2 ^ 247) ∧
      converted.read 32 32 = wordBytes (2 ^ 248)) ↔
      2 ^ 247 ≤ 2 ^ 247 ∧ 2 ^ 247 ≤ 2 ^ 248 :=
  convertSignatureToRSV_exact_iff (by decide) (by decide) (by decide)
    (by decide) (by decide +kernel) .zero

/-- A first number of 31 bytes: its length takes the place of a zero. -/
theorem convertSignatureToRSV_not_exact_short :
    HoldsSignature (.ofList (derSignature (2 ^ 240) (2 ^ 248))) (2 ^ 240)
        (2 ^ 248) ∧
      ¬∃ converted, convertSignatureToRSV
          (.ofList (derSignature (2 ^ 240) (2 ^ 248))) .zero =
            some converted ∧
        converted.read 0 32 = wordBytes (2 ^ 240) ∧
        converted.read 32 32 = wordBytes (2 ^ 248) := by
  constructor
  · decide +kernel
  · rintro ⟨converted, converts, word, -⟩
    have other : (convertSignatureToRSV
        (.ofList (derSignature (2 ^ 240) (2 ^ 248))) .zero).map
          (·.read 0 32) ≠ some (wordBytes (2 ^ 240)) := by
      decide +kernel
    rw [converts, Option.map_some, word] at other
    exact other rfl

end LedgerOne
