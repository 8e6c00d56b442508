import LedgerOne.Lib.Bytes

/-!
# Integers and signatures in DER

The content of an INTEGER is the shortest two's complement form of a number, so
that a zero byte stands before a first byte of 128 or more.  A signature is a
SEQUENCE of two of them.
-/

namespace LedgerOne

/-- The content of a DER INTEGER that is not negative. -/
def derContent (value : Nat) : List UInt8 :=
  if 128 ≤ ((natBytes value).headD 0).toNat then 0 :: natBytes value
  else natBytes value

/-- A DER INTEGER with a length of one byte. -/
def derInteger (value : Nat) : List UInt8 :=
  [0x02, UInt8.ofNat (derContent value).length] ++ derContent value

/-- A signature in strict DER, with a length of one byte. -/
def derSignature (r s : Nat) : List UInt8 :=
  [0x30, UInt8.ofNat (derInteger r ++ derInteger s).length] ++
    derInteger r ++ derInteger s

/-- A number as a big-endian word of 32 bytes. -/
def wordBytes (value : Nat) : List UInt8 :=
  List.replicate (32 - (natBytes value).length) 0 ++ natBytes value

/-! ## The length of an INTEGER -/

/-- The first byte of a number. -/
theorem toNat_headD_natBytes {value : Nat} (positive : 0 < value) :
    ((natBytes value).headD 0).toNat =
      value / 256 ^ ((natBytes value).length - 1) := by
  have some := List.length_pos_iff.mpr (natBytes_ne_nil positive)
  have first := ofNat_beNat_div (natBytes value) some
  rw [beNat_natBytes, Nat.sub_zero] at first
  have small : value / 256 ^ ((natBytes value).length - 1) < 256 := by
    have bound := beNat_lt (natBytes value)
    rw [beNat_natBytes] at bound
    rw [Nat.div_lt_iff_lt_mul (Nat.pow_pos (by decide)), ← Nat.pow_succ',
      Nat.succ_eq_add_one, Nat.sub_add_cancel some]
    exact bound
  have head : (natBytes value).headD 0 = (natBytes value)[0] := by
    rw [List.headD_eq_head?_getD, List.head?_eq_getElem?,
      List.getElem?_eq_getElem some]
    rfl
  rw [head, ← first, UInt8.toNat_ofNat']
  exact Nat.mod_eq_of_lt small

/-- A number has so many bytes exactly if it is below the next power. -/
theorem length_natBytes_le_iff (value count : Nat) :
    (natBytes value).length ≤ count ↔ value < 256 ^ count := by
  rw [length_natBytes]
  exact Nat.digits_length_le_iff (by omega) value

/-- The content of an INTEGER is as long as the number with a sign bit above
it needs. -/
theorem length_derContent_le_iff {value : Nat} (positive : 0 < value)
    (count : Nat) :
    (derContent value).length ≤ count + 1 ↔ value < 128 * 256 ^ count := by
  have head := toNat_headD_natBytes positive
  have some := List.length_pos_iff.mpr (natBytes_ne_nil positive)
  have fits := length_natBytes_le_iff value
  have power : 0 < 256 ^ ((natBytes value).length - 1) :=
    Nat.pow_pos (by decide)
  unfold derContent
  by_cases high : 128 ≤ ((natBytes value).headD 0).toNat
  · rw [if_pos high, List.length_cons, Nat.add_le_add_iff_right, fits]
    constructor
    · intro small
      omega
    · intro small
      by_contra large
      rw [head, Nat.le_div_iff_mul_le power] at high
      have longer : count ≤ (natBytes value).length - 1 := by
        have := (fits count).not.mpr large
        omega
      have grown := Nat.pow_le_pow_right (show 0 < 256 by decide) longer
      omega
  · rw [if_neg high, fits, Nat.pow_succ]
    constructor
    · intro small
      rw [← Nat.pow_succ, ← fits] at small
      have grown := Nat.pow_le_pow_right (show 0 < 256 by decide)
        (show (natBytes value).length - 1 ≤ count by omega)
      rw [head, not_le, Nat.div_lt_iff_lt_mul power] at high
      omega
    · intro small
      omega

theorem length_derContent_pos {value : Nat} (positive : 0 < value) :
    0 < (derContent value).length := by
  have some := List.length_pos_iff.mpr (natBytes_ne_nil positive)
  unfold derContent
  split
  · exact Nat.zero_lt_succ _
  · exact some

/-- An INTEGER of up to 256 bits. -/
theorem length_derContent_le {value : Nat} (positive : 0 < value)
    (small : value < 2 ^ 256) : (derContent value).length ≤ 33 :=
  (length_derContent_le_iff positive 32).mpr (by omega)

theorem length_natBytes_le_derContent (value : Nat) :
    (natBytes value).length ≤ (derContent value).length := by
  unfold derContent
  split
  · exact Nat.le_succ _
  · exact Nat.le_refl _

/-! ## The content as a word -/

@[simp] theorem length_wordBytes {value : Nat} (small : value < 2 ^ 256) :
    (wordBytes value).length = 32 := by
  have short : (natBytes value).length ≤ 32 := length_natBytes_le small
  rw [wordBytes, List.length_append, List.length_replicate]
  omega

/-- The last 32 bytes of a long content are the number's word. -/
theorem drop_derContent {value : Nat} (small : value < 2 ^ 256)
    (long : 32 ≤ (derContent value).length) :
    (derContent value).drop ((derContent value).length - 32) =
      wordBytes value := by
  have short : (natBytes value).length ≤ 32 := length_natBytes_le small
  unfold derContent at long ⊢
  unfold wordBytes
  by_cases high : 128 ≤ ((natBytes value).headD 0).toNat
  · rw [if_pos high, List.length_cons] at long
    rw [if_pos high, List.length_cons]
    by_cases full : (natBytes value).length = 32
    · rw [full]
      rfl
    · have almost : (natBytes value).length = 31 := by omega
      rw [almost]
      rfl
  · rw [if_neg high] at long
    have full : (natBytes value).length = 32 := by omega
    rw [if_neg high, full]
    rfl

/-- Where a short content leaves a byte free, the word has a zero. -/
theorem getD_wordBytes {value : Nat} (short : (derContent value).length < 32)
    (other : UInt8) :
    (wordBytes value).getD (31 - (derContent value).length) other = 0 := by
  have bound := length_natBytes_le_derContent value
  rw [wordBytes, List.getD_append _ _ _ _ (by
    rw [List.length_replicate]; omega), List.getD_replicate]
  omega

end LedgerOne
