import Mathlib.Data.Nat.Digits.Lemmas
import Mathlib.Tactic.Ring
import LedgerOne.Lib.Region

/-!
# Numbers as byte strings

Big-endian and little-endian readings of a byte string, and the minimal
big-endian spelling of a number, the one without leading zero bytes.
-/

namespace LedgerOne

/-- Text as the bytes of its ASCII characters. -/
def ascii (text : String) : List UInt8 :=
  text.toList.map fun character => UInt8.ofNat character.toNat

/-- Big-endian value of a byte string. -/
def beNat (bytes : List UInt8) : Nat :=
  bytes.foldl (fun value byte => 256 * value + byte.toNat) 0

/-- Little-endian value of a byte string. -/
def leNat (bytes : List UInt8) : Nat :=
  Nat.ofDigits 256 (bytes.map UInt8.toNat)

/-- The minimal big-endian byte string of a number; zero is the empty one. -/
def natBytes (value : Nat) : List UInt8 :=
  ((Nat.digits 256 value).map UInt8.ofNat).reverse

/-- The decimal digits of a number as text. -/
def decimalDigits (value : Nat) : List UInt8 :=
  if value = 0 then ascii "0"
  else ((Nat.digits 10 value).map fun digit => UInt8.ofNat (48 + digit)).reverse

@[simp] theorem beNat_nil : beNat [] = 0 := rfl

/-- Appending one byte shifts the value by a byte. -/
theorem beNat_concat (bytes : List UInt8) (byte : UInt8) :
    beNat (bytes ++ [byte]) = 256 * beNat bytes + byte.toNat := by
  simp [beNat, List.foldl_append]

/-- The big-endian value is the little-endian value of the reversed string. -/
theorem beNat_eq_leNat_reverse (bytes : List UInt8) :
    beNat bytes = leNat bytes.reverse := by
  induction bytes using List.reverseRecOn with
  | nil => rfl
  | append_singleton bytes byte inductionHypothesis =>
      rw [beNat_concat, inductionHypothesis]
      simp [leNat, Nat.ofDigits_cons]
      ring

@[simp] theorem leNat_nil : leNat [] = 0 := rfl

theorem leNat_cons (byte : UInt8) (bytes : List UInt8) :
    leNat (byte :: bytes) = byte.toNat + 256 * leNat bytes := by
  simp [leNat, Nat.ofDigits_cons]

theorem leNat_append (front back : List UInt8) :
    leNat (front ++ back) = leNat front + 256 ^ front.length * leNat back := by
  simp [leNat, Nat.ofDigits_append]

theorem leNat_lt (bytes : List UInt8) : leNat bytes < 256 ^ bytes.length := by
  have bounded := Nat.ofDigits_lt_base_pow_length (b := 256)
    (l := bytes.map UInt8.toNat) (by omega) (by
      intro digit member
      obtain ⟨byte, _, rfl⟩ := List.mem_map.mp member
      exact byte.toNat_lt)
  simpa [leNat] using bounded

/-- The byte at a place of a little-endian number. -/
theorem ofNat_leNat_div (bytes : List UInt8) (place : Nat) :
    UInt8.ofNat (leNat bytes / 256 ^ place) = bytes.getD place 0 := by
  induction bytes generalizing place with
  | nil => simp
  | cons byte bytes inductionHypothesis =>
      have small := byte.toNat_lt
      cases place with
      | zero =>
          rw [leNat_cons, pow_zero, Nat.div_one, List.getD_cons_zero]
          apply UInt8.toNat_inj.mp
          rw [UInt8.toNat_ofNat']
          omega
      | succ place =>
          rw [leNat_cons, List.getD_cons_succ, ← inductionHypothesis, pow_succ',
            ← Nat.div_div_eq_div_mul]
          congr 2
          omega

theorem beNat_lt (bytes : List UInt8) : beNat bytes < 256 ^ bytes.length := by
  simpa [beNat_eq_leNat_reverse] using leNat_lt bytes.reverse

theorem beNat_append (front back : List UInt8) :
    beNat (front ++ back) = beNat front * 256 ^ back.length + beNat back := by
  rw [beNat_eq_leNat_reverse, List.reverse_append, leNat_append,
    List.length_reverse, ← beNat_eq_leNat_reverse, ← beNat_eq_leNat_reverse]
  ring

@[simp] theorem beNat_replicate_zero (count : Nat) :
    beNat (List.replicate count 0) = 0 := by
  induction count with
  | zero => rfl
  | succ count inductionHypothesis =>
      rw [List.replicate_succ', beNat_concat, inductionHypothesis]
      rfl

/-- A byte of a big-endian number. -/
theorem ofNat_beNat_div (bytes : List UInt8) {index : Nat}
    (inside : index < bytes.length) :
    UInt8.ofNat (beNat bytes / 256 ^ (bytes.length - 1 - index)) =
      bytes[index] := by
  induction bytes using List.reverseRecOn generalizing index with
  | nil => simp at inside
  | append_singleton bytes byte inductionHypothesis =>
      rw [List.length_append, List.length_singleton] at inside ⊢
      rw [beNat_concat]
      by_cases last : index = bytes.length
      · subst last
        rw [Nat.add_sub_cancel, Nat.sub_self, Nat.pow_zero, Nat.div_one]
        apply UInt8.toNat_inj.mp
        simp
      · have early : index < bytes.length := by omega
        have exponent : bytes.length + 1 - 1 - index =
            bytes.length - 1 - index + 1 := by omega
        have upper : (256 * beNat bytes + byte.toNat) / 256 = beNat bytes := by
          have small := byte.toNat_lt
          omega
        rw [exponent, Nat.pow_succ', ← Nat.div_div_eq_div_mul, upper,
          inductionHypothesis early, List.getElem_append_left early]

/-- Trailing zero bytes do not change a little-endian value. -/
theorem leNat_append_zeros (bytes : List UInt8) (count : Nat) :
    leNat (bytes ++ List.replicate count 0) = leNat bytes := by
  have zeros : leNat (List.replicate count 0) = 0 := by
    induction count with
    | zero => rfl
    | succ count inductionHypothesis =>
        simp [List.replicate_succ, leNat_cons, inductionHypothesis]
  simp [leNat_append, zeros]

private theorem map_toNat_ofNat (digits : List Nat)
    (small : ∀ digit ∈ digits, digit < 256) :
    (digits.map UInt8.ofNat).map UInt8.toNat = digits := by
  rw [List.map_map]
  apply (List.map_congr_left _).trans (List.map_id digits)
  intro digit member
  simp [Nat.mod_eq_of_lt (small digit member)]

/-- The minimal spelling of a number has that number as its value. -/
@[simp] theorem beNat_natBytes (value : Nat) : beNat (natBytes value) = value := by
  rw [beNat_eq_leNat_reverse, natBytes, List.reverse_reverse, leNat,
    map_toNat_ofNat _ (fun digit member =>
      Nat.digits_lt_base (by omega) member),
    Nat.ofDigits_digits]

@[simp] theorem natBytes_zero : natBytes 0 = [] := by
  simp [natBytes]

theorem length_natBytes (value : Nat) :
    (natBytes value).length = (Nat.digits 256 value).length := by
  simp [natBytes]

/-- A number below `256 ^ count` is spelled with at most `count` bytes. -/
theorem length_natBytes_le {value count : Nat} (small : value < 256 ^ count) :
    (natBytes value).length ≤ count := by
  rw [length_natBytes]
  exact (Nat.digits_length_le_iff (by omega) value).mpr small

theorem natBytes_ne_nil {value : Nat} (positive : 0 < value) :
    natBytes value ≠ [] := by
  intro empty
  have := beNat_natBytes value
  rw [empty, beNat_nil] at this
  omega

/-- A number below 256 is spelled with one byte, unless it is zero. -/
theorem natBytes_of_lt {value : Nat} (positive : 0 < value)
    (small : value < 256) :
    natBytes value = [UInt8.ofNat value] := by
  rw [natBytes, Nat.digits_of_lt 256 value (by omega) small]
  rfl

/-- Writing a short string into a zero array and reading the array as a
little-endian number reads the string. -/
theorem leNat_toList_ofList {size : Nat} (bytes : List UInt8)
    (fits : bytes.length ≤ size) :
    leNat (Region.ofList bytes : Region size).toList = leNat bytes := by
  have padded : (Region.ofList bytes : Region size).toList =
      bytes ++ List.replicate (size - bytes.length) 0 := by
    apply List.ext_getElem
    · simp; omega
    · intro index inside _
      rw [Region.length_toList] at inside
      simp only [Region.toList_eq_read, Region.getElem_read, Nat.zero_add]
      rw [Region.ofList, Region.get_splice _ _ _ _ inside]
      by_cases within : index < bytes.length
      · simp [within, List.getD_eq_getElem?_getD]
      · simp [within, List.getElem_append_right (Nat.le_of_not_lt within)]
  rw [padded, leNat_append_zeros]

end LedgerOne
