import LedgerOne.Lib.Bytes
import Mathlib.Data.List.DropRight

/-!
# Decimal text

The digits of a number without leading zeros, its digits in a field of fixed
width, and the number that a text of digits denotes.
-/

namespace LedgerOne

/-- The character of a digit. -/
def digitChar (digit : Nat) : UInt8 := UInt8.ofNat (48 + digit)

theorem toNat_digitChar {digit : Nat} (small : digit < 10) :
    (digitChar digit).toNat = 48 + digit := by
  simp [digitChar]
  omega

theorem digitChar_ne_zero {digit : Nat} (small : digit < 10) :
    digitChar digit ≠ 0 := by
  intro zero
  have value := toNat_digitChar small
  rw [zero] at value
  simp at value
  omega

theorem digitChar_eq_zero_iff {digit : Nat} (small : digit < 10) :
    digitChar digit = 48 ↔ digit = 0 := by
  rw [← UInt8.toNat_inj, toNat_digitChar small]
  simp

/-- The number that digits denote. -/
def decimalNat (text : List UInt8) : Nat :=
  text.foldl (fun value character => 10 * value + (character.toNat - 48)) 0

theorem decimalNat_concat (text : List UInt8) (character : UInt8) :
    decimalNat (text ++ [character]) =
      10 * decimalNat text + (character.toNat - 48) := by
  simp [decimalNat, List.foldl_append]

/-! ## Digits without leading zeros -/

theorem decimalDigits_of_lt {value : Nat} (small : value < 10) :
    decimalDigits value = [digitChar value] := by
  by_cases zero : value = 0
  · subst zero
    rfl
  · rw [decimalDigits, if_neg zero, Nat.digits_of_lt 10 value zero small]
    rfl

/-- A number of several digits ends with its last one. -/
theorem decimalDigits_of_le {value : Nat} (large : 10 ≤ value) :
    decimalDigits value =
      decimalDigits (value / 10) ++ [digitChar (value % 10)] := by
  have shorter : value / 10 ≠ 0 := by omega
  rw [decimalDigits, if_neg (by omega), decimalDigits, if_neg shorter,
    Nat.digits_def' (by decide) (by omega), List.map_cons, List.reverse_cons]
  rfl

/-- An induction on the digits of a number. -/
theorem decimal_induction {motive : Nat -> Prop}
    (single : ∀ value, value < 10 -> motive value)
    (several : ∀ value, 10 ≤ value -> motive (value / 10) -> motive value)
    (value : Nat) : motive value := by
  induction value using Nat.strong_induction_on with
  | _ value inductionHypothesis =>
      by_cases small : value < 10
      · exact single value small
      · exact several value (by omega)
          (inductionHypothesis (value / 10) (by omega))

@[simp] theorem decimalNat_decimalDigits (value : Nat) :
    decimalNat (decimalDigits value) = value := by
  induction value using decimal_induction with
  | single value small =>
      rw [decimalDigits_of_lt small, decimalNat]
      simp [toNat_digitChar small]
  | several value large inductionHypothesis =>
      have last := toNat_digitChar (Nat.mod_lt value (show 0 < 10 by decide))
      rw [decimalDigits_of_le large, decimalNat_concat, inductionHypothesis,
        last]
      omega

theorem decimalDigits_ne_nil (value : Nat) : decimalDigits value ≠ [] := by
  by_cases small : value < 10
  · simp [decimalDigits_of_lt small]
  · simp [decimalDigits_of_le (not_lt.mp small)]

/-- Every character is a digit. -/
theorem digit_of_mem_decimalDigits {value : Nat} {character : UInt8}
    (member : character ∈ decimalDigits value) :
    ∃ digit < 10, character = digitChar digit := by
  induction value using decimal_induction with
  | single value small =>
      rw [decimalDigits_of_lt small, List.mem_singleton] at member
      exact ⟨value, small, member⟩
  | several value large inductionHypothesis =>
      rw [decimalDigits_of_le large] at member
      obtain earlier | last := List.mem_append.mp member
      · exact inductionHypothesis earlier
      · exact ⟨value % 10, Nat.mod_lt _ (by decide),
          List.mem_singleton.mp last⟩

/-- The number of digits. -/
theorem length_decimalDigits_le {value count : Nat} (some : 0 < count)
    (small : value < 10 ^ count) : (decimalDigits value).length ≤ count := by
  induction value using decimal_induction generalizing count with
  | single value few =>
      rw [decimalDigits_of_lt few]
      exact some
  | several value large inductionHypothesis =>
      obtain ⟨count, rfl⟩ : ∃ rest, count = rest + 1 :=
        ⟨count - 1, by omega⟩
      have more : 0 < count := by
        by_contra none
        obtain rfl : count = 0 := by omega
        omega
      rw [decimalDigits_of_le large, List.length_append,
        List.length_singleton]
      apply Nat.succ_le_succ
      apply inductionHypothesis more
      rw [Nat.pow_succ] at small
      omega

/-- A number of several digits begins with the digits of its upper part. -/
theorem head_decimalDigits {value : Nat} (positive : 0 < value) :
    (decimalDigits value).head? ≠ some 48 := by
  induction value using decimal_induction with
  | single value small =>
      rw [decimalDigits_of_lt small, List.head?_cons]
      intro zero
      have none := (digitChar_eq_zero_iff small).mp (Option.some.inj zero)
      omega
  | several value large inductionHypothesis =>
      rw [decimalDigits_of_le large,
        List.head?_append_of_ne_nil _ (decimalDigits_ne_nil _)]
      exact inductionHypothesis (by omega)

/-! ## Fields of fixed width -/

/-- The last digits of a number, as many as the field is wide. -/
def fixedDigits : Nat -> Nat -> List UInt8
  | 0, _ => []
  | count + 1, value =>
      fixedDigits count (value / 10) ++ [digitChar (value % 10)]

@[simp] theorem length_fixedDigits (count value : Nat) :
    (fixedDigits count value).length = count := by
  induction count generalizing value with
  | zero => rfl
  | succ count inductionHypothesis =>
      simp [fixedDigits, inductionHypothesis]

theorem fixedDigits_zero (count : Nat) :
    fixedDigits count 0 = List.replicate count 48 := by
  induction count with
  | zero => rfl
  | succ count inductionHypothesis =>
      rw [fixedDigits, Nat.zero_div, inductionHypothesis,
        List.replicate_succ']
      rfl

/-- Zeros before the digits fill the field. -/
theorem replicate_append_decimalDigits {count value : Nat} (some : 0 < count)
    (small : value < 10 ^ count) :
    List.replicate (count - (decimalDigits value).length) 48 ++
      decimalDigits value = fixedDigits count value := by
  induction value using decimal_induction generalizing count with
  | single value few =>
      obtain ⟨count, rfl⟩ : ∃ rest, count = rest + 1 :=
        ⟨count - 1, by omega⟩
      rw [decimalDigits_of_lt few, fixedDigits, Nat.div_eq_of_lt few,
        Nat.mod_eq_of_lt few, fixedDigits_zero]
      rfl
  | several value large inductionHypothesis =>
      obtain ⟨count, rfl⟩ : ∃ rest, count = rest + 1 :=
        ⟨count - 1, by omega⟩
      have more : 0 < count := by
        by_contra none
        obtain rfl : count = 0 := by omega
        omega
      have fewer : value / 10 < 10 ^ count := by
        rw [Nat.pow_succ] at small
        omega
      rw [decimalDigits_of_le large, fixedDigits,
        ← inductionHypothesis more fewer, List.length_append,
        List.length_singleton, Nat.add_sub_add_right, List.append_assoc]

/-- The digits of a number split anywhere. -/
theorem decimalDigits_append_fixedDigits {upper lower count : Nat}
    (positive : 0 < upper) (small : lower < 10 ^ count) :
    decimalDigits upper ++ fixedDigits count lower =
      decimalDigits (upper * 10 ^ count + lower) := by
  induction count generalizing lower with
  | zero =>
      obtain rfl : lower = 0 := by simpa using small
      simp [fixedDigits]
  | succ count inductionHypothesis =>
      have fewer : lower / 10 < 10 ^ count := by
        rw [Nat.pow_succ] at small
        omega
      have grown : upper * 10 ^ (count + 1) + lower =
          (upper * 10 ^ count + lower / 10) * 10 + lower % 10 := by
        rw [Nat.pow_succ, ← Nat.mul_assoc]
        omega
      have large : 10 ≤ upper * 10 ^ (count + 1) + lower := by
        have power : 1 ≤ upper * 10 ^ count :=
          Nat.mul_pos positive (Nat.pow_pos (by decide))
        omega
      rw [fixedDigits, ← List.append_assoc, inductionHypothesis fewer,
        decimalDigits_of_le large, grown]
      congr 2
      · omega
      · congr 1
        omega

theorem digit_of_mem_fixedDigits {count value : Nat} {character : UInt8}
    (member : character ∈ fixedDigits count value) :
    ∃ digit < 10, character = digitChar digit := by
  induction count generalizing value with
  | zero => simp [fixedDigits] at member
  | succ count inductionHypothesis =>
      rw [fixedDigits] at member
      obtain earlier | last := List.mem_append.mp member
      · exact inductionHypothesis earlier
      · exact ⟨value % 10, Nat.mod_lt _ (by decide),
          List.mem_singleton.mp last⟩

theorem decimalNat_fixedDigits {count value : Nat}
    (small : value < 10 ^ count) :
    decimalNat (fixedDigits count value) = value := by
  induction count generalizing value with
  | zero =>
      obtain rfl : value = 0 := by simpa using small
      rfl
  | succ count inductionHypothesis =>
      have fewer : value / 10 < 10 ^ count := by
        rw [Nat.pow_succ] at small
        omega
      have last := toNat_digitChar (Nat.mod_lt value (show 0 < 10 by decide))
      rw [fixedDigits, decimalNat_concat, inductionHypothesis fewer, last]
      omega

/-! ## Trailing zeros -/

/-- A text that has another character than zeros keeps what is before it when
the zeros at its end are removed. -/
theorem rdropWhile_append_of_mem {keeps : UInt8 -> Bool}
    (front : List UInt8) {text : List UInt8} {digit : UInt8}
    (member : digit ∈ text) (kept : ¬keeps digit) :
    (front ++ text).rdropWhile keeps = front ++ text.rdropWhile keeps := by
  have some : text.reverse.dropWhile keeps ≠ [] := by
    rw [Ne, List.dropWhile_eq_nil_iff]
    intro all
    exact kept (all digit (List.mem_reverse.mpr member))
  unfold List.rdropWhile
  rw [List.reverse_append, List.dropWhile_append, List.isEmpty_eq_false_iff.mpr some]
  simp

/-- A positive number has a digit that is not zero. -/
theorem exists_mem_decimalDigits {value : Nat} (positive : 0 < value) :
    ∃ digit ∈ decimalDigits value, digit ≠ 48 := by
  have first := head_decimalDigits positive
  cases text : decimalDigits value with
  | nil => exact absurd text (decimalDigits_ne_nil value)
  | cons digit rest =>
      refine ⟨digit, List.mem_cons_self, ?_⟩
      intro zero
      rw [text, zero] at first
      exact first rfl

/-- What follows the first part of a text that is trimmed as a whole. -/
theorem drop_rdropWhile_append (keeps : UInt8 -> Bool)
    (front text : List UInt8) :
    ((front ++ text).rdropWhile keeps).drop front.length =
      text.rdropWhile keeps := by
  by_cases all : ∀ digit ∈ text, keeps digit
  · have none := List.rdropWhile_eq_nil_iff.mpr all
    have shorter : ((front ++ text).rdropWhile keeps).length ≤
        front.length := by
      rw [List.rdropWhile, List.reverse_append, List.dropWhile_append_of_pos
        (fun digit member => all digit (List.mem_reverse.mp member))]
      exact (List.rdropWhile_prefix keeps front).length_le
    rw [none, List.drop_eq_nil_of_le shorter]
  · obtain ⟨digit, member, kept⟩ := by simpa using all
    rw [rdropWhile_append_of_mem front member (by simp [kept]),
      List.drop_left]

/-- Zeros at the end of a number multiply it. -/
theorem decimalNat_append_replicate (text : List UInt8) (count : Nat) :
    decimalNat (text ++ List.replicate count 48) =
      decimalNat text * 10 ^ count := by
  induction count with
  | zero => simp
  | succ count inductionHypothesis =>
      rw [List.replicate_succ', ← List.append_assoc, decimalNat_concat,
        inductionHypothesis, Nat.pow_succ, Nat.mul_comm 10, Nat.mul_assoc]
      rfl

/-- The zeros that trimming removes. -/
theorem rdropWhile_append_replicate (text : List UInt8) :
    ∃ count, text = text.rdropWhile (fun digit => digit = 48) ++
      List.replicate count 48 := by
  refine ⟨(text.rtakeWhile fun digit => digit = 48).length, ?_⟩
  have zeros : text.rtakeWhile (fun digit => decide (digit = 48)) =
      List.replicate (text.rtakeWhile fun digit => digit = 48).length 48 := by
    rw [List.eq_replicate_iff]
    refine ⟨rfl, ?_⟩
    intro digit member
    simpa using List.mem_rtakeWhile_imp member
  rw [← zeros, List.rdropWhile_append_rtakeWhile]

end LedgerOne
