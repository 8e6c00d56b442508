import LedgerOne.Lib.Bytes

/-!
# Hexadecimal text

The lower-case hexadecimal text of a byte string, with two digits for each
byte.  It has no NUL and tells byte strings apart.
-/

namespace LedgerOne

/-- A hexadecimal digit as a character. -/
def hexNibble (digit : Nat) : UInt8 := UInt8.ofNat (Nat.digitChar digit).toNat

/-- The lower-case hexadecimal text of a byte string. -/
def hexText (bytes : List UInt8) : List UInt8 :=
  bytes.flatMap fun byte =>
    [hexNibble (byte.toNat / 16), hexNibble (byte.toNat % 16)]

example : hexText [0x0f, 0xa1] = ascii "0fa1" := by decide

theorem hexText_cons (byte : UInt8) (bytes : List UInt8) :
    hexText (byte :: bytes) =
      hexNibble (byte.toNat / 16) :: hexNibble (byte.toNat % 16) ::
        hexText bytes :=
  rfl

@[simp] theorem length_hexText (bytes : List UInt8) :
    (hexText bytes).length = 2 * bytes.length := by
  induction bytes with
  | nil => rfl
  | cons byte bytes inductionHypothesis =>
      rw [hexText_cons, List.length_cons, List.length_cons,
        inductionHypothesis, List.length_cons]
      omega

theorem hexNibble_ne_zero {digit : Nat} (small : digit < 16) :
    hexNibble digit ≠ 0 := by
  revert digit
  decide

theorem hexNibble_inj {left right : Nat} (smallLeft : left < 16)
    (smallRight : right < 16) (same : hexNibble left = hexNibble right) :
    left = right := by
  have each : ∀ left < 16, ∀ right < 16,
      hexNibble left = hexNibble right -> left = right := by decide
  exact each left smallLeft right smallRight same

theorem zero_not_mem_hexText (bytes : List UInt8) : 0 ∉ hexText bytes := by
  intro member
  obtain ⟨byte, -, digit⟩ := List.mem_flatMap.mp member
  have small := byte.toNat_lt
  obtain high | low : 0 = hexNibble (byte.toNat / 16) ∨
      0 = hexNibble (byte.toNat % 16) := by simpa using digit
  · exact hexNibble_ne_zero (by omega) high.symm
  · exact hexNibble_ne_zero (Nat.mod_lt _ (by decide)) low.symm

/-- Different byte strings have different texts. -/
theorem hexText_injective : Function.Injective hexText := by
  intro left
  induction left with
  | nil =>
      intro right same
      have length := congrArg List.length same
      rw [length_hexText, length_hexText] at length
      exact (List.length_eq_zero_iff.mp (by simpa using length.symm)).symm
  | cons first left inductionHypothesis =>
      intro right same
      cases right with
      | nil => simp [hexText] at same
      | cons second right =>
          rw [hexText_cons, hexText_cons, List.cons.injEq,
            List.cons.injEq] at same
          obtain ⟨high, low, rest⟩ := same
          have firstSmall := first.toNat_lt
          have secondSmall := second.toNat_lt
          have high := hexNibble_inj (by omega) (by omega) high
          have low := hexNibble_inj (Nat.mod_lt _ (by decide))
            (Nat.mod_lt _ (by decide)) low
          rw [inductionHypothesis rest, UInt8.toNat_inj.mp (by omega :
            first.toNat = second.toNat)]

end LedgerOne
