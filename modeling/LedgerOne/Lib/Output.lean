import Mathlib.Data.List.Basic
import Mathlib.Logic.Function.Basic

/-!
# Recorded output

A memory without an end together with the positions of it that were written,
as a pointer sees it: what a procedure writes is known whether or not an array
has room for it.
-/

namespace LedgerOne

/-- A memory and the positions that were written. -/
structure Output where
  memory : Nat -> UInt8
  written : List Nat

namespace Output

/-- Write a byte. -/
def write (output : Output) (position : Nat) (byte : UInt8) : Output :=
  ⟨Function.update output.memory position byte, position :: output.written⟩

/-- Write bytes one after the other. -/
def writeAll (output : Output) (position : Nat) : List UInt8 -> Output
  | [] => output
  | byte :: bytes => (output.write position byte).writeAll (position + 1) bytes

variable (output : Output) (position : Nat) (byte : UInt8)

@[simp] theorem memory_write (index : Nat) :
    (output.write position byte).memory index =
      if index = position then byte else output.memory index :=
  Function.update_apply output.memory position byte index

@[simp] theorem mem_written_write (index : Nat) :
    index ∈ (output.write position byte).written ↔
      index = position ∨ index ∈ output.written :=
  List.mem_cons

theorem memory_writeAll (bytes : List UInt8) (index : Nat) :
    (output.writeAll position bytes).memory index =
      if position ≤ index ∧ index < position + bytes.length then
        bytes.getD (index - position) 0
      else output.memory index := by
  induction bytes generalizing output position with
  | nil =>
      rw [if_neg (by simp)]
      rfl
  | cons byte bytes inductionHypothesis =>
      rw [writeAll, inductionHypothesis, memory_write, List.length_cons]
      by_cases first : index = position
      · subst first
        rw [if_neg (by omega), if_pos rfl, if_pos (by omega), Nat.sub_self,
          List.getD_cons_zero]
      · rw [if_neg first]
        by_cases later : position + 1 ≤ index ∧
            index < position + 1 + bytes.length
        · have next : index - position = index - (position + 1) + 1 := by
            omega
          rw [if_pos later, if_pos (by omega), next, List.getD_cons_succ]
        · rw [if_neg later, if_neg (by omega)]

theorem mem_written_writeAll (bytes : List UInt8) (index : Nat) :
    index ∈ (output.writeAll position bytes).written ↔
      index ∈ output.written ∨
        position ≤ index ∧ index < position + bytes.length := by
  induction bytes generalizing output position with
  | nil =>
      rw [writeAll, List.length_nil]
      exact ⟨Or.inl, fun either => either.resolve_right (by omega)⟩
  | cons byte bytes inductionHypothesis =>
      rw [writeAll, inductionHypothesis, mem_written_write, List.length_cons]
      constructor
      · rintro ((here | before) | ⟨after, inside⟩)
        · exact Or.inr (by omega)
        · exact Or.inl before
        · exact Or.inr (by omega)
      · rintro (before | ⟨after, inside⟩)
        · exact Or.inl (Or.inr before)
        · by_cases here : index = position
          · exact Or.inl (Or.inl here)
          · exact Or.inr (by omega)

end Output

end LedgerOne
