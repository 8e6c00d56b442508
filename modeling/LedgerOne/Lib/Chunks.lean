import Mathlib.Data.List.Basic
import Mathlib.Tactic.Common

/-!
# Pieces of a bounded size

A list cut into pieces of a given size, of which only the last one may be
shorter.
-/

namespace LedgerOne

variable {α : Type}

/-- Cut at most `rounds` pieces off a list. -/
def chunksFrom (size : Nat) : Nat -> List α -> List (List α)
  | 0, _ => []
  | rounds + 1, list =>
      if list.isEmpty then []
      else list.take size :: chunksFrom size rounds (list.drop size)

/-- The pieces of `size` items of a list. -/
def chunks (size : Nat) (list : List α) : List (List α) :=
  chunksFrom size list.length list

example : chunks 2 [1, 2, 3, 4, 5] = [[1, 2], [3, 4], [5]] := by decide

section Chunks

variable {size : Nat} (positive : 0 < size)

include positive

/-- There are no more rounds than items. -/
theorem chunksFrom_enough {rounds more : Nat} {list : List α}
    (enough : list.length ≤ rounds) (le : rounds ≤ more) :
    chunksFrom size more list = chunksFrom size rounds list := by
  induction rounds generalizing more list with
  | zero =>
      rw [List.length_eq_zero_iff.mp (Nat.le_zero.mp enough)]
      cases more with
      | zero => rfl
      | succ more => rfl
  | succ rounds inductionHypothesis =>
      obtain ⟨more, rfl⟩ : ∃ fewer, more = fewer + 1 := ⟨more - 1, by omega⟩
      unfold chunksFrom
      split
      · rfl
      · next some =>
        have length : 0 < list.length :=
          List.length_pos_iff.mpr fun empty => some (by rw [empty]; rfl)
        rw [inductionHypothesis (by rw [List.length_drop]; omega) (by omega)]

theorem chunks_cons {list : List α} (some : list ≠ []) :
    chunks size list = list.take size :: chunks size (list.drop size) := by
  obtain ⟨fewer, length⟩ : ∃ fewer, list.length = fewer + 1 :=
    ⟨list.length - 1, by
      have := List.length_pos_iff.mpr some
      omega⟩
  have rest : (list.drop size).length ≤ fewer := by
    rw [List.length_drop]
    omega
  rw [chunks, length, chunksFrom, if_neg (by simpa using some), chunks,
    chunksFrom_enough positive (Nat.le_refl _) rest]

/-- Cutting one piece after the other. -/
theorem chunks_induction {motive : List α -> Prop} (nil : motive [])
    (piece : ∀ list, list ≠ [] -> motive (list.drop size) -> motive list)
    (list : List α) : motive list := by
  induction count : list.length using Nat.strongRecOn generalizing list with
  | ind count inductionHypothesis =>
      by_cases empty : list = []
      · exact empty ▸ nil
      · apply piece list empty
        have length := List.length_pos_iff.mpr empty
        exact inductionHypothesis _ (by rw [List.length_drop]; omega) _ rfl

theorem flatten_chunks (list : List α) : (chunks size list).flatten = list := by
  induction list using chunks_induction positive with
  | nil => rfl
  | piece list some inductionHypothesis =>
      rw [chunks_cons positive some, List.flatten_cons, inductionHypothesis,
        List.take_append_drop]

theorem length_of_mem_chunks {list chunk : List α}
    (member : chunk ∈ chunks size list) :
    0 < chunk.length ∧ chunk.length ≤ size := by
  induction list using chunks_induction positive with
  | nil => cases member
  | piece list some inductionHypothesis =>
      rw [chunks_cons positive some] at member
      obtain rfl | later := List.mem_cons.mp member
      · have length := List.length_pos_iff.mpr some
        rw [List.length_take]
        omega
      · exact inductionHypothesis later

theorem chunks_ne_nil {list : List α} (some : list ≠ []) :
    chunks size list ≠ [] := by
  rw [chunks_cons positive some]
  exact List.cons_ne_nil _ _

/-- Filled up, the pieces hold the list and what fills up the last one. -/
theorem flatMap_chunks_filled (fill : α) (list : List α) :
    ∃ count, count < size ∧ ((chunks size list).flatMap fun chunk =>
        chunk ++ List.replicate (size - chunk.length) fill) =
      list ++ List.replicate count fill := by
  induction list using chunks_induction positive with
  | nil => exact ⟨0, positive, rfl⟩
  | piece list some inductionHypothesis =>
      rw [chunks_cons positive some, List.flatMap_cons, List.length_take]
      by_cases whole : size ≤ list.length
      · obtain ⟨count, few, filled⟩ := inductionHypothesis
        refine ⟨count, few, ?_⟩
        rw [filled, Nat.min_eq_left whole, Nat.sub_self, List.replicate_zero,
          List.append_nil, ← List.append_assoc, List.take_append_drop]
      · have length := List.length_pos_iff.mpr some
        refine ⟨size - list.length, by omega, ?_⟩
        rw [Nat.min_eq_right (by omega), List.take_of_length_le (by omega),
          List.drop_of_length_le (by omega),
          show chunks size ([] : List α) = [] from rfl, List.flatMap_nil,
          List.append_nil]

end Chunks

end LedgerOne
