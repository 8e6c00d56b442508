import LedgerOne.Lib.Loop
import LedgerOne.Texts.Wide

/-!
# The long division in memory

`divmod256` as the source has it: a loop that goes round as long as its guard
holds, between numbers that are read from objects and results that are written
to objects, which may be the same ones.
-/

namespace LedgerOne

/-! ## The loop -/

/-- The loop of `divmod256`, by its guard. -/
def divmodBody (r : Uint256) : Body Empty Division Division := fun state =>
  if gte256 state.resMod r then .ok (.again state.taken.moved)
  else .ok (.exit state)

/-- The variables of `divmod256` before the loop. -/
def Division.start (l r : Uint256) : Division :=
  let diffBits := (bits256 l + 2 ^ 32 - bits256 r) % 2 ^ 32
  let copyd := shiftl256 r diffBits
  let adder := shiftl256 (.ofUInt64 1) diffBits
  if gt256 copyd l then ⟨shiftr256 copyd 1, shiftr256 adder 1, clear256, l⟩
  else ⟨copyd, adder, clear256, l⟩

theorem divmod256_of_gt {l r : Uint256} (small : gt256 r l = true) :
    divmod256 l r = (clear256, l) := by
  unfold divmod256
  dsimp only
  rw [if_pos small]

theorem divmod256_of_not_gt {l r : Uint256} {ended : Division}
    (larger : ¬gt256 r l = true)
    (ends : divmodLoop r 256 (.start l r) = ended) :
    divmod256 l r = (ended.resDiv, ended.resMod) := by
  rw [← ends]
  unfold divmod256 Division.start
  dsimp only
  rw [if_neg larger]

/-- A loop that has left its guard behind is where the bounded one ends. -/
theorem run_divmodBody {r : Uint256} {rounds : Nat} {state : Division}
    (left : (divmodLoop r rounds state).resMod.toNat < r.toNat) :
    (divmodBody r).run (rounds + 1) state =
      some (.ok (divmodLoop r rounds state)) := by
  induction rounds generalizing state with
  | zero =>
      have small : ¬gte256 state.resMod r = true :=
        mt (gte256_iff _ _).mp (not_le.mpr left)
      unfold Body.run divmodBody
      rw [if_neg small]
      rfl
  | succ rounds inductionHypothesis =>
      rw [divmodLoop_succ] at left ⊢
      unfold Body.run
      by_cases goes : gte256 state.resMod r = true
      · rw [if_pos goes] at left ⊢
        rw [divmodBody, if_pos goes]
        exact inductionHypothesis left
      · rw [if_neg goes, divmodBody, if_neg goes]

/-- The loop leaves by its guard, in one of 256 rounds. -/
theorem divmodLoop_left {l r : Uint256} {ended : Division}
    (positive : 0 < r.toNat) (larger : ¬gt256 r l = true)
    (ends : divmodLoop r 256 (.start l r) = ended) :
    ended.resMod.toNat < r.toNat := by
  have remainder := (divmod256_spec l positive).2
  rw [divmod256_of_not_gt larger ends] at remainder
  rw [remainder]
  exact Nat.mod_lt _ positive

/-! ## The objects -/

section Objects

variable {Object : Type} [DecidableEq Object]

/-- `divmod256` on numbers in memory, with a bound on the rounds of its
loop. -/
def divmod256In (rounds : Nat) (memory : Object -> Uint256)
    (l r retDiv retMod : Object) : Option (Object -> Uint256) :=
  if gt256 (memory r) (memory l) then
    let copied := Function.update memory retMod (memory l)
    some (Function.update copied retDiv clear256)
  else
    match (divmodBody (memory r)).run rounds
        (.start (memory l) (memory r)) with
    | none => none
    | some (.error fault) => nomatch fault
    | some (.ok ended) =>
        let divided := Function.update memory retDiv ended.resDiv
        some (Function.update divided retMod ended.resMod)

variable {rounds : Nat} {memory : Object -> Uint256}
  {l r retDiv retMod : Object}

/-- What the division leaves in memory. -/
theorem divmod256In_eq (enough : 256 < rounds) (apart : retDiv ≠ retMod)
    (nonzero : (memory r).toNat ≠ 0) :
    divmod256In rounds memory l r retDiv retMod =
      some (Function.update
        (Function.update memory retDiv (divmod256 (memory l) (memory r)).1)
        retMod (divmod256 (memory l) (memory r)).2) := by
  by_cases small : gt256 (memory r) (memory l) = true
  · rw [divmod256In, if_pos small, divmod256_of_gt small]
    exact congrArg some (Function.update_comm apart.symm _ _ _)
  · obtain ⟨ended, ends⟩ : ∃ ended,
        divmodLoop (memory r) 256 (.start (memory l) (memory r)) = ended :=
      ⟨_, rfl⟩
    have left := divmodLoop_left (Nat.pos_of_ne_zero nonzero) small ends
    have run := run_divmodBody (ends ▸ left)
    rw [ends] at run
    rw [divmod256In, if_neg small, divmod256_of_not_gt small ends,
      Body.run_mono run (by omega)]

/-- The division is the one of the natural numbers: it ends, with the quotient
and the remainder of the numbers that were in memory, whichever objects the
results are written to, and writes nothing else. -/
theorem divmod256_divides (enough : 256 < rounds) (apart : retDiv ≠ retMod)
    (nonzero : (memory r).toNat ≠ 0) :
    ∃ after, divmod256In rounds memory l r retDiv retMod = some after ∧
      (after retDiv).toNat * (memory r).toNat + (after retMod).toNat =
        (memory l).toNat ∧
      (after retMod).toNat < (memory r).toNat ∧
      ∀ object, object ≠ retDiv -> object ≠ retMod ->
        after object = memory object := by
  have positive := Nat.pos_of_ne_zero nonzero
  obtain ⟨quotient, remainder⟩ := divmod256_spec (memory l) positive
  refine ⟨_, divmod256In_eq enough apart nonzero, ?_, ?_, ?_⟩
  · rw [Function.update_self, Function.update_of_ne apart,
      Function.update_self, quotient, remainder]
    exact Nat.div_add_mod' _ _
  · rw [Function.update_self, remainder]
    exact Nat.mod_lt _ positive
  · intro object notDiv notMod
    rw [Function.update_of_ne notMod, Function.update_of_ne notDiv]

end Objects

/-- The last digit of 1234, with the quotient in the place of the number. -/
theorem divmod256_divides_inPlace :
    let memory : Fin 3 -> Uint256 :=
      ![.ofUInt64 1234, .ofUInt64 10, clear256]
    ∃ after, divmod256In 257 memory 0 1 0 2 = some after ∧
      (after 0).toNat * (memory 1).toNat + (after 2).toNat =
        (memory 0).toNat ∧
      (after 2).toNat < (memory 1).toNat ∧
      ∀ object, object ≠ 0 -> object ≠ 2 -> after object = memory object :=
  divmod256_divides (by decide) (by decide) (by decide)

end LedgerOne
