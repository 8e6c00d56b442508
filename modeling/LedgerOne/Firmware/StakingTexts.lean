import LedgerOne.Firmware.Parts

/-!
# The texts of a staking operation

The arrays of the staking context and the texts that a review puts into them,
as functions of the decoded content.
-/

namespace LedgerOne

/-! ## The arrays -/

namespace StakingArray

def fullStr : Place := ⟨SignStaking.fullStr, 132⟩
def delegatorAddr : Place := ⟨SignStaking.delegatorAddr, 48⟩
def validatorAddr : Place := ⟨SignStaking.validatorAddr, 48⟩
def commissionRateStr : Place := ⟨SignStaking.commissionRateStr, 132⟩
def delegationStr : Place := ⟨SignStaking.delegationStr, 132⟩
def amountStr : Place := ⟨SignStaking.amountStr, 128⟩
def nameStr : Place := ⟨SignStaking.nameStr, 30⟩
def statusStr : Place := ⟨SignStaking.statusStr, 30⟩
def fullStrLength (build : Build) : Place := ⟨SignStaking.fullStrLength build, 4⟩
def partialStr (build : Build) : Place := ⟨SignStaking.partialStr build, 18⟩

end StakingArray

/-! ## The texts -/

/-- The name, up to its NUL. -/
def nameText (content : TxContent) : List UInt8 :=
  content.name.toList.takeWhile fun byte => byte ≠ 0

theorem length_nameText (content : TxContent) :
    (nameText content).length ≤ 30 := by
  have short := (List.takeWhile_prefix (fun byte : UInt8 => decide (byte ≠ 0))
    (l := content.name.toList)).length_le
  rwa [Region.length_toList] at short

theorem length_directiveText {directive : Nat} {title : List UInt8}
    (titled : directiveText directive = some title) : title.length ≤ 17 := by
  unfold directiveText at titled
  split_ifs at titled <;> cases titled <;> decide

/-- The parts of the commission rates. -/
def commissionParts (content : TxContent) : List Part :=
  if content.directive = DirectiveCreateValidator then
    [.text (ascii "rate:"), .rate content.rate, .text (ascii ",max:"),
      .rate content.maxRate, .text (ascii ",change:"),
      .rate content.maxChangeRate]
  else [.text (ascii "rate:"), .rate content.rate]

theorem room_commissionParts (content : TxContent) :
    ∀ part ∈ commissionParts content, part.room = part.shown.length := by
  unfold commissionParts
  split
  · simp [Part.room]
  · simp [Part.room]

/-- The parts of the limits of a delegation. -/
def limitParts (content : TxContent) : List Part :=
  [.text (ascii "min:"), .amount content.minSelfDelegation,
    .text (ascii ",max:"), .amount content.maxTotalDelegation]

/-- The parts of the delegation text of the Nano S, which starts with the
amount of a new validator. -/
def delegationParts (content : TxContent) : List Part :=
  if content.directive = DirectiveCreateValidator then
    [.text (ascii "amount:"), .amount content.value, .text (ascii ",min:"),
      .amount content.minSelfDelegation, .text (ascii ",max:"),
      .amount content.maxTotalDelegation]
  else limitParts content

/-! ## What the source composes -/

section Composing

variable (content : TxContent)

theorem composeCommission_eq (start : Nat) (display : Display build) :
    composeCommission start content display =
      composeParts start (commissionParts content) (display, some 0) := by
  unfold composeCommission commissionParts composeParts
  split_ifs
  · simp [Part.append]
  · simp [Part.append]

theorem composeDelegation_eq (display : Display .nanoS) :
    composeDelegation content display =
      composeParts SignStaking.fullStr (delegationParts content)
        (display, some 0) := by
  unfold composeDelegation composeOwnAmount delegationParts limitParts
    composeParts
  split_ifs
  · simp [Part.append]
  · simp [Part.append]

/-- The first byte of some kind, in a list with a stop behind it. -/
theorem findIdx?_append_stop {α : Type} (stops : α -> Bool)
    (front back : List α)
    (found : front.any stops ∨ back.head?.any stops) :
    (front ++ back).findIdx? stops =
      some (front.takeWhile fun value => !stops value).length := by
  induction front with
  | nil =>
      cases back with
      | nil => simp at found
      | cons first rest =>
          have stop : stops first = true := by simpa using found
          simp [List.findIdx?_cons, stop]
  | cons value rest inductionHypothesis =>
      rw [List.cons_append, List.findIdx?_cons]
      by_cases stop : stops value = true
      · simp [stop]
      · have later := inductionHypothesis (by simpa [stop] using found)
        simp [stop, later]

/-- The name that `strlen` sees ends at the NUL, in the array or right behind
it. -/
theorem nameLength_eq {display : Display build}
    (ends : 0 ∈ content.name.toList ∨
      display.strings.get SignStaking.hash = 0) :
    nameLength content display = .ok (nameText content).length := by
  have first : display.strings.toList.head? =
      some (display.strings.get SignStaking.hash) :=
    display.strings.head?_toList (by cases build <;> decide)
  have found := findIdx?_append_stop (fun byte : UInt8 => decide (byte = 0))
    content.name.toList display.strings.toList (by
      rw [first]
      simpa using ends)
  unfold nameLength
  rw [found]
  simp [nameText]

/-- What is copied of the name. -/
theorem take_nameText (display : Display build) :
    (content.name.toList ++ display.strings.toList).take
      (nameText content).length = nameText content := by
  have start : nameText content <+: content.name.toList :=
    List.takeWhile_prefix _
  rw [List.take_append_of_le_length start.length_le]
  exact (List.prefix_iff_eq_take.mp start).symm

theorem ne_zero_of_mem_nameText : (0 : UInt8) ∉ nameText content := by
  intro member
  simpa using List.mem_takeWhile_imp member

end Composing

end LedgerOne
