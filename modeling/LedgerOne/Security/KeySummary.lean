import LedgerOne.Decoder.JoinedKeys
import LedgerOne.Firmware.Parts
import LedgerOne.Firmware.Ui
import LedgerOne.Messages.Staking

/-!
# The summaries of the BLS keys

What the review shows of the BLS keys of a changed validator.  A key that is
absent leaves the buffer for the keys as it is, so that its part of the summary
shows what was left there: the key to remove, or what earlier fields have
written past their arrays.  The status comes last, and a long one is written
over the summary.
-/

namespace LedgerOne

open Rlp

variable {build : Build}

/-- A staking message on which `processStaking` returns 0. -/
structure AcceptedStaking (build : Build) where
  buf : Region 1024
  bytes : List UInt8
  left : TxContext
  received : Received buf bytes
  returns : processStakingIn build.stringsSize buf
    (stakingStart bytes.length) = .ok (0, left)

namespace AcceptedStaking

variable (message : AcceptedStaking build)

/-- The fields it visits. -/
def visits : List (Visit RlpStakingField) :=
  stakingVisitsIn build.stringsSize message.buf
    (stakingStart message.bytes.length)

theorem path : (JoinedStaking.course build.stringsSize).Path
    ⟨.zero, 0, .content⟩ message.visits (some message.left.content) :=
  path_of_processStakingIn message.received message.returns

end AcceptedStaking

/-! ## Changed validators -/

/-- A slot key is absent or whole. -/
def SlotKey (key : List UInt8) : Prop := key = [] ∨ key.length = 48

/-- A change of a validator that is accepted: its slot keys and its status are
read. -/
structure AcceptedEdit (build : Build) extends AcceptedStaking build where
  removed : List UInt8
  added : List UInt8
  status : List UInt8
  payloads_removed :
    payloads .slotkeytoremove toAcceptedStaking.visits = [removed]
  payloads_added : payloads .slotkeytoadd toAcceptedStaking.visits = [added]
  payloads_status : payloads .editactive toAcceptedStaking.visits = [status]
  slotKey_removed : SlotKey removed
  slotKey_added : SlotKey added

/-- The part of a summary for a key to remove. -/
def removeText (start : List UInt8) : List UInt8 :=
  ascii "remove:" ++ keyText start

/-- The part of a summary for a key to add. -/
def addText (start : List UInt8) : List UInt8 :=
  ascii ",add:" ++ keyText start

namespace AcceptedEdit

variable (message : AcceptedEdit build)

/-- The part of the summary for the key to remove, `blsKeyStr[0..20)`. -/
def removePart : List UInt8 := message.left.content.blsKeyStr.read 0 20

/-- The part of the summary for the key to add, `blsKeyStr[20..38)`. -/
def addPart : List UInt8 := message.left.content.blsKeyStr.read 20 18

/-- The first five bytes that earlier fields leave in the buffer, from byte 316
of the content on. -/
def leftStart : List UInt8 :=
  (List.range 5).map fun index => leftAt (opening message.visits) (316 + index)

/-- The first five bytes of the key to remove; without one, what is left in the
buffer. -/
def removedStart : List UInt8 :=
  if message.removed = [] then message.leftStart else message.removed.take 5

/-- The first five bytes of the key to add; without one, what is left in the
buffer. -/
def addedStart : List UInt8 :=
  if message.added = [] then message.removedStart else message.added.take 5

end AcceptedEdit

/-! ## The two parts -/

section Parts

/-- A slot key is written over the buffer and nothing else. -/
theorem pokedCaption_eq {key : List UInt8} (slot : SlotKey key) (start : Nat)
    (caption : List UInt8) (content : TxContent) :
    pokedCaption start caption key content =
      captioned start caption key content := by
  unfold pokedCaption captioned
  obtain rfl | whole := slot
  · rw [TxContent.poke_nil, Slot.putBytes, Region.splice_nil,
      Slot.blsPubKey.set_get]
  · rw [poke_key whole]

/-- What is read back of a slot key. -/
theorem read_slotKey (buffer : Region 48) {key : List UInt8}
    (slot : SlotKey key) :
    (buffer.splice 0 key).read 0 5 =
      if key = [] then buffer.read 0 5 else key.take 5 := by
  obtain rfl | whole := slot
  · rw [if_pos rfl, Region.splice_nil]
  · have some : key ≠ [] := by
      rintro rfl
      cases whole
    rw [if_neg some, read_start _ (by omega) (by omega)]

/-- The status is written over the summary as far as it reaches. -/
theorem Changes.blsKeyStr_pokedContent (changes : Changes)
    (within : changes.statusBytes.length ≤ changes.statusLength)
    (content : TxContent) :
    (changes.pokedContent content).blsKeyStr =
      (pokedCaption 20 (ascii ",add:") changes.added
        (pokedCaption 0 (ascii "remove:") changes.removed
          content)).blsKeyStr.overlay 368 264 changes.statusBytes := by
  rw [Changes.pokedContent, Slot.pokeShard]
  split
  · next empty =>
    have none : changes.statusBytes = [] :=
      List.length_eq_zero_iff.mp (by omega)
    rw [none, Region.overlay_nil]
    rfl
  · rfl

/-- What the two parts of a summary are. -/
theorem AcceptedEdit.parts_eq (message : AcceptedEdit build) :
    message.removePart = covered 264 message.status 368
        (removeText message.removedStart) ∧
      message.addPart = covered 264 message.status 388
        (addText message.addedStart) := by
  obtain ⟨changes, content, untouched, within, value, removed, added, status⟩ :=
    exists_changes message.path (by
      rw [message.payloads_removed]
      exact List.cons_ne_nil _ _)
  rw [message.payloads_removed, List.singleton_inj] at removed
  rw [message.payloads_added, List.singleton_inj] at added
  rw [message.payloads_status, List.singleton_inj] at status
  have start : content.blsPubKey.read 0 5 = message.leftStart := by
    apply List.map_congr_left
    intro index member
    have inside := List.mem_range.mp member
    rw [Nat.zero_add, untouched.key index (by omega)]
  have summary := changes.blsKeyStr_pokedContent within content
  rw [← removed, ← added, ← status, pokedCaption_eq message.slotKey_added,
    pokedCaption_eq message.slotKey_removed] at summary
  obtain ⟨front, back⟩ :=
    blsKeyStr_summary message.removed message.added content
  rw [read_slotKey _ message.slotKey_removed, start] at front
  rw [read_slotKey _ message.slotKey_added,
    read_slotKey _ message.slotKey_removed, start] at back
  rw [AcceptedEdit.removePart, AcceptedEdit.addPart, value, summary]
  constructor
  · rw [Region.read_overlay _ (by decide), front]
    rfl
  · rw [Region.read_overlay _ (by decide), back]
    rfl

end Parts

/-- The text of a key tells its first five bytes. -/
theorem keyText_injective : Function.Injective keyText := by
  intro left right same
  exact hexText_injective (List.append_cancel_right same)

/-! ## Summaries that are separate -/

/-- The two parts of two summaries depend on their own key only, and the part
for a key to add shows this key. -/
structure SummariesSeparate (first second : AcceptedEdit build) : Prop where
  added : first.added = second.added -> first.addPart = second.addPart
  shown : ∀ message ∈ [first, second], message.added ≠ [] ->
    message.addPart = addText (message.added.take 5)
  removed : first.removed = second.removed ->
    first.removePart = second.removePart

/-- Where both leave a key out, they leave the same in the buffer for it. -/
structure AbsentAgree (first second : AcceptedEdit build) : Prop where
  added : first.added = [] -> second.added = [] ->
    first.removedStart = second.removedStart
  removed : first.removed = [] -> second.removed = [] ->
    first.leftStart = second.leftStart

/-- What the statuses leave of the parts, from byte 368 and byte 388 of the
content on, is the same where it has to be. -/
structure CoveredAgree (first second : AcceptedEdit build) : Prop where
  added : first.added = [] -> second.added = [] ->
    covered 264 first.status 388 (addText first.removedStart) =
      covered 264 second.status 388 (addText second.removedStart)
  shown : ∀ message ∈ [first, second], message.added ≠ [] ->
    covered 264 message.status 388 (addText (message.added.take 5)) =
      addText (message.added.take 5)
  removed : first.removed = second.removed ->
    covered 264 first.status 368 (removeText first.removedStart) =
      covered 264 second.status 368 (removeText second.removedStart)

/-- The status ends before the summary, which is 104 bytes behind its start. -/
def AcceptedEdit.Spares (message : AcceptedEdit build) : Prop :=
  message.status.length ≤ 104

instance (message : AcceptedEdit build) : Decidable message.Spares :=
  inferInstanceAs (Decidable (_ ≤ _))

section Agree

variable {first second : AcceptedEdit build}

theorem AcceptedEdit.addedStart_of_absent {message : AcceptedEdit build}
    (absent : message.added = []) :
    message.addedStart = message.removedStart :=
  if_pos absent

theorem AcceptedEdit.addedStart_of_present {message : AcceptedEdit build}
    (present : message.added ≠ []) :
    message.addedStart = message.added.take 5 :=
  if_neg present

theorem summariesSeparate_iff_coveredAgree :
    SummariesSeparate first second ↔ CoveredAgree first second := by
  have shows (message : AcceptedEdit build) (present : message.added ≠ []) :
      message.addPart =
        covered 264 message.status 388 (addText (message.added.take 5)) := by
    rw [message.parts_eq.2, AcceptedEdit.addedStart_of_present present]
  have lacks (message : AcceptedEdit build) (absent : message.added = []) :
      message.addPart =
        covered 264 message.status 388 (addText message.removedStart) := by
    rw [message.parts_eq.2, AcceptedEdit.addedStart_of_absent absent]
  constructor
  · intro separate
    refine ⟨fun firstNone secondNone => ?_, fun message member present => ?_,
      fun same => ?_⟩
    · rw [← lacks first firstNone, ← lacks second secondNone]
      exact separate.added (firstNone.trans secondNone.symm)
    · rw [← shows message present]
      exact separate.shown message member present
    · rw [← first.parts_eq.1, ← second.parts_eq.1]
      exact separate.removed same
  · intro agree
    refine ⟨fun same => ?_, fun message member present => ?_, fun same => ?_⟩
    · by_cases absent : first.added = []
      · rw [lacks first absent, lacks second (same ▸ absent)]
        exact agree.added absent (same ▸ absent)
      · have present : second.added ≠ [] := same ▸ absent
        rw [shows first absent, shows second present,
          agree.shown first (by simp) absent,
          agree.shown second (by simp) present, same]
    · rw [shows message present]
      exact agree.shown message member present
    · rw [first.parts_eq.1, second.parts_eq.1]
      exact agree.removed same

/-- Statuses that end before the summary leave both parts. -/
theorem coveredAgree_iff_absentAgree (firstSpares : first.Spares)
    (secondSpares : second.Spares) :
    CoveredAgree first second ↔ AbsentAgree first second := by
  have whole {message : AcceptedEdit build} (spares : message.Spares)
      {place : Nat} (behind : 368 ≤ place) (text : List UInt8) :
      covered 264 message.status place text = text :=
    covered_of_disjoint (by
      unfold AcceptedEdit.Spares at spares
      omega)
  constructor
  · intro agree
    refine ⟨fun firstNone secondNone => ?_, fun firstNone secondNone => ?_⟩
    · have same := agree.added firstNone secondNone
      rw [whole firstSpares (by decide), whole secondSpares (by decide)] at same
      exact keyText_injective (List.append_cancel_left same)
    · have same := agree.removed (firstNone.trans secondNone.symm)
      rw [whole firstSpares le_rfl, whole secondSpares le_rfl] at same
      have starts := keyText_injective (List.append_cancel_left same)
      rwa [AcceptedEdit.removedStart, if_pos firstNone,
        AcceptedEdit.removedStart, if_pos secondNone] at starts
  · intro agree
    refine ⟨fun firstNone secondNone => ?_, fun message member present => ?_,
      fun same => ?_⟩
    · rw [whole firstSpares (by decide), whole secondSpares (by decide),
        agree.added firstNone secondNone]
    · obtain rfl | last := List.mem_cons.mp member
      · exact whole firstSpares (by decide) _
      · obtain rfl := List.mem_singleton.mp last
        exact whole secondSpares (by decide) _
    · rw [whole firstSpares le_rfl, whole secondSpares le_rfl]
      unfold AcceptedEdit.removedStart
      by_cases absent : first.removed = []
      · rw [if_pos absent, if_pos (same ▸ absent),
          agree.removed absent (same ▸ absent)]
      · rw [if_neg absent, if_neg (same ▸ absent), same]

end Agree

/-- With statuses that end before the summary, the parts are separate except
where two messages leave out the same key and what is left in the buffer for it
differs.  With a longer one it depends on what the statuses leave of them. -/
theorem summariesSeparate_iff (first second : AcceptedEdit build) :
    SummariesSeparate first second ↔
      if first.Spares ∧ second.Spares then AbsentAgree first second
      else CoveredAgree first second := by
  rw [summariesSeparate_iff_coveredAgree]
  split
  · next spares => exact coveredAgree_iff_absentAgree spares.1 spares.2
  · exact Iff.rfl

/-- A change that removes a key, or none, and adds none. -/
def removeKey (key : Option (ByteString 48)) : StakingTransaction where
  message := .editValidator {
    validator := ⟨List.replicate 20 0x5b, length_validator⟩
    description := {
      name := ⟨ascii "Alice", length_alice_le⟩
      identity := []
      website := []
      securityContact := []
      details := [] }
    commissionRate := none
    minSelfDelegation := ⟨0, Int256.zero_lt⟩
    maxTotalDelegation := ⟨0, Int256.zero_lt⟩
    slotKeyToRemove := key
    slotKeyToAdd := none
    slotKeyToAddSig := none
    status := ⟨0, ShardId.zero_lt⟩ }
  trailing := []

/-- The same change without slot keys, for an address of five bytes more. -/
def longValidator : List UInt8 :=
  (Item.list [
    .number DirectiveEditValidator,
    .list [
      .string (List.replicate 20 0x5b ++ List.replicate 5 0x11),
      .list [.string (ascii "Alice"), .string [], .string [], .string [],
        .string []],
      .list [],
      .number 0,
      .number 0,
      .string [],
      .string [],
      .string [],
      .number 0]]).encode

/-- A change that is seen to be accepted. -/
theorem exists_acceptedEdit {bytes removed added status remove add : List UInt8}
    (fits : bytes.length ≤ 1024)
    (sees : (processStakingIn build.stringsSize (Region.ofList bytes)
      (stakingStart bytes.length)).toOption.map (fun result =>
        (result.1, result.2.content.blsKeyStr.read 0 20,
          result.2.content.blsKeyStr.read 20 18)) = some (0, remove, add))
    (takes : payloads .slotkeytoremove (stakingVisitsIn build.stringsSize
      (Region.ofList bytes) (stakingStart bytes.length)) = [removed])
    (adds : payloads .slotkeytoadd (stakingVisitsIn build.stringsSize
      (Region.ofList bytes) (stakingStart bytes.length)) = [added])
    (ends : payloads .editactive (stakingVisitsIn build.stringsSize
      (Region.ofList bytes) (stakingStart bytes.length)) = [status])
    (slotRemoved : SlotKey removed) (slotAdded : SlotKey added) :
    ∃ message : AcceptedEdit build, message.bytes = bytes ∧
      message.removed = removed ∧ message.added = added ∧
      message.removePart = remove ∧ message.addPart = add := by
  obtain ⟨⟨code, left⟩, returns, seen⟩ := exists_of_view _ sees
  obtain ⟨rfl, rest⟩ := Prod.mk.inj seen
  obtain ⟨front, back⟩ := Prod.mk.inj rest
  exact ⟨⟨⟨_, bytes, left, received_ofList fits, returns⟩, removed, added,
    status, takes, adds, ends, slotRemoved, slotAdded⟩, rfl, rfl, rfl, front,
    back⟩

/-- The key to remove is shown as the key to add, and what a long address has
left as both. -/
theorem not_summariesSeparate_oneKey :
    (∃ first second : AcceptedEdit .nanoS,
      first.bytes = (removeKey none).encode ∧
      second.bytes =
        (removeKey (some ⟨List.replicate 48 0xaa, rfl⟩)).encode ∧
      ¬SummariesSeparate first second) ∧
    ∃ first second : AcceptedEdit .nanoX,
      first.bytes = (removeKey none).encode ∧
      second.bytes = longValidator ∧
      first.removed = second.removed ∧
      first.removePart ≠ second.removePart ∧
      ¬SummariesSeparate first second := by
  constructor
  · obtain ⟨first, firstBytes, -, firstAdded, -, firstPart⟩ :=
      @exists_acceptedEdit .nanoS (removeKey none).encode [] [] []
        (ascii "remove:0000000000...") (ascii ",add:0000000000...")
        (by decide +kernel) (by decide +kernel) (by decide +kernel)
        (by decide +kernel) (by decide +kernel) (Or.inl rfl) (Or.inl rfl)
    obtain ⟨second, secondBytes, -, secondAdded, -, secondPart⟩ :=
      @exists_acceptedEdit .nanoS
        (removeKey (some ⟨List.replicate 48 0xaa, rfl⟩)).encode
        (List.replicate 48 0xaa) [] []
        (ascii "remove:aaaaaaaaaa...") (ascii ",add:aaaaaaaaaa...")
        (by decide +kernel) (by decide +kernel) (by decide +kernel)
        (by decide +kernel) (by decide +kernel) (Or.inr rfl) (Or.inl rfl)
    refine ⟨first, second, firstBytes, secondBytes, fun separate => ?_⟩
    have same := separate.added (firstAdded.trans secondAdded.symm)
    rw [firstPart, secondPart] at same
    exact absurd same (by decide)
  · obtain ⟨first, firstBytes, firstRemoved, -, firstPart, -⟩ :=
      @exists_acceptedEdit .nanoX (removeKey none).encode [] [] []
        (ascii "remove:0000000000...") (ascii ",add:0000000000...")
        (by decide +kernel) (by decide +kernel) (by decide +kernel)
        (by decide +kernel) (by decide +kernel) (Or.inl rfl) (Or.inl rfl)
    obtain ⟨second, secondBytes, secondRemoved, -, secondPart, -⟩ :=
      @exists_acceptedEdit .nanoX longValidator [] [] []
        (ascii "remove:1111111111...") (ascii ",add:1111111111...")
        (by decide +kernel) (by decide +kernel) (by decide +kernel)
        (by decide +kernel) (by decide +kernel) (Or.inl rfl) (Or.inl rfl)
    have differ : first.removePart ≠ second.removePart := by
      rw [firstPart, secondPart]
      decide
    have both := firstRemoved.trans secondRemoved.symm
    exact ⟨first, second, firstBytes, secondBytes, both, differ,
      fun separate => differ (separate.removed both)⟩

end LedgerOne
