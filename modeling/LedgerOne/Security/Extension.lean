import LedgerOne.Decoder.JoinedEnds
import LedgerOne.Decoder.JoinedReader
import LedgerOne.Firmware.Ui
import LedgerOne.Lib.Ensures

/-!
# Accepted messages and their extensions

The last field of a message is taken as far as it is there.  A message whose
last field is cut off is accepted, and decodes differently once one more byte
arrives; all other accepted messages decode the same whatever follows them.
The content is read in one piece of memory, so that this also covers fields
that run over into others.
-/

namespace LedgerOne

open Rlp Layout

/-- A call of a parser returns 0 and leaves a content. -/
def Decodes (outcome : Except Fault (Int × TxContext))
    (content : TxContent) : Prop :=
  ∃ left, outcome = .ok (0, left) ∧ left.content = content

/-- A byte string stays inside the command context, of which alone something is
known, and if it is accepted with some content it is so under every suffix that
the receive buffer has room for. -/
structure StableUnderExtension
    (parse : Region 1024 -> List UInt8 -> Except Fault (Int × TxContext))
    (buf : Region 1024) (bytes : List UInt8) : Prop where
  inside : parse buf bytes ≠ .error .fieldOverrun
  keeps : ∀ content, Decodes (parse buf bytes) content ->
    ∀ extended suffix, Received extended (bytes ++ suffix) ->
      Decodes (parse extended (bytes ++ suffix)) content

/-- `processTx` on a fresh context over the received bytes. -/
def runTransfer (build : Build) (buf : Region 1024) (bytes : List UInt8) :
    Except Fault (Int × TxContext) :=
  processTxIn build.stringsSize buf (transferStart bytes.length)

/-- `processStaking` on a fresh context over the received bytes. -/
def runStaking (build : Build) (buf : Region 1024) (bytes : List UInt8) :
    Except Fault (Int × TxContext) :=
  processStakingIn build.stringsSize buf (stakingStart bytes.length)

/-! ## Parsers that follow a layout -/

section Parsers

variable {τ β : Type} {layout : Layout τ β} {shows : β -> Option TxContent}

/-- The content of a message stays under all suffixes of some length. -/
def KeepsContent (shows : β -> Option TxContent) (last : LastField τ β)
    (content : TxContent) (more : Nat) : Prop :=
  ∀ suffix : List UInt8, suffix.length ≤ more ->
    exceeds last.capacity (last.append suffix).taken.length = false ∧
      shows (last.value last.length (last.append suffix).taken) = some content

/-- A last field to which nothing is added keeps the content. -/
theorem keepsContent_of_settled {last : LastField τ β} {content : TxContent}
    {more : Nat} (settled : last.length ≤ last.bytes.length ∨ more = 0)
    (fits : exceeds last.capacity last.taken.length = false)
    (shown : shows (last.value last.length last.taken) = some content) :
    KeepsContent shows last content more := by
  intro suffix arrives
  have same : (last.append suffix).taken = last.taken := by
    obtain whole | rfl := settled
    · exact List.take_append_of_le_length whole
    · rw [List.length_eq_zero_iff.mp (Nat.le_zero.mp arrives),
        LastField.append, List.append_nil]
  rw [same]
  exact ⟨fits, shown⟩

/-- The last field of a message that stays inside stays inside. -/
theorem fits_of_last? {bytes : List UInt8} {last : LastField τ β}
    (inside : layout.verdict bytes ≠ .overrun)
    (comes : layout.last? bytes = some last) :
    exceeds last.capacity last.taken.length = false := by
  rw [← Bool.not_eq_true]
  intro tooLong
  rw [verdict_of_last? comes, LastField.verdict, if_pos tooLong] at inside
  exact inside rfl

/-- A parser that follows a layout is stable under extension when its message
stays inside and its last field, where it is cut off and more bytes can arrive,
keeps the content. -/
theorem stable_iff_keepsContent
    {parse : Region 1024 -> List UInt8 -> Except Fault (Int × TxContext)}
    (accepts : ∀ {buf bytes}, Received buf bytes -> ∀ content,
      Decodes (parse buf bytes) content ↔
        ∃ value complete, layout.verdict bytes = .accepted value complete ∧
          shows value = some content)
    (leaves : ∀ {buf bytes}, Received buf bytes ->
      (parse buf bytes = .error .fieldOverrun ↔
        layout.verdict bytes = .overrun))
    {buf : Region 1024} {bytes : List UInt8}
    (received : Received buf bytes) :
    StableUnderExtension parse buf bytes ↔
      layout.verdict bytes ≠ .overrun ∧
        ∀ last content, layout.last? bytes = some last ->
          last.bytes.length < last.length -> bytes.length < 1024 ->
          shows (last.value last.length last.bytes) = some content ->
          KeepsContent shows last content (1024 - bytes.length) := by
  have cutOff_taken {last : LastField τ β}
      (cutOff : last.bytes.length < last.length) : last.taken = last.bytes :=
    List.take_of_length_le (Nat.le_of_lt cutOff)
  constructor
  · rintro ⟨inside, keeps⟩
    refine ⟨fun overrun => inside ((leaves received).mpr overrun), ?_⟩
    intro last content comes cutOff room shown suffix arrives
    rw [← cutOff_taken cutOff] at shown
    have fits := fits_of_last? (fun overrun =>
      inside ((leaves received).mpr overrun)) comes
    have verdict := verdict_of_last? comes
    rw [LastField.verdict, if_neg (by simp [fits])] at verdict
    have longer : Received (Region.ofList (bytes ++ suffix))
        (bytes ++ suffix) := received_ofList (by
      have := received.fits
      rw [List.length_append]
      omega)
    obtain ⟨value, complete, accepted, same⟩ := (accepts longer content).mp
      (keeps content ((accepts received content).mpr ⟨_, _, verdict, shown⟩)
        _ _ longer)
    rw [verdict_of_last? (last?_append comes suffix), LastField.verdict]
      at accepted
    split_ifs at accepted with tooLong
    injection accepted with equal
    subst equal
    exact ⟨Bool.eq_false_iff.mpr tooLong, same⟩
  · rintro ⟨inside, keeps⟩
    refine ⟨fun overrun => inside ((leaves received).mp overrun), ?_⟩
    intro content decodes extended suffix longer
    obtain ⟨value, complete, accepted, shown⟩ :=
      (accepts received content).mp decodes
    obtain ⟨last, comes⟩ := exists_last?_of_accepted accepted
    have inside := fits_of_last? inside comes
    rw [verdict_of_last? comes, LastField.verdict] at accepted
    split_ifs at accepted
    injection accepted with equal
    subst equal
    have arrives := longer.fits
    rw [List.length_append] at arrives
    have kept : KeepsContent shows last content (1024 - bytes.length) := by
      by_cases settled : last.length ≤ last.bytes.length ∨
          1024 - bytes.length = 0
      · exact keepsContent_of_settled settled inside shown
      · rw [cutOff_taken (by omega)] at shown
        exact keeps last content comes (by omega) (by omega) shown
    obtain ⟨fits, same⟩ := kept suffix (by omega)
    have verdict := verdict_of_last? (last?_append comes suffix)
    rw [LastField.verdict, if_neg (by
      rw [Bool.not_eq_true]
      exact fits)] at verdict
    exact (accepts longer content).mpr ⟨_, _, verdict, same⟩

/-- What keeps the content of a last field that is cut off. -/
theorem keepsContent_iff_hidesRest {last : LastField τ β}
    {content : TxContent} {behind address : Nat}
    {value : List UInt8 -> TxContent}
    (stored : last.capacity = room behind address)
    (shown : ∀ bytes, shows (last.value last.length bytes) = some content ↔
      value bytes = content)
    (here : value last.bytes = content) (more : Nat) :
    KeepsContent shows last content more ↔
      HidesRest behind address last.length last.bytes value more := by
  unfold KeepsContent HidesRest
  simp only [shown, stored, here]
  rfl

end Parsers

/-! ## Transfers -/

/-- A transfer of which nothing that can still arrive is kept. -/
structure TransferSettled (build : Build) (bytes : List UInt8) : Prop where
  inside : joinedTransferVerdict build.stringsSize bytes ≠ .overrun
  ends : ∀ last,
    (JoinedTransfer.message build.stringsSize .zero).last? bytes =
      some last ->
    last.bytes.length < last.length -> bytes.length < 1024 ->
    AmountHidden build.stringsSize (1024 - bytes.length) last.length
      last.bytes.length (last.value last.length last.bytes)

section Transfer

variable {build : Build} {buf : Region 1024} {bytes : List UInt8}

theorem runTransfer_decodes_iff (received : Received buf bytes)
    (content : TxContent) :
    Decodes (runTransfer build buf bytes) content ↔
      ∃ value complete,
        (JoinedTransfer.message build.stringsSize .zero).verdict bytes =
          .accepted value complete ∧ some value = some content := by
  rw [Decodes, runTransfer, processTxIn_accepts_iff received]
  constructor
  · rintro ⟨complete, accepted⟩
    exact ⟨content, complete, accepted, rfl⟩
  · rintro ⟨value, complete, accepted, ⟨⟩⟩
    exact ⟨complete, accepted⟩

theorem transfer_stable_iff (received : Received buf bytes) :
    StableUnderExtension (runTransfer build) buf bytes ↔
      TransferSettled build bytes := by
  rw [stable_iff_keepsContent runTransfer_decodes_iff processTxIn_leaves_iff
    received]
  have hides {last : LastField RlpTxField TxContent}
      (comes : (JoinedTransfer.message build.stringsSize .zero).last? bytes =
        some last)
      (cutOff : last.bytes.length < last.length)
      (room : bytes.length < 1024) :
      KeepsContent some last (last.value last.length last.bytes)
          (1024 - bytes.length) ↔
        AmountHidden build.stringsSize (1024 - bytes.length) last.length
          last.bytes.length (last.value last.length last.bytes) := by
    have way := way_of_last? (JoinedTransfer.message_endsIn _ _) comes
    obtain ⟨tag, capacity, value, length, present⟩ := last
    obtain ⟨content⟩ := way
    rw [← amountHidden_iff cutOff (by omega)]
    exact keepsContent_iff_hidesRest rfl (fun _ => Option.some_inj) rfl _
  constructor
  · rintro ⟨inside, keeps⟩
    refine ⟨inside, fun last comes cutOff room => ?_⟩
    exact (hides comes cutOff room).mp (keeps last _ comes cutOff room rfl)
  · rintro ⟨inside, ends⟩
    refine ⟨inside, fun last content comes cutOff room shown => ?_⟩
    obtain rfl := Option.some.inj shown
    exact (hides comes cutOff room).mpr (ends last comes cutOff room)

end Transfer

/-! ## Staking operations -/

/-- What has to hold of the last field of a staking operation that is cut
off. -/
def StakingHidden (behind more : Nat) (last : LastField RlpStakingField
    (Option TxContent)) (content : TxContent) : Prop :=
  match last.tag with
  | .delegatoraddr =>
      AddressHidden behind more last.length last.bytes.length
  | .amount =>
      AmountHidden behind more last.length last.bytes.length content
  | _ => False

/-- A staking operation of which nothing that can still arrive is kept. -/
structure StakingSettled (build : Build) (bytes : List UInt8) : Prop where
  inside : joinedStakingVerdict build.stringsSize bytes ≠ .overrun
  ends : ∀ last content,
    (JoinedStaking.message build.stringsSize).last? bytes = some last ->
    last.bytes.length < last.length -> bytes.length < 1024 ->
    last.value last.length last.bytes = some content ->
    StakingHidden build.stringsSize (1024 - bytes.length) last content

section Staking

variable {build : Build} {buf : Region 1024} {bytes : List UInt8}

theorem runStaking_decodes_iff (received : Received buf bytes)
    (content : TxContent) :
    Decodes (runStaking build buf bytes) content ↔
      ∃ value complete,
        (JoinedStaking.message build.stringsSize).verdict bytes =
          .accepted value complete ∧ value = some content := by
  rw [Decodes, runStaking, processStakingIn_accepts_iff received]
  constructor
  · rintro ⟨complete, accepted⟩
    exact ⟨_, complete, accepted, rfl⟩
  · rintro ⟨value, complete, accepted, rfl⟩
    exact ⟨complete, accepted⟩

/-- Which last fields keep the content of a staking operation. -/
theorem keepsContent_iff_stakingHidden {behind more : Nat}
    {last : LastField RlpStakingField (Option TxContent)}
    {content : TxContent}
    (way : StakingEnds behind last.tag last.capacity last.value)
    (cutOff : last.bytes.length < last.length) (room : 0 < more)
    (shown : last.value last.length last.bytes = some content) :
    KeepsContent id last content more ↔
      StakingHidden behind more last content := by
  obtain ⟨tag, capacity, value, length, present⟩ := last
  cases way with
  | delegator before =>
      obtain rfl := Option.some.inj shown
      rw [StakingHidden, ← addressHidden_iff cutOff room]
      refine keepsContent_iff_hidesRest ?_ (fun _ => ?_) ?_ more
      · rfl
      · exact Option.some_inj
      · rfl
  | amount before =>
      dsimp only at shown cutOff
      split at shown
      · next ends =>
        obtain rfl := Option.some.inj shown
        rw [StakingHidden, ← amountHidden_iff cutOff room]
        refine keepsContent_iff_hidesRest (by rfl) (fun bytes => ?_) (by rfl) _
        dsimp only [id]
        constructor
        · intro same
          split at same
          · exact Option.some.inj same
          · cases same
        · intro same
          rw [same, if_pos ends]
      · cases shown
  | status before =>
      obtain rfl := Option.some.inj shown
      have never : ¬HidesRest behind 264 length present
          (fun bytes => Staking.showStatus
            (Slot.fromShard.pokeShard length bytes before)) more :=
        not_hidesRest_status cutOff room
      refine iff_of_false (fun keeps => never ?_) id
      refine (keepsContent_iff_hidesRest ?_ (fun _ => ?_) ?_ more).mp keeps
      · rfl
      · exact Option.some_inj
      · rfl

theorem staking_stable_iff (received : Received buf bytes) :
    StableUnderExtension (runStaking build) buf bytes ↔
      StakingSettled build bytes := by
  rw [stable_iff_keepsContent (fun received content =>
    runStaking_decodes_iff received content) processStakingIn_leaves_iff
    received]
  have hides {last : LastField RlpStakingField (Option TxContent)}
      (comes : (JoinedStaking.message build.stringsSize).last? bytes =
        some last) :=
    way_of_last? (JoinedStaking.message_endsIn _) comes
  constructor
  · rintro ⟨inside, keeps⟩
    refine ⟨inside, fun last content comes cutOff room shown => ?_⟩
    exact (keepsContent_iff_stakingHidden (hides comes) cutOff (by omega)
      shown).mp (keeps last content comes cutOff room shown)
  · rintro ⟨inside, ends⟩
    refine ⟨inside, fun last content comes cutOff room shown => ?_⟩
    exact (keepsContent_iff_stakingHidden (hides comes) cutOff (by omega)
      shown).mpr (ends last content comes cutOff room shown)

end Staking

/-- Two calls that are seen to return 0 with different contents. -/
private theorem not_stable_of_views
    {parse : Region 1024 -> List UInt8 -> Except Fault (Int × TxContext)}
    {bytes : List UInt8} {byte : UInt8} {view : TxContent -> List UInt8}
    {before after : List UInt8} (fits : (bytes ++ [byte]).length ≤ 1024)
    (sees : (parse (Region.ofList bytes) bytes).toOption.map (fun result =>
      (result.1, view result.2.content)) = some (0, before))
    (later : (parse (Region.ofList (bytes ++ [byte]))
      (bytes ++ [byte])).toOption.map (fun result =>
        (result.1, view result.2.content)) = some (0, after))
    (differ : before ≠ after) :
    ¬StableUnderExtension parse (Region.ofList bytes) bytes := by
  intro stable
  obtain ⟨⟨code, left⟩, returns, seen⟩ := exists_of_view _ sees
  obtain ⟨rfl, rfl⟩ := Prod.mk.inj seen
  obtain ⟨other, same, content⟩ := stable.keeps left.content
    ⟨left, returns, rfl⟩ _ _ (received_ofList fits)
  rw [same] at later
  obtain ⟨-, view⟩ := Prod.mk.inj (Option.some.inj later)
  rw [content] at view
  exact differ view

/-- A transfer that announces an amount of two bytes and ends after one. -/
def cutOffAmount : List UInt8 :=
  [0xc9, 0x80, 0x80, 0x80, 0x80, 0x80, 0x80, 0x82, 0x05]

/-- A transfer that announces an amount of forty bytes and ends after 33, the
last of which lies on the length of the amount. -/
def longAmount : List UInt8 :=
  [0xc9, 0x80, 0x80, 0x80, 0x80, 0x80, 0x80, 0xa8] ++ List.replicate 33 0x11

/-- A claim of rewards that ends after one byte of its delegator. -/
def cutOffDelegator : List UInt8 := [0xd7, 0x04, 0xd5, 0x94, 0x11]

/-- A claim of rewards that is there in full. -/
def wholeDelegator : List UInt8 :=
  [0xd7, 0x04, 0xd5, 0x94] ++ List.replicate 20 0x11

end LedgerOne
