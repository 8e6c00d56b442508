import LedgerOne.Lib.Widens
import LedgerOne.Decoder.Rounds
import LedgerOne.Decoder.JoinedTransfer
import LedgerOne.Decoder.JoinedReader

/-!
# The two views of the memory

A parser over components that are apart stops at the first byte past an array.
Until then it does what it does in one piece of memory, so that whatever it
returns it returns there as well.
-/

namespace LedgerOne

open Rlp

/-! ## Writes inside an array -/

/-- Inside of its array an integer is written where it lies. -/
def Slot.LiesAsInt (slot : Slot TxInt256) : Prop :=
  slot.address + 32 ≤ 528 ∧
    ∀ (bytes : List UInt8) (content : TxContent), bytes.length ≤ 32 ->
      content.poke slot.address bytes = slot.putValue bytes content

/-- Inside of an array its bytes are written where it lies. -/
def Slot.LiesAsBytes {size : Nat} (slot : Slot (Region size)) : Prop :=
  slot.address + size ≤ 528 ∧
    ∀ (bytes : List UInt8) (content : TxContent), bytes.length ≤ size ->
      content.poke slot.address bytes = slot.putBytes bytes content

/-- Four bytes at most of a shard are written where it lies. -/
def Slot.LiesAsShard (slot : Slot Nat) : Prop :=
  slot.address + 4 ≤ 528 ∧
    ∀ (bytes : List UInt8) (shard : Nat) (content : TxContent),
      bytes.length ≤ 4 ->
      slot.set shard (content.poke slot.address bytes) =
        slot.set shard content

/-- The integers of the content. -/
def intSlots : List (Slot TxInt256) :=
  [.gasprice, .startgas, .value, .rate, .maxRate, .maxChangeRate,
    .minSelfDelegation, .maxTotalDelegation]

theorem liesAsInt_of_mem {slot : Slot TxInt256} (member : slot ∈ intSlots) :
    slot.LiesAsInt := by
  simp only [intSlots, List.mem_cons, List.not_mem_nil, or_false] at member
  obtain rfl | rfl | rfl | rfl | rfl | rfl | rfl | rfl := member
  all_goals
    refine ⟨by decide, fun bytes content fits => ?_⟩
    simp (disch := omega) only [Slot.putValue, Slot.gasprice, Slot.startgas, Slot.value,
      Slot.rate, Slot.maxRate, Slot.maxChangeRate, Slot.minSelfDelegation,
      Slot.maxTotalDelegation, TxContent.poke, TxInt256.poke_of_disjoint,
      pokeUint32_of_disjoint, Region.overlay_of_disjoint, TxInt256.poke_self]

theorem overlay_self {size start : Nat} (region : Region size)
    (bytes : List UInt8) :
    region.overlay start start bytes = region.splice 0 bytes :=
  region.overlay_eq_splice start 0 bytes

theorem liesAsBytes_destination : Slot.destination.LiesAsBytes := by
  refine ⟨by decide, fun bytes content fits => ?_⟩
  simp (disch := omega) only [Slot.putBytes, Slot.destination, TxContent.poke,
    TxInt256.poke_of_disjoint, pokeUint32_of_disjoint,
    Region.overlay_of_disjoint, overlay_self]

theorem liesAsBytes_validatorAddress :
    Slot.validatorAddress.LiesAsBytes := by
  refine ⟨by decide, fun bytes content fits => ?_⟩
  simp (disch := omega) only [Slot.putBytes, Slot.validatorAddress, TxContent.poke,
    TxInt256.poke_of_disjoint, pokeUint32_of_disjoint,
    Region.overlay_of_disjoint, overlay_self]

theorem liesAsBytes_blsPubKey : Slot.blsPubKey.LiesAsBytes := by
  refine ⟨by decide, fun bytes content fits => ?_⟩
  simp (disch := omega) only [Slot.putBytes, Slot.blsPubKey, TxContent.poke,
    TxInt256.poke_of_disjoint, pokeUint32_of_disjoint,
    Region.overlay_of_disjoint, overlay_self]

theorem liesAsBytes_name : Slot.name.LiesAsBytes := by
  refine ⟨by decide, fun bytes content fits => ?_⟩
  simp (disch := omega) only [Slot.putBytes, Slot.name, TxContent.poke,
    TxInt256.poke_of_disjoint, pokeUint32_of_disjoint,
    Region.overlay_of_disjoint, overlay_self]

theorem liesAsShard_fromShard : Slot.fromShard.LiesAsShard := by
  refine ⟨by decide, fun bytes shard content fits => ?_⟩
  simp (disch := omega) only [Slot.fromShard, TxContent.poke,
    TxInt256.poke_of_disjoint, pokeUint32_of_disjoint,
    Region.overlay_of_disjoint]

theorem liesAsShard_toShard : Slot.toShard.LiesAsShard := by
  refine ⟨by decide, fun bytes shard content fits => ?_⟩
  simp (disch := omega) only [Slot.toShard, TxContent.poke,
    TxInt256.poke_of_disjoint, pokeUint32_of_disjoint,
    Region.overlay_of_disjoint]

/-! ## Stores -/

/-- A store does what another one does, if that one takes the bytes. -/
def StoreWidens (narrow wide : Store) (content : TxContent) : Prop :=
  ∀ bytes, narrow bytes content = none ∨
    wide bytes content = narrow bytes content

section Stores

variable {behind : Nat} {content : TxContent}

private theorem poke?_of_within {address size : Nat} {bytes : List UInt8}
    (here : address + size ≤ 528) (fits : bytes.length ≤ size) :
    content.poke? behind address bytes = some (content.poke address bytes) :=
  if_pos (by omega)

theorem widens_storeInt256 {slot : Slot TxInt256} (lies : slot.LiesAsInt) :
    StoreWidens (storeInt256 slot.address slot.get slot.set 0)
      (@storeInt256 (.joined behind) slot.address slot.get slot.set 0)
      content := by
  intro bytes
  obtain fits | tooLong := le_or_gt bytes.length 32
  · right
    show content.poke? behind slot.address bytes =
      ((slot.get content).value.write? 0 bytes).map _
    rw [poke?_of_within lies.1 fits, lies.2 bytes content fits,
      Region.write?_eq_some _ _ _ (by omega)]
    rfl
  · left
    show ((slot.get content).value.write? 0 bytes).map _ = none
    rw [Region.write?_eq_none _ _ _ (by omega)]
    rfl

theorem widens_storeBytes {size : Nat} {slot : Slot (Region size)}
    (lies : slot.LiesAsBytes) :
    StoreWidens (storeBytes slot.address slot.get slot.set 0)
      (@storeBytes size (.joined behind) slot.address slot.get slot.set 0)
      content := by
  intro bytes
  obtain fits | tooLong := le_or_gt bytes.length size
  · right
    show content.poke? behind slot.address bytes =
      ((slot.get content).write? 0 bytes).map _
    rw [poke?_of_within lies.1 fits, lies.2 bytes content fits,
      Region.write?_eq_some _ _ _ (by omega)]
    rfl
  · left
    show ((slot.get content).write? 0 bytes).map _ = none
    rw [Region.write?_eq_none _ _ _ (by omega)]
    rfl

theorem widens_storeShard {slot : Slot Nat} (lies : slot.LiesAsShard) :
    StoreWidens (storeShard slot.address slot.get slot.set 0)
      (@storeShard (.joined behind) slot.address slot.get slot.set 0)
      content := by
  intro bytes
  obtain fits | tooLong := le_or_gt bytes.length 4
  · right
    show (content.poke? behind slot.address bytes).map _ =
      ((uint32Bytes (slot.get content)).write? (4 * 0) bytes).map _
    rw [poke?_of_within lies.1 fits,
      Region.write?_eq_some _ _ _ (by omega)]
    show some (slot.set _ (content.poke slot.address bytes)) =
      some (slot.set _ content)
    rw [lies.2 bytes _ content fits, Nat.mul_zero,
      Region.read_splice_self _ _ _ (by omega)]
  · left
    show ((uint32Bytes (slot.get content)).write? (4 * 0) bytes).map _ = none
    rw [Region.write?_eq_none _ _ _ (by omega)]
    rfl

theorem uint32OfBytes_lt (bytes : Region 4) : uint32OfBytes bytes < 2 ^ 32 := by
  have small := leNat_lt bytes.toList
  rwa [Region.length_toList] at small

theorem widens_storeDirective (small : content.directive < 2 ^ 32) :
    StoreWidens (storeDirective 0) (@storeDirective (.joined behind) 0)
      content := by
  intro bytes
  obtain fits | tooLong := le_or_gt bytes.length 4
  · right
    show content.poke? behind 272 bytes =
      ((uint32Bytes content.directive).write? 0 bytes).map _
    rw [poke?_of_within (by decide : 272 + 4 ≤ 528) fits,
      Region.write?_eq_some _ _ _ (by omega)]
    refine congrArg some ?_
    by_cases none : bytes = []
    · have kept : uint32OfBytes (uint32Bytes content.directive) =
          content.directive := leNat_uint32Bytes small
      rw [none, TxContent.poke_nil, Region.splice_nil]
      dsimp only
      rw [kept]
    · simp (disch := omega) only [TxContent.poke,
        TxInt256.poke_of_disjoint, pokeUint32_of_disjoint,
        Region.overlay_of_disjoint, pokeUint32_self none]
  · left
    show ((uint32Bytes content.directive).write? 0 bytes).map _ = none
    rw [Region.write?_eq_none _ _ _ (by omega)]
    rfl

end Stores

/-! ## Handlers -/

section Handlers

variable (behind : Nat) (buf : Region 1024) {ready : TxContext}

theorem widens_copyField {narrow wide : Store}
    (stores : StoreWidens narrow wide ready.content) :
    Widens .fieldOverrun (copyField buf (some narrow) ready)
      (copyField buf (some wide) ready) := by
  unfold copyField
  split
  · unfold copyTxData
    cases ready.workBuffer with
    | none => exact .same _
    | some position =>
        dsimp only
        cases buf.read? position ready.copySize with
        | none => exact .same _
        | some bytes =>
            dsimp only
            obtain stops | agrees := stores bytes
            · rw [stops]
              exact Or.inl rfl
            · rw [agrees]
              exact .same _
  · exact .same _

variable (first : ready.currentFieldPos = 0)

include first

theorem widens_processInt256 {slot : Slot TxInt256} (member : slot ∈ intSlots) :
    Widens .fieldOverrun
      (processInt256 buf slot.address slot.get slot.set ready)
      (@processInt256 (.joined behind) buf slot.address slot.get slot.set
        ready) := by
  unfold processInt256
  rw [first]
  exact (widens_copyField buf
    (widens_storeInt256 (liesAsInt_of_mem member))).bind_same _

theorem widens_processBytes {size : Nat} {slot : Slot (Region size)}
    (lies : slot.LiesAsBytes) :
    Widens .fieldOverrun
      (processBytes buf slot.address slot.get slot.set ready)
      (@processBytes size (.joined behind) buf slot.address slot.get slot.set
        ready) := by
  unfold processBytes
  rw [first]
  exact (widens_copyField buf (widens_storeBytes lies)).bind_same _

theorem widens_processShard {slot : Slot Nat} (lies : slot.LiesAsShard) :
    Widens .fieldOverrun
      (processShard buf slot.address slot.get slot.set ready)
      (@processShard (.joined behind) buf slot.address slot.get slot.set
        ready) := by
  unfold processShard
  rw [first]
  exact (widens_copyField buf (widens_storeShard lies)).bind_same _

theorem widens_processDirective (small : ready.content.directive < 2 ^ 32) :
    Widens .fieldOverrun (processDirective buf ready)
      (@processDirective (.joined behind) buf ready) := by
  unfold processDirective
  rw [first]
  exact (widens_copyField buf (widens_storeDirective small)).bind_same _

theorem widens_processBlsData :
    Widens .fieldOverrun
      (processBlsData buf (some (storeBlsPubKey ready.currentFieldPos)) ready)
      (processBlsData buf
        (some (@storeBlsPubKey (.joined behind) ready.currentFieldPos))
        ready) := by
  unfold processBlsData
  rw [first]
  exact (widens_copyField buf
    (widens_storeBytes liesAsBytes_blsPubKey)).bind_same _

/-- The `switch` of `processTx`. -/
theorem widens_handleTxField :
    Widens .fieldOverrun (handleTxField buf ready)
      (@handleTxField (.joined behind) buf ready) := by
  have int (slot : Slot TxInt256) (member : slot ∈ intSlots) :=
    widens_processInt256 behind buf first member
  unfold handleTxField
  cases ready.txCurrentField with
  | gasprice => exact (int .gasprice (by simp [intSlots])).map _
  | gaslimit => exact (int .startgas (by simp [intSlots])).map _
  | fromshard =>
      exact (widens_processShard behind buf first liesAsShard_fromShard).map _
  | toshard =>
      exact (widens_processShard behind buf first liesAsShard_toShard).map _
  | «to» =>
      exact (widens_processBytes behind buf first
        liesAsBytes_destination).map _
  | amount => exact (int .value (by simp [intSlots])).map _
  | _ => exact .same _

/-- A slot key with its caption. -/
theorem widens_captioned (caption shown : TxContent -> Except Fault TxContent) :
    Widens .fieldOverrun
      (do
        let captioned ← caption ready.content
        let handled ← processBlsData buf
          (some (storeBlsPubKey ready.currentFieldPos))
          { ready with content := captioned }
        let content ← shown handled.content
        return { handled with content := content })
      (do
        let captioned ← caption ready.content
        let handled ← processBlsData buf
          (some (@storeBlsPubKey (.joined behind) ready.currentFieldPos))
          { ready with content := captioned }
        let content ← shown handled.content
        return { handled with content := content }) := by
  refine (Widens.same _).bind fun captioned => ?_
  have data : Widens .fieldOverrun
      (processBlsData buf (some (storeBlsPubKey ready.currentFieldPos))
        { ready with content := captioned }) _ :=
    @widens_processBlsData behind buf { ready with content := captioned } first
  exact data.bind_same _

/-- The `switch` of `processStaking`. -/
theorem widens_handleStakingField
    (small : ready.stakeCurrentField = .directive ->
      ready.content.directive < 2 ^ 32) :
    Widens .fieldOverrun (handleStakingField buf ready)
      (@handleStakingField (.joined behind) buf ready) := by
  have int (slot : Slot TxInt256) (member : slot ∈ intSlots) :=
    widens_processInt256 behind buf first member
  have bytes {size : Nat} (slot : Slot (Region size))
      (lies : slot.LiesAsBytes) := widens_processBytes behind buf first lies
  unfold handleStakingField
  cases field : ready.stakeCurrentField with
  | directive =>
      exact (widens_processDirective behind buf first (small field)).map _
  | delegatoraddr =>
      exact ((bytes .destination liesAsBytes_destination).bind_same _).map _
  | validatoraddr =>
      exact ((bytes .validatorAddress
        liesAsBytes_validatorAddress).bind_same _).map _
  | amount => exact (int .value (by simp [intSlots])).map _
  | name =>
      let cleared := { ready with
        stakeCurrentField := .name
        content := { ready.content with name := .zero } }
      have named : Widens .fieldOverrun (processName buf cleared)
          (@processName (.joined behind) buf cleared) :=
        @widens_processBytes behind buf cleared first 30 .name
          liesAsBytes_name
      exact named.map Flow.again
  | rateValue =>
      exact ((int .rate (by simp [intSlots])).bind_same _).map _
  | maxrateValue => exact (int .maxRate (by simp [intSlots])).map _
  | maxchangerateValue => exact (int .maxChangeRate (by simp [intSlots])).map _
  | minselfdelegation =>
      exact (int .minSelfDelegation (by simp [intSlots])).map _
  | maxtotaldelegation =>
      exact (int .maxTotalDelegation (by simp [intSlots])).map _
  | blspubkey =>
      exact ((widens_processBlsData behind buf first).bind_same _).map _
  | slotkeytoremove =>
      exact (widens_captioned behind buf first (writeBlsKeyStr 0
        (ascii "remove:")) fun content => writeBlsKeyStr 7
          (toHex content.blsPubKey 10 ++ ascii "...") content).map _
  | slotkeytoadd =>
      exact (widens_captioned behind buf first (writeBlsKeyStr 20
        (ascii ",add:")) fun content => writeBlsKeyStr 25
          (toHex content.blsPubKey 10 ++ ascii "...") content).map _
  | editactive =>
      exact ((widens_processShard behind buf first
        liesAsShard_fromShard).bind_same _).map _
  | _ => exact .same _

end Handlers

/-! ## Whole runs -/

/-- A round of a main loop. -/
theorem widens_mainLoop {buf : Region 1024} {done : TxContext -> Bool}
    {narrow wide : Body Fault TxContext (Int × TxContext)}
    {context : TxContext}
    (handles : ∀ ready,
      beforeSwitch buf (done context) context = .ok (none, ready) ->
      Widens .fieldOverrun (narrow ready) (wide ready)) :
    Widens .fieldOverrun (mainLoop buf done narrow context)
      (mainLoop buf done wide context) := by
  unfold mainLoop
  split
  · exact .same _
  · exact .same _
  · next ready reaches => exact handles ready reaches

/-- Between two rounds a header is read before the `switch`. -/
theorem Between.ready {buf : Region 1024} {done : TxContext -> Bool}
    {context ready : TxContext} (between : Between done context)
    (reaches : beforeSwitch buf (done context) context = .ok (none, ready)) :
    ready.currentFieldPos = 0 ∧ SameProgress context ready := by
  have goesOn : done context = false := by
    by_contra finished
    rw [beforeSwitch, if_pos (by simpa using finished)] at reaches
    cases reaches
  have available : context.commandLength ≠ 0 := by
    intro exhausted
    rw [beforeSwitch, if_neg (by simp [goesOn]), if_pos exhausted] at reaches
    cases reaches
  obtain ⟨stream, clean⟩ := between.exists_clean buf goesOn available
  cases decoded : readHeader stream with
  | header isList length body =>
      obtain ⟨other, atField, head⟩ :=
        beforeSwitch_of_header clean goesOn decoded
      rw [head, Except.ok.injEq] at reaches
      obtain rfl := (Prod.mk.inj reaches).2
      exact ⟨atField.currentFieldPos, atField.same⟩
  | _ =>
      obtain ⟨code, left, -, head⟩ := beforeSwitch_of_undecoded clean goesOn
        (by rw [decoded]; simp)
      rw [head] at reaches
      cases reaches

theorem widens_runParser {body other : Body Fault TxContext (Int × TxContext)}
    {start : TxContext}
    (run : ∀ rounds, body.run rounds start = some (.error .fieldOverrun) ∨
      other.run rounds start = body.run rounds start) :
    Widens .fieldOverrun (runParser body start) (runParser other start) := by
  unfold runParser
  obtain stops | agrees := run (start.commandLength + 64)
  · rw [stops]
    exact Or.inl rfl
  · rw [agrees]
    exact .same _

section Runs

variable {buf : Region 1024} {bytes : List UInt8}

/-- Unless a field is too long for its array, `processTx` does the same in one
piece of memory. -/
theorem processTx_widens (behind : Nat) (received : Received buf bytes) :
    Widens .fieldOverrun (processTx buf (transferStart bytes.length))
      (processTxIn behind buf (transferStart bytes.length)) := by
  refine widens_runParser fun rounds => ?_
  refine Widens.run (Between txDone) (fun context between => ?_)
    (fun context next between goes =>
      ((ensures_processTxRound between).value _ goes).1) rounds
    ((clean_transferStart received).between txDone)
  exact widens_mainLoop fun ready reaches =>
    widens_handleTxField behind buf (between.ready reaches).1

/-- The directive is a number of four bytes until it has been read. -/
def SmallDirective (context : TxContext) : Prop :=
  stakingPlace context ≤ RlpStakingField.directive.place ->
    context.content.directive < 2 ^ 32

/-- The first two fields are the only ones with such a place. -/
theorem eq_of_place_le {field : RlpStakingField}
    (early : field.place ≤ RlpStakingField.directive.place) :
    field = .content ∨ field = .directive := by
  cases field with
  | past excess =>
      have behind : stakingOrder.idxOf (.past excess) = stakingOrder.length :=
        List.idxOf_of_notMem (by simp [stakingOrder])
      rw [RlpStakingField.place, behind] at early
      exact absurd early (by decide)
  | _ => revert early; decide

/-- What is stored of a directive is a number of four bytes. -/
theorem ensures_processDirective {ready : TxContext}
    (small : ready.content.directive < 2 ^ 32) :
    Ensures (processDirective buf ready) fun after =>
      after.content.directive < 2 ^ 32 := by
  have copied : Ensures (copyField buf
      (some (storeDirective ready.currentFieldPos)) ready) fun after =>
      after.content.directive < 2 ^ 32 := by
    unfold copyField
    apply Ensures.ite
    · intro _
      unfold copyTxData
      split
      · exact Ensures.error trivial
      · dsimp only
        split
        · exact Ensures.error trivial
        · split
          · exact Ensures.error trivial
          · next stored =>
            obtain ⟨memory, -, rfl⟩ := Option.map_eq_some_iff.mp stored
            exact Ensures.ok (uint32OfBytes_lt memory)
    · intro _
      exact Ensures.ok small
  apply Ensures.bind copied
  intro copied small
  apply Ensures.pure
  unfold finishField
  split <;> exact small

/-- A round that goes on ends in the `switch`. -/
theorem exists_ready_of_round {done : TxContext -> Bool}
    {handle : Body Fault TxContext (Int × TxContext)} {context next : TxContext}
    (goes : (mainLoop buf done handle).Round context next) :
    ∃ ready, beforeSwitch buf (done context) context = .ok (none, ready) ∧
      handle ready = .ok (.again next) := by
  unfold Body.Round mainLoop at goes
  split at goes
  · cases goes
  · cases goes
  · next ready reaches => exact ⟨ready, reaches, goes⟩

theorem smallDirective_of_round {context next : TxContext}
    (between : Between stakingDone context) (small : SmallDirective context)
    (goes : (processStakingRound buf).Round context next) :
    SmallDirective next := by
  intro early
  have later := ((ensures_processStakingRound between).value _ goes).2
  have before := small (later.forward.trans early)
  obtain ⟨ready, reaches, handled⟩ := exists_ready_of_round goes
  have same := (between.ready reaches).2
  rw [← same.content] at before
  have stays := later.forward.trans early
  rw [stakingPlace, ← same.stakeCurrentField] at stays
  unfold handleStakingField at handled
  obtain field | field := eq_of_place_le stays
  · rw [field] at handled
    obtain rfl := Flow.again.inj (Except.ok.inj handled)
    exact before
  · rw [field] at handled
    have stored : Ensures (continueWith (processDirective buf ready))
        fun flow => (contextAfter flow).content.directive < 2 ^ 32 :=
      Ensures.map (ensures_processDirective before)
    exact stored.value _ handled

/-- Unless a field is too long for its array, `processStaking` does the same in
one piece of memory. -/
theorem processStaking_widens (behind : Nat) (received : Received buf bytes) :
    Widens .fieldOverrun (processStaking buf (stakingStart bytes.length))
      (processStakingIn behind buf (stakingStart bytes.length)) := by
  refine widens_runParser fun rounds => ?_
  refine Widens.run
    (fun context => Between stakingDone context ∧ SmallDirective context)
    (fun context ⟨between, small⟩ => ?_)
    (fun context next ⟨between, small⟩ goes =>
      ⟨((ensures_processStakingRound between).value _ goes).1,
        smallDirective_of_round between small goes⟩) rounds
    ⟨(clean_stakingStart received).between stakingDone, fun _ => by
      show 0 < 2 ^ 32
      decide⟩
  refine widens_mainLoop fun ready reaches => ?_
  obtain ⟨first, same⟩ := between.ready reaches
  refine widens_handleStakingField behind buf first fun atDirective => ?_
  rw [same.content]
  apply small
  rw [stakingPlace, ← same.stakeCurrentField, atDirective]

end Runs

end LedgerOne
