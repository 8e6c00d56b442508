import LedgerOne.Decoder.Keys
import LedgerOne.Decoder.Visits
import LedgerOne.Decoder.JoinedAgreement

/-!
# The keys in one piece of memory

Before the BLS keys are read, the buffer for them and the list that is shown
hold what earlier fields have left there, which were longer than their arrays.
From there on the keys are kept as they are visited.
-/

namespace LedgerOne

open Layout JoinedStaking

/-! ## What earlier fields leave -/

/-- Where `processStaking` stores the payload of a field. -/
def storedAt? : RlpStakingField -> Option Nat
  | .directive => some 272
  | .delegatoraddr => some 276
  | .validatoraddr => some 296
  | .amount => some 66
  | .name => some 498
  | .rateValue => some 99
  | .maxrateValue => some 132
  | .maxchangerateValue => some 165
  | .minselfdelegation => some 198
  | .maxtotaldelegation => some 231
  | .blspubkey | .slotkeytoremove | .slotkeytoadd => some 316
  | .editactive => some 264
  | _ => none

/-- The byte that visits leave at a place that was zero. -/
def leftAt (visits : List (Visit RlpStakingField)) (place : Nat) : UInt8 :=
  visits.foldl (fun byte visit =>
    match storedAt? visit.tag with
    | some address => byteAfter address visit.bytes place byte
    | none => byte) 0

theorem leftAt_concat (visits : List (Visit RlpStakingField))
    (visit : Visit RlpStakingField) (place : Nat) :
    leftAt (visits ++ [visit]) place =
      match storedAt? visit.tag with
      | some address => byteAfter address visit.bytes place
          (leftAt visits place)
      | none => leftAt visits place :=
  List.foldl_concat _ _ _ _

/-- The fields from the amount, the keys or the slot keys on. -/
def Closes : RlpStakingField -> Prop
  | .amount | .slotpubkeys | .blspubkey | .blssigs | .blssignature
  | .slotkeytoremove | .slotkeytoadd | .slotkeytoaddsignature | .editactive =>
      True
  | _ => False

instance : DecidablePred Closes := fun field => by
  cases field <;> unfold Closes <;> infer_instance

/-- The visits before the first of these fields. -/
def opening (visits : List (Visit RlpStakingField)) :
    List (Visit RlpStakingField) :=
  visits.takeWhile fun visit => !decide (Closes visit.tag)

/-- The buffer for the keys and their list hold what visits have left. -/
structure Untouched (visits : List (Visit RlpStakingField))
    (content : TxContent) : Prop where
  key : ∀ index < 48,
    content.blsPubKey.get index = leftAt visits (316 + index)
  list : ∀ index < 130,
    content.blsKeyStr.get index = leftAt visits (368 + index)

section Untouched

variable {visits : List (Visit RlpStakingField)} {content after : TxContent}
  {tag : RlpStakingField} {length : Nat} {bytes : List UInt8}

theorem Untouched.skip (untouched : Untouched visits content)
    (skipped : storedAt? tag = none) :
    Untouched (visits ++ [⟨tag, length, bytes⟩]) content := by
  have same (place : Nat) :
      leftAt (visits ++ [⟨tag, length, bytes⟩]) place =
        leftAt visits place := by
    rw [leftAt_concat, skipped]
  exact ⟨fun index inside => by rw [same, untouched.key index inside],
    fun index inside => by rw [same, untouched.list index inside]⟩

theorem Untouched.poke (untouched : Untouched visits content) {address : Nat}
    (stored : storedAt? tag = some address) :
    Untouched (visits ++ [⟨tag, length, bytes⟩])
      (content.poke address bytes) := by
  have left (place : Nat) :
      leftAt (visits ++ [⟨tag, length, bytes⟩]) place =
        byteAfter address bytes place (leftAt visits place) := by
    rw [leftAt_concat, stored]
  constructor
  · intro index inside
    rw [left, ← untouched.key index inside]
    exact Region.get_overlay _ _ _ _ _ inside
  · intro index inside
    rw [left, ← untouched.list index inside]
    exact Region.get_overlay _ _ _ _ _ inside

theorem Untouched.of_eq (untouched : Untouched visits content)
    (key : after.blsPubKey = content.blsPubKey)
    (list : after.blsKeyStr = content.blsKeyStr) : Untouched visits after :=
  ⟨by rw [key]; exact untouched.key, by rw [list]; exact untouched.list⟩

end Untouched

/-- Where the machine stands before and at the first of these fields. -/
structure Opened (visits : List (Visit RlpStakingField))
    (place : StakingPlace) : Prop where
  untouched : Untouched visits place.content
  reaches : Closes place.field ->
    place.field = .amount ∨
      place.field = .slotpubkeys ∧
        place.content.directive = DirectiveCreateValidator ∨
      place.field = .slotkeytoremove

/-- Up to the first of these fields nothing else touches the keys. -/
theorem opened_of_steps {behind : Nat}
    {visits : List (Visit RlpStakingField)} {last : StakingPlace}
    (steps : (course behind).Steps ⟨.zero, 0, .content⟩ visits last)
    (beside : ∀ visit ∈ visits, ¬Closes visit.tag) : Opened visits last := by
  have start : Opened [] ⟨.zero, 0, .content⟩ :=
    ⟨⟨fun _ _ => Region.get_zero _, fun _ _ => Region.get_zero _⟩,
      fun closes => closes.elim⟩
  refine Course.Steps.keeps (fun {before place next length bytes} opens here
    opened => ?_) (fun {before place capacity next bytes after} opens here
    goesOn opened => ?_) steps beside start
  · obtain ⟨content, keyIndex, field⟩ := place
    have untouched := opened.untouched
    cases field <;> simp only [course, node, reduceCtorEq] at here
    case delegatoraddr => split at here <;> cases here
    all_goals obtain rfl := Node.enter.inj here
    case slotpubkeys | blssigs => exact absurd trivial opens
    case stakemessage | rate =>
      refine ⟨untouched.skip rfl, fun closes => ?_⟩
      dsimp only [StakingPlace.go] at closes
      split at closes <;> exact closes.elim
    all_goals exact ⟨untouched.skip rfl, fun closes => closes.elim⟩
  · obtain ⟨content, keyIndex, field⟩ := place
    have untouched := opened.untouched
    cases field <;> simp only [course, node, reduceCtorEq] at here
    case delegatoraddr =>
      split at here
      · cases here
      · obtain ⟨-, rfl⟩ := Node.field.inj here
        obtain rfl := Option.some.inj goesOn
        exact ⟨untouched.poke rfl, fun closes => closes.elim⟩
    all_goals obtain ⟨-, rfl⟩ := Node.field.inj here
    case blspubkey | blssignature | slotkeytoremove | slotkeytoadd |
        slotkeytoaddsignature => exact absurd trivial opens
    case validatoraddr =>
      obtain rfl := Option.some.inj goesOn
      refine ⟨untouched.poke rfl, fun closes => ?_⟩
      dsimp only [StakingPlace.go] at closes ⊢
      split at closes
      · next delegates =>
        rw [if_pos delegates]
        exact Or.inl rfl
      · exact closes.elim
    case maxtotaldelegation =>
      dsimp only at goesOn
      have keeps : Untouched (before ++ [.whole .maxtotaldelegation bytes])
          (Slot.maxTotalDelegation.pokeInt bytes content) :=
        (untouched.poke rfl).of_eq rfl rfl
      split_ifs at goesOn with creates edits
      · obtain rfl := Option.some.inj goesOn
        exact ⟨keeps, fun _ => Or.inr (Or.inl ⟨rfl, creates⟩)⟩
      · obtain rfl := Option.some.inj goesOn
        exact ⟨keeps, fun _ => Or.inr (Or.inr rfl)⟩
    all_goals obtain rfl := Option.some.inj goesOn
    case identity | website | securitycontact =>
      exact ⟨untouched.skip rfl, fun closes => closes.elim⟩
    case details =>
      refine ⟨untouched.skip rfl, fun closes => ?_⟩
      dsimp only [StakingPlace.go] at closes
      split at closes <;> exact closes.elim
    case directive => exact ⟨untouched.poke rfl, fun closes => closes.elim⟩
    case name =>
      have cleared : Untouched before (Staking.clearName content) :=
        untouched.of_eq rfl rfl
      exact ⟨cleared.poke rfl, fun closes => closes.elim⟩
    case rateValue =>
      refine ⟨(untouched.poke rfl).of_eq rfl rfl, fun closes => ?_⟩
      dsimp only [StakingPlace.go] at closes
      split at closes <;> exact closes.elim
    all_goals
      exact ⟨(untouched.poke rfl).of_eq rfl rfl, fun closes => closes.elim⟩

/-! ## The keys of a new validator -/

section Create

variable {behind keyIndex : Nat} {content value : TxContent}
  {visits : List (Visit RlpStakingField)}

/-- A whole key fills its buffer and nothing else. -/
theorem poke_key {key : List UInt8} (whole : key.length = 48)
    (content : TxContent) :
    content.poke 316 key = Slot.blsPubKey.putBytes key content :=
  liesAsBytes_blsPubKey.2 key content (le_of_eq whole)

theorem size_showKey (index : Nat) (content : TxContent) :
    (Staking.showKey index content).blsPubKeySize = content.blsPubKeySize := by
  unfold Staking.showKey
  split <;> rfl

/-- The keys are shown one after the other. -/
theorem path_blspubkey
    (path : (course behind).Path ⟨content, keyIndex, .blspubkey⟩ visits
      (some value))
    (whole : ∀ key ∈ payloads .blspubkey visits, key.length = 48) :
    ∃ keys rest, visits = keys.map (.whole .blspubkey) ++ rest ∧
      1 ≤ keys.length ∧ keyIndex + keys.length = content.blsPubKeySize ∧
      (course behind).Path ⟨showKeys keys keyIndex content,
        keyIndex + keys.length, .blssigs⟩ rest (some value) := by
  induction visits generalizing content keyIndex with
  | nil => cases path
  | cons visit visits inductionHypothesis =>
      obtain ⟨bytes, after, rest, same, goesOn, later⟩ := path.of_field rfl
      obtain ⟨rfl, rfl⟩ := List.cons.inj same
      obtain rfl := Option.some.inj goesOn
      have long : bytes.length = 48 := whole bytes List.mem_cons_self
      have size (content : TxContent) :
          (Slot.blsPubKey.putBytes bytes content).blsPubKeySize =
            content.blsPubKeySize := rfl
      rw [poke_key long, size] at later
      split at later
      · next all => exact ⟨[bytes], visits, rfl, le_rfl, all, later⟩
      · obtain ⟨keys, rest, rfl, some, count, later⟩ := inductionHypothesis
          later fun key member => whole key (List.mem_cons_of_mem _ member)
        refine ⟨bytes :: keys, rest, rfl, by simp, ?_, ?_⟩
        · rw [size_showKey, size] at count
          rw [List.length_cons, ← count]
          exact (Nat.succ_add_eq_add_succ keyIndex keys.length).symm
        · rw [List.length_cons, ← Nat.add_assoc, Nat.add_right_comm]
          exact later

/-- The signatures are skipped one after the other. -/
theorem path_blssignature
    (path : (course behind).Path ⟨content, keyIndex, .blssignature⟩ visits
      (some value)) :
    ∃ (signatures : List (List UInt8)) (rest : List (Visit RlpStakingField)),
      visits = signatures.map (.whole .blssignature) ++ rest ∧
      1 ≤ signatures.length ∧
      keyIndex + signatures.length = content.blsPubKeySize ∧
      (course behind).Path ⟨content, keyIndex + signatures.length, .amount⟩
        rest (some value) := by
  induction visits generalizing keyIndex with
  | nil => cases path
  | cons visit visits inductionHypothesis =>
      obtain ⟨bytes, after, rest, same, goesOn, later⟩ := path.of_field rfl
      obtain ⟨rfl, rfl⟩ := List.cons.inj same
      obtain rfl := Option.some.inj goesOn
      dsimp only at later
      split at later
      · next all => exact ⟨[bytes], visits, rfl, le_rfl, all, later⟩
      · obtain ⟨signatures, rest, rfl, some, count, later⟩ :=
          inductionHypothesis later
        refine ⟨bytes :: signatures, rest, rfl, by simp, ?_, ?_⟩
        · rw [List.length_cons, ← count]
          exact (Nat.succ_add_eq_add_succ keyIndex signatures.length).symm
        · rw [List.length_cons, ← Nat.add_assoc, Nat.add_right_comm]
          exact later

/-- The content that the keys, the signatures and the amount leave. -/
def Slots.pokedContent (slots : Slots) (content : TxContent) : TxContent :=
  Slot.value.pokeFinalInt slots.amountLength slots.amountBytes
    (Staking.setKeyCount slots.signatures.length
      (showKeys slots.keys 0
        (Staking.setKeyCount slots.keys.length content)))

/-- The end of a new validator with whole keys. -/
theorem path_slotpubkeys
    (path : (course behind).Path ⟨content, keyIndex, .slotpubkeys⟩ visits
      (some value))
    (whole : ∀ key ∈ payloads .blspubkey visits, key.length = 48) :
    ∃ slots : Slots, visits = slots.visits ∧
      value = slots.pokedContent content := by
  obtain ⟨keysLength, keysBytes, listed, rfl, keysPath⟩ := path.of_enter rfl
  obtain ⟨keys, signed, rfl, someKeys, countKeys, listPath⟩ :=
    path_blspubkey keysPath whole
  obtain ⟨sigsLength, sigsBytes, listed, rfl, sigsPath⟩ :=
    listPath.of_enter rfl
  obtain ⟨signatures, last, rfl, someSignatures, countSignatures, amountPath⟩ :=
    path_blssignature sigsPath
  obtain ⟨amountLength, amountBytes, rfl, -, taken⟩ := amountPath.of_final rfl
  have lengthKeys : keys.length = keysLength / (MAX_BLS_ADDRESS + 1) :=
    (Nat.zero_add _).symm.trans countKeys
  have lengthSignatures :
      signatures.length = sigsLength / (MAX_SIG_ADDRESS + 2) :=
    (Nat.zero_add _).symm.trans countSignatures
  rw [← lengthKeys, ← lengthSignatures] at taken
  refine ⟨⟨keysLength, keysBytes, keys, sigsLength, sigsBytes, signatures,
    amountLength, amountBytes, lengthKeys ▸ someKeys, lengthKeys,
    lengthSignatures ▸ someSignatures, lengthSignatures⟩, rfl, ?_⟩
  dsimp only at taken
  split at taken
  · exact Option.some.inj taken
  · cases taken

end Create

/-! ## The keys of a changed validator -/

section Edit

variable {behind keyIndex : Nat} {content value : TxContent}
  {visits : List (Visit RlpStakingField)}

/-- The content after a key is shown behind its caption, as far as it was
read. -/
def pokedCaption (start : Nat) (caption key : List UInt8)
    (content : TxContent) : TxContent :=
  Staking.showKeyAt (start + caption.length)
    ((Staking.showText start caption content).poke 316 key)

/-- The content that the slot keys and the status leave. -/
def Changes.pokedContent (changes : Changes) (content : TxContent) :
    TxContent :=
  Staking.showStatus
    (Slot.fromShard.pokeShard changes.statusLength changes.statusBytes
      (pokedCaption 20 (ascii ",add:") changes.added
        (pokedCaption 0 (ascii "remove:") changes.removed content)))

/-- The end of a changed validator. -/
theorem path_slotkeytoremove
    (path : (course behind).Path ⟨content, keyIndex, .slotkeytoremove⟩ visits
      (some value)) :
    ∃ changes : Changes, visits = changes.visits ∧
      changes.statusBytes.length ≤ changes.statusLength ∧
      value = changes.pokedContent content := by
  obtain ⟨removed, after, rest, rfl, goesOn, path⟩ := path.of_field rfl
  obtain rfl := Option.some.inj goesOn
  obtain ⟨added, after, rest, rfl, goesOn, path⟩ := path.of_field rfl
  dsimp only at goesOn
  split at goesOn
  · obtain rfl := Option.some.inj goesOn
    obtain ⟨signature, after, rest, rfl, goesOn, path⟩ := path.of_field rfl
    obtain rfl := Option.some.inj goesOn
    obtain ⟨length, status, rfl, within, taken⟩ := path.of_final rfl
    exact ⟨⟨removed, added, signature, length, status⟩, rfl, within,
      Option.some.inj taken⟩
  · cases goesOn

end Edit

/-! ## Whole messages -/

section Whole

variable {behind : Nat} {value : TxContent}
  {visits before rest : List (Visit RlpStakingField)}
  {visit : Visit RlpStakingField}

theorem opening_append (beside : ∀ visit ∈ before, ¬Closes visit.tag)
    (closes : Closes visit.tag) :
    opening (before ++ visit :: rest) = before := by
  rw [opening, List.takeWhile_append_of_pos (by simpa using beside),
    List.takeWhile_cons_of_neg (by simpa using closes), List.append_nil]

theorem not_mem_fieldsOf (beside : ∀ visit ∈ before, ¬Closes visit.tag)
    {field : RlpStakingField} (closes : Closes field) :
    field ∉ fieldsOf before := by
  intro member
  obtain ⟨visit, inside, rfl⟩ := List.mem_map.mp member
  exact beside visit inside closes

/-- A message whose keys are visited is cut in two before them. -/
theorem exists_closing {field : RlpStakingField} (closes : Closes field)
    (some : payloads field visits ≠ [])
    (path : (course behind).Path ⟨.zero, 0, .content⟩ visits (.some value)) :
    ∃ before place rest, visits = before ++ rest ∧
      (∀ visit ∈ before, ¬Closes visit.tag) ∧ Opened before place ∧
      Closes place.field ∧
      (course behind).Path place rest (.some value) ∧
      ∀ field, Closes field -> payloads field visits = payloads field rest := by
  have visited : ∃ visit ∈ visits, Closes visit.tag := by
    obtain ⟨bytes, member⟩ := List.exists_mem_of_ne_nil _ some
    obtain ⟨visit, inside, -⟩ := List.mem_map.mp member
    obtain ⟨inside, same⟩ := List.mem_filter.mp inside
    exact ⟨visit, inside, of_decide_eq_true same ▸ closes⟩
  obtain ⟨before, place, rest, rfl, steps, reached, beside, later⟩ :=
    path.comesTo visited
  refine ⟨before, place, rest, rfl, beside, opened_of_steps steps beside,
    reached, later, fun field closes => ?_⟩
  rw [payloads_append, payloads_of_absent (not_mem_fieldsOf beside closes),
    List.nil_append]

/-- What a new validator with whole keys leaves. -/
theorem exists_slots
    (path : (course behind).Path ⟨.zero, 0, .content⟩ visits (.some value))
    (some : payloads .blspubkey visits ≠ [])
    (whole : ∀ key ∈ payloads .blspubkey visits, key.length = 48) :
    ∃ (slots : Slots) (content : TxContent),
      Untouched (opening visits) content ∧
      content.directive = DirectiveCreateValidator ∧
      value = slots.pokedContent content ∧
      payloads .blspubkey visits = slots.keys ∧
      payloads .blssignature visits = slots.signatures ∧
      payloads .amount visits = [slots.amountBytes] := by
  obtain ⟨before, ⟨content, keyIndex, field⟩, rest, rfl, beside, opened,
    closes, later, onlyRest⟩ := exists_closing (by trivial) some path
  rw [onlyRest .blspubkey trivial] at some whole ⊢
  rw [onlyRest .blssignature trivial, onlyRest .amount trivial]
  obtain rfl | ⟨rfl, creates⟩ | rfl := opened.reaches closes
  · obtain ⟨length, bytes, rfl, -⟩ := later.of_final rfl
    exact absurd rfl some
  · obtain ⟨slots, rfl, rfl⟩ := path_slotpubkeys later whole
    obtain ⟨keys, signatures, amount⟩ := slots.payloads_visits
    refine ⟨slots, content, ?_, creates, rfl, keys, signatures, amount⟩
    rw [Slots.visits, opening_append beside (by trivial)]
    exact opened.untouched
  · obtain ⟨changes, rfl, -⟩ := path_slotkeytoremove later
    exact absurd rfl some

/-- The fields of a new validator from its keys on. -/
def OfKeys : RlpStakingField -> Prop
  | .slotpubkeys | .blspubkey | .blssigs | .blssignature | .amount => True
  | _ => False

/-- A new validator has no slot keys to remove. -/
theorem payloads_slotkeytoremove_of_slotpubkeys {content : TxContent}
    {keyIndex : Nat}
    (path : (course behind).Path ⟨content, keyIndex, .slotpubkeys⟩ visits
      (.some value)) : payloads .slotkeytoremove visits = [] := by
  have within : ∀ visit ∈ visits, OfKeys visit.tag := by
    refine path.within (fun {place next} inside here length => ?_)
      (fun {place capacity next bytes after} inside here goesOn => ?_) trivial
    · obtain ⟨content, keyIndex, field⟩ := place
      cases field <;> first
        | exact inside.elim
        | (simp only [course, node, reduceCtorEq] at here
           try (obtain rfl := Node.enter.inj here; trivial))
    · obtain ⟨content, keyIndex, field⟩ := place
      cases field <;> first
        | exact inside.elim
        | simp only [course, node, reduceCtorEq] at here
      all_goals
        obtain ⟨-, rfl⟩ := Node.field.inj here
        obtain rfl := Option.some.inj goesOn
        dsimp only [course]
        split <;> trivial
  apply payloads_of_absent
  intro member
  obtain ⟨visit, inside, same⟩ := List.mem_map.mp member
  have other := within visit inside
  rw [same] at other
  exact other

/-- What a changed validator leaves. -/
theorem exists_changes
    (path : (course behind).Path ⟨.zero, 0, .content⟩ visits (.some value))
    (some : payloads .slotkeytoremove visits ≠ []) :
    ∃ (changes : Changes) (content : TxContent),
      Untouched (opening visits) content ∧
      changes.statusBytes.length ≤ changes.statusLength ∧
      value = changes.pokedContent content ∧
      payloads .slotkeytoremove visits = [changes.removed] ∧
      payloads .slotkeytoadd visits = [changes.added] ∧
      payloads .editactive visits = [changes.statusBytes] := by
  obtain ⟨before, ⟨content, keyIndex, field⟩, rest, rfl, beside, opened,
    closes, later, onlyRest⟩ := exists_closing (by trivial) some path
  rw [onlyRest .slotkeytoremove trivial] at some ⊢
  rw [onlyRest .slotkeytoadd trivial, onlyRest .editactive trivial]
  obtain rfl | ⟨rfl, -⟩ | rfl := opened.reaches closes
  · obtain ⟨length, bytes, rfl, -⟩ := later.of_final rfl
    exact absurd rfl some
  · exact absurd (payloads_slotkeytoremove_of_slotpubkeys later) some
  · obtain ⟨changes, rfl, within, rfl⟩ := path_slotkeytoremove later
    refine ⟨changes, content, ?_, within, rfl, rfl, rfl, rfl⟩
    rw [Changes.visits, opening_append beside (by trivial)]
    exact opened.untouched

end Whole

end LedgerOne
