import LedgerOne.Lib.Hex
import LedgerOne.Lib.Strings
import LedgerOne.Decoder.Order

/-!
# The keys that are kept for the screen

Of each BLS key the first five bytes are kept as hexadecimal text in
`blsKeyStr`: of a new validator one key after the other, while there is room,
and of a changed validator one key behind each of two captions.  All keys are
read through one buffer, which is written only as far as a key reaches.
-/

namespace LedgerOne

open Layout

/-- The text for the first five bytes of a key. -/
def keyText (start : List UInt8) : List UInt8 := hexText start ++ ascii "..."

/-- The text for a list of keys. -/
def keysText (keys : List (List UInt8)) : List UInt8 :=
  keys.flatMap fun key => keyText (key.take 5)

/-- `to_hex` on the start of the key buffer. -/
theorem toHex_ten (key : Region 48) : toHex key 10 = hexText (key.read 0 5) := by
  have digit : ∀ value < 16, HEXDIGITS.getD value 0 = hexNibble value := by
    decide
  have high : ∀ byte : UInt8, HEXDIGITS.getD (byte.toNat / 16 % 16) 0 =
      hexNibble (byte.toNat / 16) := by
    intro byte
    have small := byte.toNat_lt
    rw [Nat.mod_eq_of_lt (by omega), digit _ (by omega)]
  have low : ∀ byte : UInt8, HEXDIGITS.getD (byte.toNat % 16) 0 =
      hexNibble (byte.toNat % 16) :=
    fun byte => digit _ (Nat.mod_lt _ (by decide))
  simp only [toHex, high, low, hexText, Region.read, List.flatMap_map,
    Nat.zero_add]

/-! ## The payloads that are visited -/

/-- The payloads of the items that are visited for a field. -/
def payloads (field : RlpStakingField) (visits : List (Visit RlpStakingField)) :
    List (List UInt8) :=
  (visits.filter fun visit => visit.tag = field).map Visit.bytes

section Payloads

variable {field : RlpStakingField} {front back : List (Visit RlpStakingField)}

theorem payloads_append :
    payloads field (front ++ back) =
      payloads field front ++ payloads field back := by
  rw [payloads, List.filter_append, List.map_append]
  rfl

theorem payloads_of_absent (absent : field ∉ fieldsOf front) :
    payloads field front = [] := by
  rw [payloads, List.map_eq_nil_iff, List.filter_eq_nil_iff]
  intro visit member same
  exact absent (List.mem_map.mpr ⟨visit, member, of_decide_eq_true same⟩)

theorem payloads_whole (strings : List (List UInt8)) :
    payloads field (strings.map (Visit.whole field)) = strings := by
  rw [payloads, List.filter_eq_self.mpr, List.map_map]
  · exact List.map_id' strings
  · intro visit member
    obtain ⟨bytes, -, rfl⟩ := List.mem_map.mp member
    exact decide_eq_true rfl

end Payloads

/-- The visits of a new validator, by field. -/
theorem Slots.payloads_visits (slots : Slots) :
    payloads .blspubkey slots.visits = slots.keys ∧
      payloads .blssignature slots.visits = slots.signatures ∧
      payloads .amount slots.visits = [slots.amountBytes] := by
  have others : ∀ {field other : RlpStakingField}
      (strings : List (List UInt8)), field ≠ other ->
      payloads field (strings.map (Visit.whole other)) = [] := by
    intro field other strings different
    apply payloads_of_absent
    rw [fieldsOf_whole, List.mem_replicate]
    exact fun member => different member.2
  have parts (field : RlpStakingField) : payloads field slots.visits =
      payloads field [⟨.slotpubkeys, slots.keysLength, slots.keysBytes⟩] ++
        (payloads field (slots.keys.map (Visit.whole .blspubkey)) ++
          (payloads field [⟨.blssigs, slots.sigsLength, slots.sigsBytes⟩] ++
            (payloads field
                (slots.signatures.map (Visit.whole .blssignature)) ++
              payloads field
                [⟨.amount, slots.amountLength, slots.amountBytes⟩]))) := by
    simp only [← payloads_append]
    rfl
  refine ⟨?_, ?_, ?_⟩
  · rw [parts, payloads_whole, others _ (by decide)]
    exact List.append_nil _
  · rw [parts, payloads_whole, others _ (by decide)]
    exact List.append_nil _
  · rw [parts, others _ (by decide), others _ (by decide)]
    rfl

/-! ## New validators -/

/-- What is read back of a key that was written over the buffer. -/
theorem read_start (buffer : Region 48) {key : List UInt8}
    (long : 5 ≤ key.length) (fits : key.length ≤ 48) :
    (buffer.splice 0 key).read 0 5 = key.take 5 := by
  have whole := Region.read_splice_self buffer 0 key (by omega)
  have start := congrArg (List.take 5) whole
  rwa [Region.take_read, Nat.min_eq_left long] at start

theorem length_keyText {start : List UInt8} (five : start.length = 5) :
    (keyText start).length = 13 := by
  rw [keyText, List.length_append, length_hexText, five]
  rfl

theorem keysText_cons (key : List UInt8) (keys : List (List UInt8)) :
    keysText (key :: keys) = keyText (key.take 5) ++ keysText keys :=
  rfl

/-- The text of a key that is shown at an index. -/
theorem blsKeyStr_showKeyAt (offset : Nat) (key : List UInt8)
    (content : TxContent) :
    (Staking.showKeyAt offset
        (Slot.blsPubKey.putBytes key content)).blsKeyStr =
      content.blsKeyStr.splice offset
        (keyText ((content.blsPubKey.splice 0 key).read 0 5)) := by
  rw [keyText, ← toHex_ten]
  rfl

/-- The keys of a new validator are shown one after the other, as long as
there is room. -/
theorem blsKeyStr_showKeys {keys : List (List UInt8)}
    (whole : ∀ key ∈ keys, key.length = 48) (index : Nat)
    (content : TxContent) :
    (showKeys keys index content).blsKeyStr =
      content.blsKeyStr.splice (index * 13)
        (keysText (keys.take (10 - index))) := by
  induction keys generalizing index content with
  | nil =>
      rw [List.take_nil]
      exact (Region.splice_nil _ _).symm
  | cons key keys inductionHypothesis =>
      have long := whole key (by simp)
      have later := inductionHypothesis
        (fun other member => whole other (List.mem_cons_of_mem _ member))
        (index + 1)
      rw [showKeys, later]
      by_cases room : index < 10
      · have start : (content.blsPubKey.splice 0 key).read 0 5 = key.take 5 :=
          read_start _ (by omega) (by omega)
        have thirteen : (keyText (key.take 5)).length = 13 :=
          length_keyText (by
            rw [List.length_take]
            omega)
        rw [Staking.showKey, if_pos (by unfold BLS_KEY_STR_LEN; omega),
          blsKeyStr_showKeyAt, start, show 10 - index = 10 - (index + 1) + 1 by
          omega, List.take_succ_cons, keysText_cons, ← Region.splice_append,
          thirteen, Nat.add_one_mul]
      · rw [Staking.showKey, if_neg (by unfold BLS_KEY_STR_LEN; omega),
          show 10 - index = 0 by omega, show 10 - (index + 1) = 0 by omega]
        exact (Region.splice_nil _ _).trans (Region.splice_nil _ _).symm

theorem zero_not_mem_keyText (start : List UInt8) : 0 ∉ keyText start := by
  intro member
  obtain digit | dot := List.mem_append.mp member
  · exact zero_not_mem_hexText _ digit
  · exact absurd dot (by decide)

/-- The later keys of a list leave the first one. -/
theorem read_showKeys (keys : List (List UInt8)) {index : Nat}
    (later : 1 ≤ index) (content : TxContent) :
    (showKeys keys index content).blsKeyStr.read 0 13 =
      content.blsKeyStr.read 0 13 := by
  induction keys generalizing index content with
  | nil => rfl
  | cons key keys inductionHypothesis =>
      rw [showKeys, inductionHypothesis (by omega), Staking.showKey]
      split
      · rw [blsKeyStr_showKeyAt,
          Region.read_splice_of_disjoint _ _ _ _ _ (Or.inl (by omega))]
      · rfl

/-- The first key of a list is shown. -/
theorem exists_firstKey {keys : List (List UInt8)} (some : keys ≠ [])
    (content : TxContent) :
    ∃ start, start.length = 5 ∧
      (showKeys keys 0 content).blsKeyStr.read 0 13 = keyText start := by
  cases keys with
  | nil => exact absurd rfl some
  | cons key keys =>
      have five := Region.length_read (content.blsPubKey.splice 0 key) 0 5
      have thirteen := length_keyText five
      refine ⟨_, five, ?_⟩
      have whole := Region.read_splice_self content.blsKeyStr 0
        (keyText ((content.blsPubKey.splice 0 key).read 0 5)) (by
          rw [thirteen]
          decide)
      rw [thirteen] at whole
      rw [showKeys, read_showKeys _ le_rfl, Staking.showKey,
        if_pos (by decide), blsKeyStr_showKeyAt, Nat.zero_mul, whole]

/-! ## Changed validators -/

/-- What a caption and the key behind it leave. -/
theorem blsKeyStr_captioned (start : Nat) (caption key : List UInt8)
    (content : TxContent) :
    (captioned start caption key content).blsKeyStr =
        content.blsKeyStr.splice start (caption ++
          keyText ((content.blsPubKey.splice 0 key).read 0 5)) ∧
      (captioned start caption key content).blsPubKey =
        content.blsPubKey.splice 0 key := by
  constructor
  · rw [← Region.splice_append]
    exact blsKeyStr_showKeyAt _ _ _
  · rfl

/-- The status does not touch the summary of the keys. -/
theorem blsKeyStr_showStatus (length : Nat) (bytes : List UInt8)
    (content : TxContent) :
    (Staking.showStatus
      (Slot.fromShard.putShard length bytes content)).blsKeyStr =
        content.blsKeyStr := by
  unfold Slot.putShard
  split <;> rfl

/-- The summary of the keys of a changed validator.  The key to add is read
through the buffer in which the key to remove was left. -/
theorem blsKeyStr_summary (removed added : List UInt8) (content : TxContent) :
    (captioned 20 (ascii ",add:") added (captioned 0 (ascii "remove:")
        removed content)).blsKeyStr.read 0 20 =
        ascii "remove:" ++ keyText
          ((content.blsPubKey.splice 0 removed).read 0 5) ∧
      (captioned 20 (ascii ",add:") added (captioned 0 (ascii "remove:")
        removed content)).blsKeyStr.read 20 18 =
        ascii ",add:" ++ keyText
          (((content.blsPubKey.splice 0 removed).splice 0 added).read 0 5) := by
  obtain ⟨remove, left⟩ :=
    blsKeyStr_captioned 0 (ascii "remove:") removed content
  obtain ⟨add, -⟩ := blsKeyStr_captioned 20 (ascii ",add:") added
    (captioned 0 (ascii "remove:") removed content)
  rw [left, remove] at add
  have front : (ascii "remove:" ++ keyText
      ((content.blsPubKey.splice 0 removed).read 0 5)).length = 20 := by
    rw [List.length_append, length_keyText (Region.length_read _ _ _)]
    rfl
  have back : (ascii ",add:" ++ keyText
      (((content.blsPubKey.splice 0 removed).splice 0 added).read 0 5)).length =
        18 := by
    rw [List.length_append, length_keyText (Region.length_read _ _ _)]
    rfl
  rw [add]
  generalize ascii "remove:" ++ _ = first at front ⊢
  generalize ascii ",add:" ++ _ = second at back ⊢
  constructor
  · have read := Region.read_splice_self content.blsKeyStr 0 first (by
      rw [front]
      decide)
    rw [front] at read
    rwa [Region.read_splice_of_disjoint _ 20 second 0 20 (Or.inl (by omega))]
  · have read := Region.read_splice_self
      (content.blsKeyStr.splice 0 first) 20 second (by
        rw [back]
        decide)
    rwa [back] at read

theorem Changes.blsKeyStr_content (changes : Changes) {content : TxContent}
    (start : keyPart content = (DirectiveEditValidator, .zero, .zero, .zero)) :
    (changes.content content).blsKeyStr.read 0 20 =
        ascii "remove:" ++ keyText ((Region.zero.splice 0 changes.removed :
          Region 48).read 0 5) ∧
      (changes.content content).blsKeyStr.read 20 18 =
        ascii ",add:" ++ keyText (((Region.zero.splice 0
          changes.removed).splice 0 changes.added : Region 48).read 0 5) := by
  have buffer : content.blsPubKey = .zero :=
    congrArg (fun part => part.2.1) start
  rw [Changes.content, blsKeyStr_showStatus, ← buffer]
  exact blsKeyStr_summary changes.removed changes.added content

/-! ## Accepted messages -/

section Decoded

variable {visits : List (Visit RlpStakingField)} {value : TxContent}

/-- What an accepted change of a validator leaves of its keys. -/
theorem Decoded.changes (decoded : Decoded visits value)
    (edits : value.directive = DirectiveEditValidator) :
    ∃ (changes : Changes) (content : TxContent),
      keyPart content = (DirectiveEditValidator, .zero, .zero, .zero) ∧
      value = changes.content content := by
  cases decoded with
  | collectRewards collects unnamed fields =>
      rw [edits] at collects
      exact absurd collects (by decide)
  | delegate delegates unnamed fields =>
      rw [edits] at delegates
      exact absurd delegates (by decide)
  | create slots start fields =>
      rw [slots.directive_content] at edits
      exact absurd (edits.symm.trans (congrArg Prod.fst start)) (by decide)
  | edit changes start fields rates =>
      exact ⟨changes, _, start, rfl⟩

/-- What an accepted new validator leaves of its keys. -/
theorem Decoded.slots (decoded : Decoded visits value)
    (creates : value.directive = DirectiveCreateValidator) :
    ∃ (slots : Slots) (content : TxContent),
      content.blsKeyStr = .zero ∧
      value = slots.content content := by
  cases decoded with
  | collectRewards collects unnamed fields =>
      rw [creates] at collects
      exact absurd collects (by decide)
  | delegate delegates unnamed fields =>
      rw [creates] at delegates
      exact absurd delegates (by decide)
  | create slots start fields =>
      exact ⟨slots, _, congrArg (fun part => part.2.2.1) start, rfl⟩
  | edit changes start fields rates =>
      rw [changes.directive_content] at creates
      exact absurd (creates.symm.trans (congrArg Prod.fst start)) (by decide)

/-- The visits of an accepted message decode it. -/
theorem decoded_of_processStaking {buf : Region 1024} {bytes : List UInt8}
    (received : Received buf bytes) {left : TxContext}
    (returns : processStaking buf (stakingStart bytes.length) =
      .ok (0, left)) :
    Decoded (stakingVisits buf (stakingStart bytes.length)) left.content := by
  obtain ⟨visited, follows⟩ := stakingVisits_eq received returns
  rw [visited]
  exact decoded_of_follows follows

end Decoded

end LedgerOne
