import LedgerOne.Decoder.Rounds
import LedgerOne.Decoder.Visits

/-!
# The order of the fields

Each directive has its own fields in its own order.  The order is implicit in
the increments and the jumps of the `switch`; here it is written out, and every
accepted message visits the fields of its directive in just that order.
-/

namespace LedgerOne

open Layout

/-! ## The orders -/

/-- The fields of `CollectRewards`. -/
def collectRewardsOrder : List RlpStakingField :=
  [.content, .directive, .stakemessage, .delegatoraddr]

/-- The fields of `Delegate` and `Undelegate`. -/
def delegateOrder : List RlpStakingField :=
  collectRewardsOrder ++ [.validatoraddr, .amount]

/-- The first fields of an operation on a validator. -/
def validatorOrder : List RlpStakingField :=
  [.content, .directive, .stakemessage, .validatoraddr, .description, .name,
    .identity, .website, .securitycontact, .details]

/-- The fields of `CreateValidator` before the keys. -/
def createOrder : List RlpStakingField :=
  validatorOrder ++ [.commissionrates, .rate, .rateValue, .maxrate,
    .maxrateValue, .maxchangerate, .maxchangerateValue, .minselfdelegation,
    .maxtotaldelegation]

/-- The fields of `CreateValidator`. -/
def createValidatorOrder (keys signatures : Nat) : List RlpStakingField :=
  createOrder ++ .slotpubkeys :: List.replicate keys .blspubkey ++
    .blssigs :: List.replicate signatures .blssignature ++ [.amount]

/-- The fields of `EditValidator` before the keys. -/
def editOrder (rateGiven : Bool) : List RlpStakingField :=
  validatorOrder ++ .rate :: (if rateGiven then [.rateValue] else []) ++
    [.minselfdelegation, .maxtotaldelegation]

/-- The fields of `EditValidator`. -/
def editValidatorOrder (rateGiven : Bool) : List RlpStakingField :=
  editOrder rateGiven ++
    [.slotkeytoremove, .slotkeytoadd, .slotkeytoaddsignature, .editactive]

/-- The fields of visits. -/
def fieldsOf (visits : List (Visit RlpStakingField)) : List RlpStakingField :=
  visits.map Visit.tag

theorem fieldsOf_append (front back : List (Visit RlpStakingField)) :
    fieldsOf (front ++ back) = fieldsOf front ++ fieldsOf back :=
  List.map_append

/-- The length that is announced for a field when it is visited first. -/
def announced (field : RlpStakingField)
    (visits : List (Visit RlpStakingField)) : Nat :=
  ((visits.find? fun visit => visit.tag = field).map Visit.length).getD 0

theorem announced_append {field : RlpStakingField}
    {front back : List (Visit RlpStakingField)}
    (absent : field ∉ fieldsOf front) :
    announced field (front ++ back) = announced field back := by
  have none : front.find? (fun visit => visit.tag = field) = none := by
    rw [List.find?_eq_none]
    intro visit member same
    exact absent (List.mem_map.mpr ⟨visit, member, of_decide_eq_true same⟩)
  rw [announced, announced, List.find?_append, none, Option.none_or]

theorem announced_cons_self (field : RlpStakingField) (length : Nat)
    (bytes : List UInt8) (rest : List (Visit RlpStakingField)) :
    announced field (⟨field, length, bytes⟩ :: rest) = length := by
  simp [announced]

theorem fieldsOf_whole (field : RlpStakingField)
    (strings : List (List UInt8)) :
    fieldsOf (strings.map (Visit.whole field)) =
      List.replicate strings.length field := by
  rw [fieldsOf, List.map_map]
  exact List.map_const' ..

/-- The visits are those of a directive, in its order.  The numbers of keys
and signatures are computed from the lengths of their lists. -/
def InOrder (directive : Nat) (visits : List (Visit RlpStakingField)) : Prop :=
  (directive = DirectiveCollectRewards ∧
    fieldsOf visits = collectRewardsOrder) ∨
  (Staking.Delegates directive ∧ fieldsOf visits = delegateOrder) ∨
  (directive = DirectiveCreateValidator ∧
    1 ≤ announced .slotpubkeys visits / (MAX_BLS_ADDRESS + 1) ∧
    1 ≤ announced .blssigs visits / (MAX_SIG_ADDRESS + 2) ∧
    fieldsOf visits = createValidatorOrder
      (announced .slotpubkeys visits / (MAX_BLS_ADDRESS + 1))
      (announced .blssigs visits / (MAX_SIG_ADDRESS + 2))) ∨
  (directive = DirectiveEditValidator ∧
    fieldsOf visits =
      editValidatorOrder (decide (announced .rate visits ≠ 0)))

/-! ## What the visits leave -/

/-- The part of the content that decides the order, and what the keys and the
status of a validator are written over. -/
def keyPart (content : TxContent) :
    Nat × Region 48 × Region 130 × Region 20 :=
  (content.directive, content.blsPubKey, content.blsKeyStr,
    content.destination)

/-- The content after the keys of a list are shown, from an index on. -/
def showKeys : List (List UInt8) -> Nat -> TxContent -> TxContent
  | [], _, content => content
  | key :: keys, index, content =>
      showKeys keys (index + 1)
        (Staking.showKey index (Slot.blsPubKey.putBytes key content))

/-- The visits of the keys and the signatures of a new validator, and of the
amount behind them. -/
structure Slots where
  keysLength : Nat
  keysBytes : List UInt8
  keys : List (List UInt8)
  sigsLength : Nat
  sigsBytes : List UInt8
  signatures : List (List UInt8)
  amountLength : Nat
  amountBytes : List UInt8
  some_keys : 1 ≤ keysLength / (MAX_BLS_ADDRESS + 1)
  length_keys : keys.length = keysLength / (MAX_BLS_ADDRESS + 1)
  some_signatures : 1 ≤ sigsLength / (MAX_SIG_ADDRESS + 2)
  length_signatures : signatures.length = sigsLength / (MAX_SIG_ADDRESS + 2)

def Slots.visits (slots : Slots) : List (Visit RlpStakingField) :=
  ⟨.slotpubkeys, slots.keysLength, slots.keysBytes⟩ ::
    (slots.keys.map (Visit.whole .blspubkey) ++
      ⟨.blssigs, slots.sigsLength, slots.sigsBytes⟩ ::
        (slots.signatures.map (Visit.whole .blssignature) ++
          [⟨.amount, slots.amountLength, slots.amountBytes⟩]))

/-- The content that they leave. -/
def Slots.content (slots : Slots) (content : TxContent) : TxContent :=
  Slot.value.putFinalInt slots.amountLength slots.amountBytes
    (Staking.setKeyCount slots.signatures.length
      (showKeys slots.keys 0
        (Staking.setKeyCount slots.keys.length content)))

/-- The visits of the keys of a changed validator, and of the status behind
them. -/
structure Changes where
  removed : List UInt8
  added : List UInt8
  signature : List UInt8
  statusLength : Nat
  statusBytes : List UInt8

def Changes.visits (changes : Changes) : List (Visit RlpStakingField) :=
  [.whole .slotkeytoremove changes.removed, .whole .slotkeytoadd changes.added,
    .whole .slotkeytoaddsignature changes.signature,
    ⟨.editactive, changes.statusLength, changes.statusBytes⟩]

/-- The content after a key is shown behind its caption. -/
def captioned (start : Nat) (caption : List UInt8) (key : List UInt8)
    (content : TxContent) : TxContent :=
  Staking.showKeyAt (start + caption.length)
    (Slot.blsPubKey.putBytes key (Staking.showText start caption content))

/-- The content that they leave. -/
def Changes.content (changes : Changes) (content : TxContent) : TxContent :=
  Staking.showStatus
    (Slot.fromShard.putShard changes.statusLength changes.statusBytes
      (captioned 20 (ascii ",add:") changes.added
        (captioned 0 (ascii "remove:") changes.removed content)))

section Follows

variable {content value : TxContent} {visits : List (Visit RlpStakingField)}

theorem follows_amount (follows : (Staking.amount content).Follows visits value) :
    Staking.EndsWithAmount content.directive ∧
      ∃ length bytes, visits = [⟨.amount, length, bytes⟩] ∧
        value = Slot.value.putFinalInt length bytes content := by
  unfold Staking.amount at follows
  split at follows
  · next ends =>
    rw [follows_final_iff] at follows
    obtain ⟨length, bytes, visited, -, -, result⟩ := follows
    exact ⟨ends, length, bytes, visited, result⟩
  · rw [follows_field_iff] at follows
    obtain ⟨_, _, -, -, later⟩ := follows
    exact absurd later not_follows_refuse

theorem follows_signatures {left : Nat}
    (follows : (Staking.signatures content left).Follows visits value) :
    ∃ (signatures : List (List UInt8)) (rest : List (Visit RlpStakingField)),
      visits = signatures.map (Visit.whole .blssignature) ++ rest ∧
      signatures.length = left ∧
      (Staking.amount content).Follows rest value := by
  induction left generalizing visits with
  | zero => exact ⟨[], visits, rfl, rfl, follows⟩
  | succ left inductionHypothesis =>
      rw [Staking.signatures, follows_field_iff] at follows
      obtain ⟨bytes, rest, rfl, -, later⟩ := follows
      obtain ⟨signatures, last, rfl, count, amount⟩ :=
        inductionHypothesis later
      exact ⟨bytes :: signatures, last, rfl, by simp [count], amount⟩

theorem follows_keys {index left : Nat}
    (follows : (Staking.keys content index left).Follows visits value) :
    ∃ (keys : List (List UInt8)) (rest : List (Visit RlpStakingField)),
      visits = keys.map (Visit.whole .blspubkey) ++ rest ∧
      keys.length = left ∧
      (Staking.blssigs (showKeys keys index content)).Follows rest value := by
  induction left generalizing visits content index with
  | zero => exact ⟨[], visits, rfl, rfl, follows⟩
  | succ left inductionHypothesis =>
      rw [Staking.keys, follows_field_iff] at follows
      obtain ⟨bytes, rest, rfl, -, later⟩ := follows
      obtain ⟨keys, last, rfl, count, signatures⟩ := inductionHypothesis later
      exact ⟨bytes :: keys, last, rfl, by simp [count], signatures⟩

/-- Lists of keys and signatures with nothing in them lead nowhere. -/
theorem follows_slotpubkeys
    (follows : (Staking.slotpubkeys content).Follows visits value) :
    ∃ slots : Slots, visits = slots.visits ∧ value = slots.content content := by
  rw [Staking.slotpubkeys, follows_enter_iff] at follows
  obtain ⟨keysLength, keysBytes, afterKeys, rfl, follows⟩ := follows
  have someKeys : 1 ≤ keysLength / (MAX_BLS_ADDRESS + 1) := by
    by_contra none
    rw [Nat.lt_one_iff.mp (Nat.not_le.mp none), Staking.blspubkey] at follows
    exact not_follows_drain follows
  rw [Staking.blspubkey_of_pos _ someKeys] at follows
  obtain ⟨keys, afterKeys, rfl, keysCount, sigs⟩ := follows_keys follows
  rw [Staking.blssigs, follows_enter_iff] at sigs
  obtain ⟨sigsLength, sigsBytes, afterSigs, rfl, sigs⟩ := sigs
  have someSigs : 1 ≤ sigsLength / (MAX_SIG_ADDRESS + 2) := by
    by_contra none
    rw [Nat.lt_one_iff.mp (Nat.not_le.mp none), Staking.blssignature] at sigs
    exact not_follows_drain sigs
  rw [Staking.blssignature_of_pos _ someSigs] at sigs
  obtain ⟨signatures, afterSigs, rfl, sigsCount, amount⟩ :=
    follows_signatures sigs
  obtain ⟨-, length, bytes, rfl, result⟩ := follows_amount amount
  refine ⟨⟨keysLength, keysBytes, keys, sigsLength, sigsBytes, signatures,
    length, bytes, someKeys, keysCount, someSigs, sigsCount⟩, rfl, ?_⟩
  rw [result, Slots.content, sigsCount, keysCount]

theorem follows_slotkeytoremove
    (edits : content.directive = DirectiveEditValidator)
    (follows : (Staking.slotkeytoremove content).Follows visits value) :
    ∃ changes : Changes, visits = changes.visits ∧
      value = changes.content content := by
  rw [Staking.slotkeytoremove, follows_field_iff] at follows
  obtain ⟨removed, rest, rfl, -, follows⟩ := follows
  rw [Staking.slotkeytoadd, follows_field_iff] at follows
  obtain ⟨added, rest, rfl, -, follows⟩ := follows
  rw [if_pos (by exact edits), Staking.slotkeytoaddsignature,
    follows_field_iff] at follows
  obtain ⟨signature, rest, rfl, -, follows⟩ := follows
  rw [Staking.editactive, follows_final_iff] at follows
  obtain ⟨length, bytes, rfl, -, -, result⟩ := follows
  exact ⟨⟨removed, added, signature, length, bytes⟩, rfl, result⟩

/-- The limits of the delegation, before the keys. -/
theorem follows_minselfdelegation
    (follows : (Staking.minselfdelegation content).Follows visits value) :
    ∃ front rest after, visits = front ++ rest ∧
      fieldsOf front = [.minselfdelegation, .maxtotaldelegation] ∧
      keyPart after = keyPart content ∧
      ((content.directive = DirectiveCreateValidator ∧
          (Staking.slotpubkeys after).Follows rest value) ∨
        (content.directive = DirectiveEditValidator ∧
          (Staking.slotkeytoremove after).Follows rest value)) := by
  rw [Staking.minselfdelegation, follows_field_iff] at follows
  obtain ⟨least, rest, rfl, -, follows⟩ := follows
  rw [Staking.maxtotaldelegation, follows_field_iff] at follows
  obtain ⟨most, rest, rfl, -, follows⟩ := follows
  refine ⟨[.whole .minselfdelegation least, .whole .maxtotaldelegation most],
    rest, Slot.maxTotalDelegation.putInt most
      (Slot.minSelfDelegation.putInt least content), rfl, rfl, rfl, ?_⟩
  split_ifs at follows with creates edits
  · exact Or.inl ⟨creates, follows⟩
  · exact Or.inr ⟨edits, follows⟩
  · exact absurd follows not_follows_refuse

/-- The rates of a new validator. -/
theorem follows_commissionrates
    (notEdit : content.directive ≠ DirectiveEditValidator)
    (follows : (Staking.commissionrates content).Follows visits value) :
    ∃ front rest after, visits = front ++ rest ∧
      fieldsOf front = [.commissionrates, .rate, .rateValue, .maxrate,
        .maxrateValue, .maxchangerate, .maxchangerateValue] ∧
      keyPart after = keyPart content ∧
      (Staking.minselfdelegation after).Follows rest value := by
  rw [Staking.commissionrates, follows_enter_iff] at follows
  obtain ⟨_, _, rest, rfl, follows⟩ := follows
  rw [Staking.rate, follows_enter_iff] at follows
  obtain ⟨_, _, rest, rfl, follows⟩ := follows
  rw [if_neg (fun both => notEdit both.1), Staking.rateValue,
    follows_field_iff] at follows
  obtain ⟨rate, rest, rfl, -, follows⟩ := follows
  rw [if_neg notEdit, Staking.maxrate, follows_enter_iff] at follows
  obtain ⟨_, _, rest, rfl, follows⟩ := follows
  rw [Staking.maxrateValue, follows_field_iff] at follows
  obtain ⟨maxRate, rest, rfl, -, follows⟩ := follows
  rw [Staking.maxchangerate, follows_enter_iff] at follows
  obtain ⟨_, _, rest, rfl, follows⟩ := follows
  rw [Staking.maxchangerateValue, follows_field_iff] at follows
  obtain ⟨maxChangeRate, rest, rfl, -, follows⟩ := follows
  refine ⟨[_, _, .whole .rateValue rate, _, .whole .maxrateValue maxRate, _,
    .whole .maxchangerateValue maxChangeRate], rest, _, rfl, ?_, ?_, follows⟩
  · rfl
  · rfl

/-- The rate of a changed validator, with its value exactly when there is
one. -/
theorem follows_rate (edits : content.directive = DirectiveEditValidator)
    (follows : (Staking.rate content).Follows visits value) :
    ∃ length bytes front rest after,
      visits = ⟨.rate, length, bytes⟩ :: (front ++ rest) ∧
      fieldsOf front = (if length ≠ 0 then [.rateValue] else []) ∧
      keyPart after = keyPart content ∧
      (Staking.minselfdelegation after).Follows rest value := by
  rw [Staking.rate, follows_enter_iff] at follows
  obtain ⟨length, bytes, rest, rfl, follows⟩ := follows
  by_cases unset : length = 0
  · rw [if_pos ⟨edits, unset⟩] at follows
    exact ⟨length, bytes, [], rest, content, rfl, by simp [unset, fieldsOf],
      rfl, follows⟩
  · rw [if_neg (fun both => unset both.2), Staking.rateValue,
      follows_field_iff] at follows
    obtain ⟨rate, rest, rfl, -, follows⟩ := follows
    rw [if_pos edits] at follows
    refine ⟨length, bytes, [.whole .rateValue rate], rest, _, rfl, ?_, ?_,
      follows⟩
    · simp [unset, fieldsOf, Visit.whole]
    · rfl

/-- The validator and its description. -/
theorem follows_validatoraddr
    (describes : ¬Staking.Delegates content.directive)
    (follows : (Staking.validatoraddr content).Follows visits value) :
    ∃ front rest after, visits = front ++ rest ∧
      fieldsOf front = [.validatoraddr, .description, .name, .identity,
        .website, .securitycontact, .details] ∧
      keyPart after = keyPart content ∧
      (if content.directive = DirectiveEditValidator then Staking.rate after
        else Staking.commissionrates after).Follows rest value := by
  rw [Staking.validatoraddr, follows_field_iff] at follows
  obtain ⟨address, rest, rfl, -, follows⟩ := follows
  rw [if_neg describes, Staking.description, follows_enter_iff] at follows
  obtain ⟨_, _, rest, rfl, follows⟩ := follows
  rw [Staking.name, follows_field_iff] at follows
  obtain ⟨name, rest, rfl, -, follows⟩ := follows
  rw [Staking.identity, follows_field_iff] at follows
  obtain ⟨identity, rest, rfl, -, follows⟩ := follows
  rw [Staking.website, follows_field_iff] at follows
  obtain ⟨website, rest, rfl, -, follows⟩ := follows
  rw [Staking.securitycontact, follows_field_iff] at follows
  obtain ⟨contact, rest, rfl, -, follows⟩ := follows
  rw [Staking.details, follows_field_iff] at follows
  obtain ⟨details, rest, rfl, -, follows⟩ := follows
  refine ⟨[.whole .validatoraddr address, _, .whole .name name,
    .whole .identity identity, .whole .website website,
    .whole .securitycontact contact, .whole .details details], rest,
    Slot.name.putBytes name (Staking.clearName
      (Slot.validatorAddress.putBytes address content)), rfl, ?_, ?_, follows⟩
  · rfl
  · rfl

end Follows

/-! ## Accepted messages -/

/-- How a message that is accepted is visited and what it leaves. -/
inductive Decoded : List (Visit RlpStakingField) -> TxContent -> Prop
  | collectRewards {visits value}
      (directive : value.directive = DirectiveCollectRewards)
      (unnamed : value.name = .zero)
      (fields : fieldsOf visits = collectRewardsOrder) : Decoded visits value
  | delegate {visits value}
      (directive : Staking.Delegates value.directive)
      (unnamed : value.name = .zero)
      (fields : fieldsOf visits = delegateOrder) : Decoded visits value
  | create {front content} (slots : Slots)
      (start : keyPart content = (DirectiveCreateValidator, .zero, .zero, .zero))
      (fields : fieldsOf front = createOrder) :
      Decoded (front ++ slots.visits) (slots.content content)
  | edit {front length bytes back content} (changes : Changes)
      (start : keyPart content = (DirectiveEditValidator, .zero, .zero, .zero))
      (fields : fieldsOf front = validatorOrder)
      (rates : fieldsOf back =
        (if length ≠ 0 then [.rateValue] else []) ++
          [.minselfdelegation, .maxtotaldelegation]) :
      Decoded (front ++ ⟨.rate, length, bytes⟩ :: (back ++ changes.visits))
        (changes.content content)

section Decoded

variable {content value : TxContent} {visits : List (Visit RlpStakingField)}

theorem directive_of_keyPart {before after : TxContent}
    (same : keyPart after = keyPart before) :
    after.directive = before.directive :=
  congrArg Prod.fst same

/-- The fields before the message. -/
theorem follows_message (follows : (Staking.message .zero).Follows visits value) :
    ∃ front rest content, visits = front ++ rest ∧
      fieldsOf front = [.content, .directive, .stakemessage] ∧
      keyPart content = (content.directive, .zero, .zero, .zero) ∧
      content.name = .zero ∧
      (if Staking.NamesValidatorFirst content.directive then
          Staking.validatoraddr content
        else Staking.delegatoraddr content).Follows rest value := by
  rw [Staking.message, follows_enter_iff] at follows
  obtain ⟨_, _, rest, rfl, follows⟩ := follows
  rw [Staking.directive, follows_field_iff] at follows
  obtain ⟨directive, rest, rfl, -, follows⟩ := follows
  rw [Staking.stakemessage, follows_enter_iff] at follows
  obtain ⟨_, _, rest, rfl, follows⟩ := follows
  refine ⟨[_, .whole .directive directive, _], rest, _, rfl, ?_, ?_, ?_,
    follows⟩
  · rfl
  · unfold putDirective
    split <;> rfl
  · unfold putDirective
    split <;> rfl

/-- Without a known directive no message is accepted. -/
theorem follows_describing
    (describes : ¬Staking.Delegates content.directive)
    (follows : (Staking.validatoraddr content).Follows visits value) :
    Staking.NamesValidatorFirst content.directive := by
  obtain ⟨_, rest, after, -, -, kept, follows⟩ :=
    follows_validatoraddr describes follows
  by_cases edits : content.directive = DirectiveEditValidator
  · exact Or.inr edits
  · rw [if_neg edits] at follows
    obtain ⟨_, rest, last, -, -, same, follows⟩ := follows_commissionrates
      (by rwa [directive_of_keyPart kept]) follows
    have same := (directive_of_keyPart same).trans (directive_of_keyPart kept)
    obtain ⟨_, _, _, -, -, -, ⟨creates, -⟩ | ⟨edit, -⟩⟩ :=
      follows_minselfdelegation follows
    · exact Or.inl (same.symm.trans creates)
    · exact absurd (same.symm.trans edit) edits

theorem decoded_create {front : List (Visit RlpStakingField)}
    (start : keyPart content = (content.directive, .zero, .zero, .zero))
    (fields : fieldsOf front = [.content, .directive, .stakemessage])
    (creates : content.directive = DirectiveCreateValidator)
    (follows : (Staking.validatoraddr content).Follows visits value) :
    Decoded (front ++ visits) value := by
  have notEdit : content.directive ≠ DirectiveEditValidator := by
    rw [creates]
    decide
  obtain ⟨named, rest, first, rfl, names, kept, follows⟩ :=
    follows_validatoraddr (by rw [creates]; decide) follows
  rw [if_neg notEdit] at follows
  obtain ⟨rates, rest, second, rfl, rateFields, same, follows⟩ :=
    follows_commissionrates (by rwa [directive_of_keyPart kept]) follows
  have same := same.trans kept
  obtain ⟨limits, rest, third, rfl, limitFields, last,
    ⟨-, follows⟩ | ⟨edits, -⟩⟩ := follows_minselfdelegation follows
  · obtain ⟨slots, rfl, rfl⟩ := follows_slotpubkeys follows
    have decoded := Decoded.create slots
      (((last.trans same).trans start).trans (by rw [creates]))
      (show fieldsOf (front ++ named ++ rates ++ limits) = createOrder by
        simp only [fieldsOf_append, fields, names, rateFields, limitFields]
        rfl)
    simpa only [List.append_assoc] using decoded
  · exact absurd ((directive_of_keyPart same).symm.trans edits) notEdit

theorem decoded_edit {front : List (Visit RlpStakingField)}
    (start : keyPart content = (content.directive, .zero, .zero, .zero))
    (fields : fieldsOf front = [.content, .directive, .stakemessage])
    (edits : content.directive = DirectiveEditValidator)
    (follows : (Staking.validatoraddr content).Follows visits value) :
    Decoded (front ++ visits) value := by
  obtain ⟨named, rest, first, rfl, names, kept, follows⟩ :=
    follows_validatoraddr (by rw [edits]; decide) follows
  rw [if_pos edits] at follows
  obtain ⟨length, bytes, rates, rest, second, rfl, rateFields, same, follows⟩ :=
    follows_rate (by rw [directive_of_keyPart kept, edits]) follows
  have same := same.trans kept
  obtain ⟨limits, rest, third, rfl, limitFields, last,
    ⟨creates, -⟩ | ⟨-, follows⟩⟩ := follows_minselfdelegation follows
  · rw [directive_of_keyPart same, edits] at creates
    exact absurd creates (by decide)
  · obtain ⟨changes, rfl, rfl⟩ := follows_slotkeytoremove
      (by rw [directive_of_keyPart (last.trans same), edits]) follows
    have decoded := @Decoded.edit (front ++ named) length bytes (rates ++ limits)
      third changes
      (((last.trans same).trans start).trans (by rw [edits]))
      (by rw [fieldsOf_append, fields, names]; rfl)
      (by rw [fieldsOf_append, rateFields, limitFields])
    simpa only [List.append_assoc, List.cons_append] using decoded

/-- Every message that is accepted is one of a known directive. -/
theorem decoded_of_follows
    (follows : (Staking.message .zero).Follows visits value) :
    Decoded visits value := by
  obtain ⟨front, rest, content, rfl, fields, start, unnamed, follows⟩ :=
    follows_message follows
  split at follows
  · next first =>
    obtain creates | edits := first
    · exact decoded_create start fields creates follows
    · exact decoded_edit start fields edits follows
  · next notFirst =>
    unfold Staking.delegatoraddr at follows
    split at follows
    · next collects =>
      rw [follows_final_iff] at follows
      obtain ⟨length, bytes, rfl, -, -, rfl⟩ := follows
      apply Decoded.collectRewards
      · exact collects
      · exact unnamed
      · rw [fieldsOf_append, fields]
        rfl
    · rw [follows_field_iff] at follows
      obtain ⟨delegator, rest, rfl, -, follows⟩ := follows
      by_cases delegates : Staking.Delegates content.directive
      · rw [Staking.validatoraddr, follows_field_iff] at follows
        obtain ⟨validator, rest, rfl, -, follows⟩ := follows
        rw [if_pos (by exact delegates)] at follows
        obtain ⟨-, length, bytes, rfl, rfl⟩ := follows_amount follows
        apply Decoded.delegate
        · unfold Slot.putFinalInt
          split <;> exact delegates
        · unfold Slot.putFinalInt
          split <;> exact unnamed
        · rw [fieldsOf_append, fields]
          rfl
      · exact absurd (follows_describing (by exact delegates) follows) notFirst

/-- Showing keys does not change the directive. -/
theorem directive_showKeys (keys : List (List UInt8)) (index : Nat)
    (content : TxContent) :
    (showKeys keys index content).directive = content.directive := by
  induction keys generalizing index content with
  | nil => rfl
  | cons key keys inductionHypothesis =>
      rw [showKeys, inductionHypothesis, Staking.showKey]
      split <;> rfl

theorem Slots.directive_content (slots : Slots) (content : TxContent) :
    (slots.content content).directive = content.directive :=
  calc (slots.content content).directive
      = (showKeys slots.keys 0
          (Staking.setKeyCount slots.keys.length content)).directive := by
        unfold Slots.content Slot.putFinalInt
        split <;> rfl
    _ = content.directive := directive_showKeys _ _ _

/-- Showing a key behind its caption does not change the directive. -/
theorem directive_captioned (start : Nat) (caption key : List UInt8)
    (content : TxContent) :
    (captioned start caption key content).directive = content.directive :=
  rfl

theorem Changes.directive_content (changes : Changes) (content : TxContent) :
    (changes.content content).directive = content.directive := by
  have kept : ∀ (length : Nat) (bytes : List UInt8) (content : TxContent),
      (Staking.showStatus
        (Slot.fromShard.putShard length bytes content)).directive =
          content.directive := by
    intro length bytes content
    unfold Slot.putShard
    split <;> rfl
  rw [Changes.content, kept, directive_captioned, directive_captioned]

theorem Slots.fieldsOf_visits (slots : Slots) :
    fieldsOf slots.visits =
      .slotpubkeys :: (List.replicate slots.keys.length .blspubkey ++
        .blssigs :: (List.replicate slots.signatures.length .blssignature ++
          [.amount])) := by
  rw [← fieldsOf_whole, ← fieldsOf_whole]
  simp only [Slots.visits, fieldsOf, List.map_cons, List.map_append,
    List.map_nil]

/-- A new validator announces its keys and signatures once each. -/
theorem Slots.announced_visits (slots : Slots)
    {front : List (Visit RlpStakingField)}
    (fields : fieldsOf front = createOrder) :
    announced .slotpubkeys (front ++ slots.visits) = slots.keysLength ∧
      announced .blssigs (front ++ slots.visits) = slots.sigsLength := by
  constructor
  · rw [announced_append (by rw [fields]; decide), Slots.visits,
      announced_cons_self]
  · rw [announced_append (by rw [fields]; decide), Slots.visits,
      ← List.singleton_append, announced_append (by simp [fieldsOf]),
      announced_append (by
        rw [fieldsOf_whole, List.mem_replicate]
        simp),
      announced_cons_self]

/-- The visits of an accepted message are in the order of its directive. -/
theorem Decoded.inOrder (decoded : Decoded visits value) :
    InOrder value.directive visits := by
  cases decoded with
  | collectRewards directive unnamed fields =>
      exact Or.inl ⟨directive, fields⟩
  | delegate directive unnamed fields =>
      exact Or.inr (Or.inl ⟨directive, fields⟩)
  | create slots start fields =>
      right; right; left
      obtain ⟨keys, sigs⟩ := slots.announced_visits fields
      rw [keys, sigs, slots.directive_content, ← slots.length_keys,
        ← slots.length_signatures]
      refine ⟨congrArg Prod.fst start, ?_, ?_, ?_⟩
      · exact slots.length_keys ▸ slots.some_keys
      · exact slots.length_signatures ▸ slots.some_signatures
      · rw [fieldsOf_append, fields, slots.fieldsOf_visits,
          createValidatorOrder]
        simp only [List.append_assoc, List.cons_append]
  | @edit front length bytes back content changes start fields rates =>
      right; right; right
      refine ⟨(changes.directive_content content).trans
        (congrArg Prod.fst start), ?_⟩
      rw [announced_append (by rw [fields]; decide), announced_cons_self,
        fieldsOf_append, fields]
      show validatorOrder ++ .rate :: fieldsOf (back ++ changes.visits) = _
      rw [fieldsOf_append, rates, editValidatorOrder, editOrder]
      by_cases unset : length = 0
      · simp [unset, Changes.visits, fieldsOf, Visit.whole]
      · simp [unset, Changes.visits, fieldsOf, Visit.whole]

end Decoded

/-! ## One order for all directives -/

/-- The fields come in the order by which the rounds of the loop advance. -/
def Advances (fields : List RlpStakingField) : Prop :=
  fields.Pairwise fun earlier later => earlier.place ≤ later.place

instance (fields : List RlpStakingField) : Decidable (Advances fields) :=
  inferInstanceAs (Decidable (List.Pairwise _ fields))

/-- Fields may be repeated in their place. -/
theorem Advances.repeated {fields : List RlpStakingField}
    (advances : Advances fields) (count : RlpStakingField -> Nat) :
    Advances (fields.flatMap fun field =>
      List.replicate (count field) field) := by
  induction fields with
  | nil => exact List.Pairwise.nil
  | cons field fields inductionHypothesis =>
      obtain ⟨first, rest⟩ := List.pairwise_cons.mp advances
      rw [List.flatMap_cons]
      refine List.pairwise_append.mpr ⟨List.pairwise_replicate.mpr
        (Or.inr le_rfl), inductionHypothesis rest, ?_⟩
      intro earlier inFront later inBack
      obtain ⟨other, member, repeated⟩ := List.mem_flatMap.mp inBack
      rw [(List.mem_replicate.mp inFront).2, (List.mem_replicate.mp repeated).2]
      exact first other member

theorem advances_createValidatorOrder (keys signatures : Nat) :
    Advances (createValidatorOrder keys signatures) := by
  have once : Advances (createOrder ++ [.slotpubkeys, .blspubkey, .blssigs,
      .blssignature, .amount]) := by decide
  have repeated := once.repeated fun field =>
    if field = .blspubkey then keys
    else if field = .blssignature then signatures else 1
  rw [createValidatorOrder, List.append_assoc, List.append_assoc]
  rw [List.flatMap_append] at repeated
  exact repeated

/-- Whatever the directive, the fields of a message that is accepted come in
one order. -/
theorem InOrder.advances {directive : Nat}
    {visits : List (Visit RlpStakingField)}
    (ordered : InOrder directive visits) : Advances (fieldsOf visits) := by
  obtain ⟨-, fields⟩ | ⟨-, fields⟩ | ⟨-, -, -, fields⟩ | ⟨-, fields⟩ := ordered
  · rw [fields]
    decide
  · rw [fields]
    decide
  · rw [fields]
    exact advances_createValidatorOrder _ _
  · rw [fields]
    cases decide (announced .rate visits ≠ 0) <;> decide

/-! ## Accepted messages visit the fields of their directive -/

/-- Every byte string on which `processStaking` returns 0 is of a known
directive, and the fields visited are just those of this directive, in its
order. -/
theorem stakingVisits_inOrder {buf : Region 1024} {bytes : List UInt8}
    (received : Received buf bytes) {left : TxContext}
    (returns : processStaking buf (stakingStart bytes.length) =
      .ok (0, left)) :
    InOrder left.content.directive
      (stakingVisits buf (stakingStart bytes.length)) := by
  obtain ⟨visited, follows⟩ := stakingVisits_eq received returns
  rw [visited]
  exact (decoded_of_follows follows).inOrder

/-- A message that collects the rewards of a delegator. -/
def collectRewardsBytes : List UInt8 :=
  [0xd7, 0x04, 0xd5, 0x94] ++ List.replicate 20 0x5a

theorem stakingVisits_inOrder_collectRewards :
    ∃ left, processStaking (Region.ofList collectRewardsBytes)
        (stakingStart 24) = .ok (0, left) ∧
      InOrder left.content.directive
        (stakingVisits (Region.ofList collectRewardsBytes)
          (stakingStart 24)) := by
  obtain ⟨⟨code, left⟩, returns, rfl⟩ := exists_of_view
    (fun result : Int × TxContext => result.1)
    (show (processStaking (Region.ofList collectRewardsBytes)
      (stakingStart 24)).toOption.map _ = some 0 by decide +kernel)
  exact ⟨left, returns, stakingVisits_inOrder
    (received_ofList (by decide : collectRewardsBytes.length ≤ 1024)) returns⟩

end LedgerOne
