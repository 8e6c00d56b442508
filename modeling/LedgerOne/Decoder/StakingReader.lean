import LedgerOne.Decoder.Staking
import LedgerOne.Decoder.Start

/-!
# What `processStaking` reads

The main loop of `processStaking` reads the layout of a staking operation:
every state of its machine follows the node of the layout that is expected
there.
-/

namespace LedgerOne

open Rlp Layout

/-- The context is in a state that expects a layout. -/
def ExpectsStaking (context : TxContext)
    (layout : Layout RlpStakingField TxContent) : Prop :=
  layout = Staking.expected context.content context.currentBlsKeyIndex
      context.stakeCurrentField ∧
    layout ≠ .refuse

/-- The end of `processStaking`. -/
def stakingDone (context : TxContext) : Bool :=
  context.stakeCurrentField = .done

/-- `processStaking` as a reader of the staking layout. -/
abbrev stakingReader (buf : Region 1024) :
    Realization Fault TxContext (Int × TxContext) RlpStakingField TxContent :=
  parserRealization buf stakingDone (handleStakingField buf) ExpectsStaking
    LeavesContent

section Steps

variable {buf : Region 1024} {state : TxContext} {stream : List UInt8}
  {isList : Bool} {length : Nat} {body rest : List UInt8}
  {handled copied : TxContext} {tx : RlpTxField}
  {field : RlpStakingField} {keyIndex : Nat} {content after : TxContent}

/-- Between two fields the layout of the current one is expected. -/
theorem Handled.expectsStaking
    (facts : Handled buf handled tx field keyIndex content rest)
    (goesOn : field ≠ .done)
    (reads : Staking.expected content keyIndex field ≠ .refuse) :
    Clean buf handled rest ∧ stakingDone handled = false ∧
      ExpectsStaking handled (Staking.expected content keyIndex field) := by
  refine ⟨facts.clean, ?_, ?_, reads⟩
  · simpa [stakingDone, facts.stakeCurrentField] using goesOn
  · rw [facts.content, facts.currentBlsKeyIndex, facts.stakeCurrentField]

/-- A jump of the machine between two fields. -/
theorem Handled.goTo
    (facts : Handled buf handled tx field keyIndex content rest)
    (target : RlpStakingField) :
    Handled buf (handled.goTo target) tx target keyIndex content rest where
  clean := ⟨facts.clean.holds.of_eq rfl rfl, facts.clean.idle,
    facts.clean.rlpBufferPos⟩
  txCurrentField := facts.txCurrentField
  stakeCurrentField := rfl
  currentBlsKeyIndex := facts.currentBlsKeyIndex
  content := facts.content

/-- A change of the content between two fields. -/
theorem Handled.setContent
    (facts : Handled buf handled tx field keyIndex content rest)
    (change : TxContent -> TxContent) :
    Handled buf { handled with content := change handled.content } tx field
      keyIndex (change content) rest where
  clean := ⟨facts.clean.holds.of_eq rfl rfl, facts.clean.idle,
    facts.clean.rlpBufferPos⟩
  txCurrentField := facts.txCurrentField
  stakeCurrentField := facts.stakeCurrentField
  currentBlsKeyIndex := facts.currentBlsKeyIndex
  content := congrArg change facts.content

/-- A header that is skipped leaves the machine between two fields. -/
theorem Ready.entered {ready reached : TxContext}
    (atField : Ready buf state ready length body)
    (kept : reached.workBuffer = ready.workBuffer ∧
      reached.commandLength = ready.commandLength ∧
      reached.rlpBufferPos = ready.rlpBufferPos)
    (idle : reached.processingField = false) :
    Clean buf reached body where
  holds := atField.holds.of_eq kept.1 kept.2.1
  idle := idle
  rlpBufferPos := kept.2.2.trans atField.rlpBufferPos

/-- A cut-off field after which the machine is not at its end. -/
theorem unfinished_again (facts : Copied buf state copied after length [])
    {left : TxContext} (kept : left.commandLength = copied.commandLength)
    (goesOn : left.stakeCurrentField ≠ .done) :
    Unfinished stakingDone (.again left) :=
  Or.inl ⟨left, rfl, kept.trans facts.holds.commandLength_eq, by
    simpa [stakingDone] using goesOn⟩

/-- A handler of `processStaking` that takes one field and moves on reads one
item of the layout. -/
theorem readsItem_of_handleStaking {capacity : Option Nat}
    {next : List UInt8 -> Layout RlpStakingField TxContent}
    (out : Option Store) (record : TxContext -> TxContext)
    (prepare : TxContent -> TxContent)
    (post : TxContext -> Flow TxContext (Int × TxContext))
    (clean : Clean buf state stream) (goesOn : stakingDone state = false)
    (decoded : readHeader stream = .header isList length body)
    (handles : ∀ ready, Ready buf state ready length body ->
      handleStakingField buf ready =
        (takeField buf out record (ready.prepared prepare)).map post)
    (overruns : exceeds capacity (body.take length).length = true ->
      Overruns out (body.take length) (prepare state.content))
    (stores : exceeds capacity (body.take length).length = false ->
      Stores out length (body.take length) (prepare state.content) after)
    (recorded : length ≤ body.length -> ∀ copied,
      Copied buf state copied after length (body.drop length) ->
      Handled buf { record copied with processingField := false }
        tx field keyIndex content (body.drop length))
    (moves : length ≤ body.length -> ∀ handled,
      Handled buf handled tx field keyIndex content (body.drop length) ->
      (∃ reached tx field keyIndex content,
        post handled = .again reached ∧
        Handled buf reached tx field keyIndex content (body.drop length) ∧
        field ≠ .done ∧
        next (body.take length) = Staking.expected content keyIndex field ∧
        next (body.take length) ≠ .refuse) ∨
      (next (body.take length) = .refuse ∧
        ∃ left, post handled = .exit (-1, left)))
    (cutOff : ∀ copied, Copied buf state copied after length [] ->
      Unfinished stakingDone (post copied)) :
    (stakingReader buf).ReadsItem state capacity next length body := by
  refine readsItem_of_handle record prepare post clean goesOn decoded handles
    overruns stores ?_ cutOff
  intro enough copied facts
  obtain ⟨reached, tx, field, keyIndex, content, again, facts, notDone,
      continues, reads⟩ | ⟨refuse, left, gaveUp⟩ :=
    moves enough _ (recorded enough copied facts)
  · refine Or.inl ⟨reached, again, ?_⟩
    rw [continues] at reads ⊢
    exact facts.expectsStaking notDone reads
  · exact Or.inr ⟨refuse, Or.inr ⟨-1, left, gaveUp, by decide⟩⟩

theorem continueWith_do (taken : Except Fault TxContext)
    (finish : TxContext -> TxContext) :
    continueWith (do let handled ← taken; return finish handled) =
      taken.map fun handled => .again (finish handled) := by
  cases taken <;> rfl

theorem map_do (taken : Except Fault TxContext)
    (finish : TxContext -> TxContext)
    (post : TxContext -> Flow TxContext (Int × TxContext)) :
    (do let handled ← taken; return finish handled).map post =
      taken.map fun handled => post (finish handled) := by
  cases taken <;> rfl

/-- A handler that only advances to the next state. -/
theorem readsItem_of_advance {capacity : Option Nat}
    {next : List UInt8 -> Layout RlpStakingField TxContent}
    (out : Option Store) (record : TxContext -> TxContext)
    (prepare : TxContent -> TxContent)
    (clean : Clean buf state stream) (goesOn : stakingDone state = false)
    (decoded : readHeader stream = .header isList length body)
    (handles : ∀ ready, Ready buf state ready length body ->
      handleStakingField buf ready =
        continueWith (takeField buf out record (ready.prepared prepare)))
    (overruns : exceeds capacity (body.take length).length = true ->
      Overruns out (body.take length) (prepare state.content))
    (stores : exceeds capacity (body.take length).length = false ->
      Stores out length (body.take length) (prepare state.content) after)
    (recorded : length ≤ body.length -> ∀ copied,
      Copied buf state copied after length (body.drop length) ->
      Handled buf { record copied with processingField := false }
        tx field keyIndex content (body.drop length))
    (notDone : field ≠ .done)
    (continues : length ≤ body.length ->
      next (body.take length) = Staking.expected content keyIndex field)
    (reads : Staking.expected content keyIndex field ≠ .refuse) :
    (stakingReader buf).ReadsItem state capacity next length body := by
  refine readsItem_of_handleStaking out record prepare .again clean goesOn
    decoded handles overruns stores recorded ?_ ?_
  · intro enough handled facts
    exact Or.inl ⟨handled, tx, field, keyIndex, content, rfl, facts, notDone,
      continues enough, by rwa [continues enough]⟩
  · intro copied facts
    refine unfinished_again facts rfl ?_
    rw [facts.stakeCurrentField]
    simpa [stakingDone] using goesOn

/-- A handler of `processStaking` that skips a header enters it. -/
theorem enters_of_handleStaking
    (next : Nat -> Layout RlpStakingField TxContent)
    (clean : Clean buf state stream) (goesOn : stakingDone state = false)
    (decoded : readHeader stream = .header isList length body)
    (handles : ∀ ready, Ready buf state ready length body ->
      ∃ reached, handleStakingField buf ready = .ok (.again reached) ∧
        Clean buf reached body ∧
        reached.stakeCurrentField ≠ .done ∧
        next length = Staking.expected reached.content
          reached.currentBlsKeyIndex reached.stakeCurrentField ∧
        next length ≠ .refuse) :
    ∃ reached, (stakingReader buf).body.Round state reached ∧
      (stakingReader buf).At reached (next length) body := by
  refine enters_of_handle next clean goesOn decoded fun ready atField => ?_
  obtain ⟨reached, again, clean, notDone, continues, reads⟩ :=
    handles ready atField
  exact ⟨reached, again, clean, by simpa [stakingDone] using notDone,
    continues, reads⟩

end Steps

namespace Staking

variable (content : TxContent)

theorem amount_ne_refuse : amount content ≠ .refuse := by
  unfold amount
  split <;> simp

theorem signatures_ne_refuse (left : Nat) :
    signatures content left ≠ .refuse := by
  cases left with
  | zero => exact amount_ne_refuse content
  | succ left => simp [signatures]

theorem blssignature_ne_refuse (count : Nat) :
    blssignature content count ≠ .refuse := by
  cases count with
  | zero => simp [blssignature]
  | succ count => exact signatures_ne_refuse content _

theorem keys_ne_refuse (index left : Nat) :
    keys content index left ≠ .refuse := by
  cases left <;> simp [keys, blssigs]

theorem blspubkey_ne_refuse (index count : Nat) :
    blspubkey content index count ≠ .refuse := by
  cases count with
  | zero => simp [blspubkey]
  | succ count => exact keys_ne_refuse content index _

theorem delegatoraddr_ne_refuse : delegatoraddr content ≠ .refuse := by
  unfold delegatoraddr
  split <;> simp

end Staking

section Sound

variable {buf : Region 1024} {state : TxContext} {stream : List UInt8}
  {isList : Bool} {length : Nat} {body : List UInt8}

/-- The states of the machine that skip a header. -/
private theorem staking_enter {tag : RlpStakingField}
    {next : Nat -> Layout RlpStakingField TxContent}
    (entered : (stakingReader buf).At state (.enter tag next) stream)
    (decoded : readHeader stream = .header isList length body) :
    ∃ reached, (stakingReader buf).body.Round state reached ∧
      (stakingReader buf).At reached (next length) body := by
  obtain ⟨clean, goesOn, expects, _⟩ := entered
  cases field : state.stakeCurrentField <;> rw [field] at expects <;>
    try cases expects
  case amount =>
    simp only [Staking.expected, Staking.amount] at expects
    split at expects <;> cases expects
  case delegatoraddr =>
    simp only [Staking.expected, Staking.delegatoraddr] at expects
    split at expects <;> cases expects
  case blspubkey =>
    simp only [Staking.expected] at expects
    cases left : state.content.blsPubKeySize - state.currentBlsKeyIndex <;>
      rw [left] at expects <;> cases expects
  case blssignature =>
    simp only [Staking.expected] at expects
    cases left : state.content.blsPubKeySize - state.currentBlsKeyIndex <;>
      rw [left] at expects <;> cases expects
  case content =>
    refine enters_of_handleStaking (fun _ => Staking.directive state.content)
      clean goesOn decoded fun ready atField => ?_
    have staking := atField.same.stakeCurrentField
    refine ⟨processContent ready, by simp [handleStakingField, staking, field],
      atField.entered ⟨rfl, rfl, rfl⟩ rfl, ?_, ?_, by simp [Staking.directive]⟩
    · simp [processContent, advanceBoth, staking, field, RlpStakingField.next]
    · simp [processContent, advanceBoth, staking, field, RlpStakingField.next,
        atField.same.content, Staking.expected]
  case stakemessage =>
    refine enters_of_handleStaking
      (fun _ => if Staking.NamesValidatorFirst state.content.directive then
          Staking.validatoraddr state.content
        else Staking.delegatoraddr state.content)
      clean goesOn decoded fun ready atField => ?_
    have staking := atField.same.stakeCurrentField
    refine ⟨processStakingMessage ready,
      by simp [handleStakingField, staking, field],
      atField.entered ⟨rfl, rfl, rfl⟩ rfl, ?_, ?_, ?_⟩
    · simp only [processStakingMessage]
      split <;> simp
    · simp only [processStakingMessage, atField.same.content]
      split <;> rfl
    · split
      · simp [Staking.validatoraddr]
      · exact Staking.delegatoraddr_ne_refuse _
  case description =>
    refine enters_of_handleStaking (fun _ => Staking.name state.content)
      clean goesOn decoded fun ready atField => ?_
    have staking := atField.same.stakeCurrentField
    exact ⟨{ ready.goTo .name with processingField := false },
      by simp only [handleStakingField, staking, field],
      atField.entered ⟨rfl, rfl, rfl⟩ rfl, by simp [TxContext.goTo],
      by simp [TxContext.goTo, atField.same.content, Staking.expected],
      by simp [Staking.name]⟩
  case commissionrates =>
    refine enters_of_handleStaking (fun _ => Staking.rate state.content)
      clean goesOn decoded fun ready atField => ?_
    have staking := atField.same.stakeCurrentField
    exact ⟨{ ready.goTo .rate with processingField := false },
      by simp only [handleStakingField, staking, field],
      atField.entered ⟨rfl, rfl, rfl⟩ rfl, by simp [TxContext.goTo],
      by simp [TxContext.goTo, atField.same.content, Staking.expected],
      by simp [Staking.rate]⟩
  case rate =>
    refine enters_of_handleStaking
      (fun length =>
        if state.content.directive = DirectiveEditValidator ∧ length = 0 then
          Staking.minselfdelegation state.content
        else Staking.rateValue state.content)
      clean goesOn decoded fun ready atField => ?_
    have staking := atField.same.stakeCurrentField
    refine ⟨if state.content.directive = DirectiveEditValidator ∧ length = 0
        then (processDecimal ready).goTo .minselfdelegation
        else processDecimal ready, ?_, ?_, ?_, ?_, ?_⟩
    · simp only [handleStakingField, staking, field, processDecimal,
        atField.same.content, atField.currentFieldLength]
    · split <;> exact atField.entered ⟨rfl, rfl, rfl⟩ rfl
    · split <;>
        simp [TxContext.goTo, processDecimal, staking, field,
          RlpStakingField.next]
    · split <;> simp [TxContext.goTo, processDecimal, Staking.expected,
        RlpStakingField.next, staking, field, atField.same.content]
    · split
      · simp [Staking.minselfdelegation]
      · simp [Staking.rateValue]
  case maxrate =>
    refine enters_of_handleStaking (fun _ => Staking.maxrateValue state.content)
      clean goesOn decoded fun ready atField => ?_
    have staking := atField.same.stakeCurrentField
    exact ⟨processDecimal ready,
      by simp only [handleStakingField, staking, field],
      atField.entered ⟨rfl, rfl, rfl⟩ rfl,
      by simp [processDecimal, staking, field, RlpStakingField.next],
      by simp [processDecimal, staking, field, RlpStakingField.next,
        atField.same.content, Staking.expected],
      by simp [Staking.maxrateValue]⟩
  case maxchangerate =>
    refine enters_of_handleStaking
      (fun _ => Staking.maxchangerateValue state.content)
      clean goesOn decoded fun ready atField => ?_
    have staking := atField.same.stakeCurrentField
    exact ⟨processDecimal ready,
      by simp only [handleStakingField, staking, field],
      atField.entered ⟨rfl, rfl, rfl⟩ rfl,
      by simp [processDecimal, staking, field, RlpStakingField.next],
      by simp [processDecimal, staking, field, RlpStakingField.next,
        atField.same.content, Staking.expected],
      by simp [Staking.maxchangerateValue]⟩
  case slotpubkeys =>
    refine enters_of_handleStaking
      (fun length => Staking.blspubkey
        (Staking.setKeyCount (length / (MAX_BLS_ADDRESS + 1)) state.content) 0
        (length / (MAX_BLS_ADDRESS + 1)))
      clean goesOn decoded fun ready atField => ?_
    have staking := atField.same.stakeCurrentField
    exact ⟨{ ready.goTo .blspubkey with
        content := { ready.content with
          blsPubKeySize := ready.currentFieldLength / (MAX_BLS_ADDRESS + 1) }
        currentBlsKeyIndex := 0
        processingField := false },
      by simp only [handleStakingField, staking, field],
      atField.entered ⟨rfl, rfl, rfl⟩ rfl, by simp [TxContext.goTo],
      by simp [TxContext.goTo, atField.same.content, Staking.expected,
        Staking.setKeyCount, atField.currentFieldLength],
      Staking.blspubkey_ne_refuse _ _ _⟩
  case blssigs =>
    refine enters_of_handleStaking
      (fun length => Staking.blssignature
        (Staking.setKeyCount (length / (MAX_SIG_ADDRESS + 2)) state.content)
        (length / (MAX_SIG_ADDRESS + 2)))
      clean goesOn decoded fun ready atField => ?_
    have staking := atField.same.stakeCurrentField
    exact ⟨{ ready.goTo .blssignature with
        content := { ready.content with
          blsPubKeySize := ready.currentFieldLength / (MAX_SIG_ADDRESS + 2) }
        currentBlsKeyIndex := 0
        processingField := false },
      by simp only [handleStakingField, staking, field],
      atField.entered ⟨rfl, rfl, rfl⟩ rfl, by simp [TxContext.goTo],
      by simp [TxContext.goTo, atField.same.content, Staking.expected,
        Staking.setKeyCount, atField.currentFieldLength],
      Staking.blssignature_ne_refuse _ _⟩

theorem handle_name [Memory] {ready : TxContext}
    (atName : ready.stakeCurrentField = .name) :
    handleStakingField buf ready =
      continueWith (processName buf (ready.prepared Staking.clearName)) := by
  cases ready
  cases atName
  rfl

@[simp] theorem length_toHex (source : Region size) (digits : Nat) :
    (toHex source digits).length = 2 * ((digits + 1) / 2) := by
  simp [toHex, List.length_flatMap, Nat.mul_comm]

/-- A text inside the list of keys is written. -/
theorem writeBlsKeyStr_eq {offset : Nat} {bytes : List UInt8}
    (inside : offset + bytes.length ≤ BLS_KEY_STR_LEN)
    (content : TxContent) :
    writeBlsKeyStr offset bytes content =
      .ok (Staking.showText offset bytes content) := by
  rw [writeBlsKeyStr, Region.write?_eq_some content.blsKeyStr _ _ inside]
  rfl

/-- A shown key takes thirteen characters. -/
theorem writeBlsKeyStr_key {offset : Nat}
    (inside : offset + 13 ≤ BLS_KEY_STR_LEN) (content : TxContent) :
    writeBlsKeyStr offset (toHex content.blsPubKey 10 ++ ascii "...")
        content =
      .ok (Staking.showKeyAt offset content) := by
  refine writeBlsKeyStr_eq ?_ content
  rw [List.length_append, length_toHex]
  exact inside

/-- The content while the key to remove is read. -/
abbrev captionRemove : TxContent -> TxContent :=
  Staking.showText 0 (ascii "remove:")

/-- The content while the key to add is read. -/
abbrev captionAdd : TxContent -> TxContent :=
  Staking.showText 20 (ascii ",add:")

theorem handle_slotkeytoremove [Memory] {ready : TxContext}
    (atKey : ready.stakeCurrentField = .slotkeytoremove)
    (first : ready.currentFieldPos = 0) :
    handleStakingField buf ready =
      (takeField buf (some (storeBlsPubKey 0)) advanceStaking
        (ready.prepared captionRemove)).map fun handled =>
          .again { handled with
            content := Staking.showKeyAt 7 handled.content } := by
  cases ready
  cases atKey
  cases first
  simp only [handleStakingField, processSlotKeyToRemove,
    writeBlsKeyStr_eq (show 0 + (ascii "remove:").length ≤ BLS_KEY_STR_LEN by
      decide),
    writeBlsKeyStr_key (show 7 + 13 ≤ BLS_KEY_STR_LEN by decide)]
  exact continueWith_do _ fun handled =>
    { handled with content := Staking.showKeyAt 7 handled.content }

theorem handle_slotkeytoadd [Memory] {ready : TxContext}
    (atKey : ready.stakeCurrentField = .slotkeytoadd)
    (first : ready.currentFieldPos = 0) :
    handleStakingField buf ready =
      (takeField buf (some (storeBlsPubKey 0)) advanceStaking
        (ready.prepared captionAdd)).map fun handled =>
          if handled.content.directive = DirectiveEditValidator then
            .again ({ handled with
              content := Staking.showKeyAt 25 handled.content }.goTo
                .slotkeytoaddsignature)
          else .exit (-1, { handled with
            content := Staking.showKeyAt 25 handled.content }) := by
  cases ready
  cases atKey
  cases first
  simp only [handleStakingField, processSlotKeyToAdd,
    writeBlsKeyStr_eq (show 20 + (ascii ",add:").length ≤ BLS_KEY_STR_LEN by
      decide),
    writeBlsKeyStr_key (show 25 + 13 ≤ BLS_KEY_STR_LEN by decide)]
  exact map_do _ (fun handled => { handled with
    content := Staking.showKeyAt 25 handled.content }) fun shown =>
      if shown.content.directive = DirectiveEditValidator then
        .again (shown.goTo .slotkeytoaddsignature)
      else .exit (-1, shown)

/-- What the machine does after a key. -/
def keyRecorded (context : TxContext) : TxContext :=
  { context with
    content := Staking.showKey context.currentBlsKeyIndex context.content
    currentBlsKeyIndex := context.currentBlsKeyIndex + 1
    stakeCurrentField :=
      if context.currentBlsKeyIndex + 1 = context.content.blsPubKeySize
      then .blssigs else .blspubkey }

theorem recordBlsPubKey_eq (context : TxContext) :
    recordBlsPubKey context = .ok (keyRecorded context) := by
  unfold recordBlsPubKey keyRecorded Staking.showKey
  by_cases room : context.currentBlsKeyIndex * 13 < BLS_KEY_STR_LEN
  · have inside : context.currentBlsKeyIndex * 13 + 13 ≤ BLS_KEY_STR_LEN := by
      simp only [BLS_KEY_STR_LEN] at room ⊢
      omega
    simp only [if_pos room, writeBlsKeyStr_key inside]
    rfl
  · simp only [if_neg room]
    rfl

theorem handle_blspubkey [Memory] {ready : TxContext}
    (atKey : ready.stakeCurrentField = .blspubkey)
    (first : ready.currentFieldPos = 0) :
    handleStakingField buf ready =
      (takeField buf (some (storeBlsPubKey 0)) advanceStaking
        (ready.prepared id)).map fun handled =>
          .again (keyRecorded handled) := by
  cases ready
  cases atKey
  cases first
  simp only [handleStakingField, recordBlsPubKey_eq]
  exact continueWith_do _ keyRecorded

/-- What the machine does after a signature. -/
def recordBlsSignature (context : TxContext) : TxContext :=
  { context with
    currentBlsKeyIndex := context.currentBlsKeyIndex + 1
    stakeCurrentField :=
      if context.currentBlsKeyIndex + 1 = context.content.blsPubKeySize
      then .amount else .blssignature }

theorem handle_blssignature [Memory] {ready : TxContext}
    (atSignature : ready.stakeCurrentField = .blssignature) :
    handleStakingField buf ready =
      (takeField buf none advanceStaking (ready.prepared id)).map
        fun handled => .again (recordBlsSignature handled) := by
  cases ready
  cases atSignature
  exact continueWith_do _ recordBlsSignature

private theorem showKey_blsPubKeySize (index : Nat) (bytes : List UInt8)
    (content : TxContent) :
    (Staking.showKey index
      (Slot.blsPubKey.putBytes bytes content)).blsPubKeySize =
        content.blsPubKeySize := by
  unfold Staking.showKey
  split <;> rfl

theorem Handled.keyRecorded {handled : TxContext}
    {tx : RlpTxField} {field : RlpStakingField} {keyIndex : Nat}
    {content : TxContent} {rest : List UInt8}
    (facts : Handled buf handled tx field keyIndex content rest) :
    Handled buf (keyRecorded handled) tx
      (if keyIndex + 1 = content.blsPubKeySize then .blssigs else .blspubkey)
      (keyIndex + 1) (Staking.showKey keyIndex content) rest where
  clean := ⟨facts.clean.holds.of_eq rfl rfl, facts.clean.idle,
    facts.clean.rlpBufferPos⟩
  txCurrentField := facts.txCurrentField
  stakeCurrentField := by
    simp only [LedgerOne.keyRecorded, facts.currentBlsKeyIndex,
      facts.content]
  currentBlsKeyIndex := by
    simp only [LedgerOne.keyRecorded, facts.currentBlsKeyIndex]
  content := by
    simp only [LedgerOne.keyRecorded, facts.currentBlsKeyIndex,
      facts.content, Staking.showKey]

theorem Handled.recordBlsSignature {handled : TxContext}
    {tx : RlpTxField} {field : RlpStakingField} {keyIndex : Nat}
    {content : TxContent} {rest : List UInt8}
    (facts : Handled buf handled tx field keyIndex content rest) :
    Handled buf (recordBlsSignature handled) tx
      (if keyIndex + 1 = content.blsPubKeySize then .amount
        else .blssignature)
      (keyIndex + 1) content rest where
  clean := ⟨facts.clean.holds.of_eq rfl rfl, facts.clean.idle,
    facts.clean.rlpBufferPos⟩
  txCurrentField := facts.txCurrentField
  stakeCurrentField := by
    simp only [LedgerOne.recordBlsSignature, facts.currentBlsKeyIndex,
      facts.content]
  currentBlsKeyIndex := by
    simp only [LedgerOne.recordBlsSignature, facts.currentBlsKeyIndex]
  content := facts.content

/-- A key is read wherever the machine stands in the list of keys. -/
private theorem reads_blspubkey
    {next : List UInt8 -> Layout RlpStakingField TxContent}
    (clean : Clean buf state stream) (goesOn : stakingDone state = false)
    (decoded : readHeader stream = .header isList length body)
    (atKey : state.stakeCurrentField = .blspubkey)
    (continues : next (body.take length) =
      Staking.expected
        (Staking.showKey state.currentBlsKeyIndex
          (Slot.blsPubKey.putBytes (body.take length) state.content))
        (state.currentBlsKeyIndex + 1)
        (if state.currentBlsKeyIndex + 1 = state.content.blsPubKeySize then
          .blssigs else .blspubkey)) :
    (stakingReader buf).ReadsItem state (some 48) next length body := by
  apply readsItem_of_handleStaking _ advanceStaking id
    (fun handled => .again (keyRecorded handled)) clean goesOn decoded
  case handles =>
    intro ready atField
    exact handle_blspubkey (atField.same.stakeCurrentField.trans atKey)
      atField.currentFieldPos
  case overruns => exact overruns_bytes Slot.blsPubKey
  case stores => exact stores_bytes Slot.blsPubKey (by rintro rfl; rfl)
  case recorded => exact fun _ _ facts => facts.advanceStaking
  case moves =>
    intro enough handled facts
    refine Or.inl ⟨_, _, _, _, _, rfl, facts.keyRecorded, ?_, continues,
      ?_⟩
    · split <;> simp
    · rw [continues]
      split
      · simp [Staking.expected, Staking.blssigs]
      · exact Staking.blspubkey_ne_refuse _ _ _
  case cutOff =>
    intro copied facts
    refine unfinished_again facts rfl ?_
    simp only [keyRecorded]
    split <;> simp

/-- A signature is read wherever the machine stands in the list of
signatures. -/
private theorem reads_blssignature
    {next : List UInt8 -> Layout RlpStakingField TxContent}
    (clean : Clean buf state stream) (goesOn : stakingDone state = false)
    (decoded : readHeader stream = .header isList length body)
    (atSignature : state.stakeCurrentField = .blssignature)
    (continues : next (body.take length) =
      Staking.expected state.content (state.currentBlsKeyIndex + 1)
        (if state.currentBlsKeyIndex + 1 = state.content.blsPubKeySize then
          .amount else .blssignature)) :
    (stakingReader buf).ReadsItem state none next length body := by
  apply readsItem_of_handleStaking none advanceStaking id
    (fun handled => .again (recordBlsSignature handled)) clean goesOn decoded
  case handles =>
    intro ready atField
    exact handle_blssignature
      (atField.same.stakeCurrentField.trans atSignature)
  case overruns => exact not_overruns_skip
  case stores => exact fun _ => stores_skip _
  case recorded => exact fun _ _ facts => facts.advanceStaking
  case moves =>
    intro enough handled facts
    refine Or.inl ⟨_, _, _, _, _, rfl, facts.recordBlsSignature, ?_, continues,
      ?_⟩
    · split <;> simp
    · rw [continues]
      split
      · exact Staking.amount_ne_refuse _
      · exact Staking.blssignature_ne_refuse _ _
  case cutOff =>
    intro copied facts
    refine unfinished_again facts rfl ?_
    simp only [recordBlsSignature]
    split <;> simp

/-- The states of the machine that take one field. -/
private theorem staking_field {tag : RlpStakingField}
    {capacity : Option Nat}
    {next : List UInt8 -> Layout RlpStakingField TxContent}
    (entered : (stakingReader buf).At state (.field tag capacity next) stream)
    (decoded : readHeader stream = .header isList length body) :
    (stakingReader buf).ReadsItem state capacity next length body := by
  obtain ⟨clean, goesOn, expects, _⟩ := entered
  have empty : length = 0 -> body.take length = [] := by
    rintro rfl
    rfl
  have full : length ≤ body.length -> (body.take length).length = length :=
    List.length_take_of_le
  cases field : state.stakeCurrentField <;> rw [field] at expects <;>
    try cases expects
  case directive =>
    apply readsItem_of_advance _ advanceStaking id clean goesOn decoded
    case handles =>
      intro ready atField
      simp only [handleStakingField, atField.same.stakeCurrentField, field]
      exact congrArg _ (processDirective_eq atField)
    case overruns => exact overruns_directive
    case stores => exact stores_directive
    case recorded => exact fun _ _ facts => facts.advanceStaking
    case continues =>
      intro enough
      simp [field, RlpStakingField.next, Staking.expected, full enough]
    all_goals simp [field, RlpStakingField.next, Staking.expected,
      Staking.stakemessage]
  case delegatoraddr =>
    simp only [Staking.expected, Staking.delegatoraddr] at expects
    split at expects
    · cases expects
    · rename_i notCollect
      cases expects
      apply readsItem_of_handleStaking _ advanceBoth id
        (fun handled => .again
          (if handled.content.directive = DirectiveCollectRewards then
            handled.goTo .done else handled))
        clean goesOn decoded
      case handles =>
        intro ready atField
        simp only [handleStakingField, atField.same.stakeCurrentField, field]
        rw [processDestination]
        erw [processBytes_eq Slot.destination atField]
        exact continueWith_do _ _
      case overruns => exact overruns_bytes Slot.destination
      case stores => exact stores_bytes Slot.destination empty
      case recorded => exact fun _ _ facts => facts.advanceBoth
      case moves =>
        intro enough handled facts
        have keeps : handled.content.directive ≠ DirectiveCollectRewards := by
          rw [facts.content]
          exact notCollect
        refine Or.inl ⟨handled, _, _, _, _, by rw [if_neg keeps], facts, ?_⟩
        simp [field, RlpStakingField.next, Staking.expected,
          Staking.validatoraddr]
      case cutOff =>
        intro copied facts
        refine unfinished_again facts ?_ ?_ <;> split <;>
          simp_all [TxContext.goTo, facts.stakeCurrentField, facts.content]
        exact notCollect ‹_›
  case validatoraddr =>
    apply readsItem_of_handleStaking _ advanceBoth id
      (fun handled => .again
        (if Staking.Delegates handled.content.directive then
          handled.goTo .amount else handled.goTo .description))
      clean goesOn decoded
    case handles =>
      intro ready atField
      simp only [handleStakingField, atField.same.stakeCurrentField, field]
      rw [processValidatorAddress]
      erw [processBytes_eq Slot.validatorAddress atField]
      exact continueWith_do _ _
    case overruns => exact overruns_bytes Slot.validatorAddress
    case stores => exact stores_bytes Slot.validatorAddress empty
    case recorded => exact fun _ _ facts => facts.advanceBoth
    case moves =>
      intro enough handled facts
      have keeps : handled.content.directive = state.content.directive := by
        rw [facts.content]
        rfl
      rw [keeps]
      by_cases delegates : Staking.Delegates state.content.directive
      · refine Or.inl ⟨_, _, _, _, _, by rw [if_pos delegates],
          facts.goTo .amount, by simp, by rw [if_pos delegates]; rfl, ?_⟩
        rw [if_pos delegates]
        exact Staking.amount_ne_refuse _
      · refine Or.inl ⟨_, _, _, _, _, by rw [if_neg delegates],
          facts.goTo .description, by simp, by rw [if_neg delegates]; rfl, ?_⟩
        rw [if_neg delegates]
        simp [Staking.description]
    case cutOff =>
      intro copied facts
      refine unfinished_again facts ?_ ?_ <;> split <;> simp [TxContext.goTo]
  case amount =>
    simp only [Staking.expected, Staking.amount] at expects
    split at expects
    · cases expects
    · rename_i notAmount
      cases expects
      apply readsItem_of_handleStaking _ (recordInt256 Slot.value) id
        (fun handled =>
          if Staking.EndsWithAmount handled.content.directive then
            .again (handled.goTo .done)
          else .exit (-1, handled))
        clean goesOn decoded
      case handles =>
        intro ready atField
        simp only [handleStakingField, atField.same.stakeCurrentField, field]
        exact congrArg _ (processInt256_eq Slot.value atField)
      case overruns => exact overruns_int256 Slot.value
      case stores => exact stores_int256 Slot.value empty
      case recorded => exact fun enough _ facts =>
        facts.recordInt256 (full enough)
      case moves =>
        intro enough handled facts
        refine Or.inr ⟨rfl, handled, if_neg ?_⟩
        rw [facts.content]
        exact notAmount
      case cutOff =>
        intro copied facts
        refine Or.inr ⟨-1, copied, if_neg ?_, by decide⟩
        rw [facts.content]
        exact notAmount
  case name =>
    apply readsItem_of_advance _ advanceBoth Staking.clearName clean goesOn
      decoded
    case handles =>
      intro ready atField
      rw [handle_name (atField.same.stakeCurrentField.trans field)]
      exact congrArg _ (processBytes_eq Slot.name
        (atField.prepared Staking.clearName))
    case overruns => exact overruns_bytes Slot.name
    case stores => exact stores_bytes Slot.name empty
    case recorded => exact fun _ _ facts => facts.advanceBoth
    all_goals simp [field, RlpStakingField.next, Staking.expected,
      Staking.identity]
  case identity =>
    apply readsItem_of_advance none advanceBoth id clean goesOn decoded
    case handles =>
      intro ready atField
      simp only [handleStakingField, atField.same.stakeCurrentField, field]
      rfl
    case overruns => exact not_overruns_skip
    case stores => exact fun _ => stores_skip _
    case recorded => exact fun _ _ facts => facts.advanceBoth
    all_goals simp [field, RlpStakingField.next, Staking.expected,
      Staking.website]
  case website =>
    apply readsItem_of_advance none advanceBoth id clean goesOn decoded
    case handles =>
      intro ready atField
      simp only [handleStakingField, atField.same.stakeCurrentField, field]
      rfl
    case overruns => exact not_overruns_skip
    case stores => exact fun _ => stores_skip _
    case recorded => exact fun _ _ facts => facts.advanceBoth
    all_goals simp [field, RlpStakingField.next, Staking.expected,
      Staking.securitycontact]
  case securitycontact =>
    apply readsItem_of_advance none advanceBoth id clean goesOn decoded
    case handles =>
      intro ready atField
      simp only [handleStakingField, atField.same.stakeCurrentField, field]
      rfl
    case overruns => exact not_overruns_skip
    case stores => exact fun _ => stores_skip _
    case recorded => exact fun _ _ facts => facts.advanceBoth
    all_goals simp [field, RlpStakingField.next, Staking.expected,
      Staking.details]
  case details =>
    apply readsItem_of_handleStaking none advanceBoth id
      (fun handled => .again
        (if handled.content.directive = DirectiveEditValidator then
          handled.goTo .rate else handled))
      clean goesOn decoded
    case handles =>
      intro ready atField
      simp only [handleStakingField, atField.same.stakeCurrentField, field]
      exact continueWith_do _ _
    case overruns => exact not_overruns_skip
    case stores => exact fun _ => stores_skip _
    case recorded => exact fun _ _ facts => facts.advanceBoth
    case moves =>
      intro enough handled facts
      rw [facts.content]
      by_cases edits : state.content.directive = DirectiveEditValidator
      · refine Or.inl ⟨_, _, _, _, _, congrArg _ (if_pos edits),
          facts.goTo .rate, by simp, if_pos edits, ?_⟩
        rw [if_pos edits]
        simp [Staking.rate]
      · refine Or.inl ⟨_, _, _, _, _, congrArg _ (if_neg edits), facts, ?_,
          (if_neg edits).trans ?_, ?_⟩
        · simp [field, RlpStakingField.next]
        · simp [field, RlpStakingField.next, Staking.expected]
        · rw [if_neg edits]
          simp [Staking.commissionrates]
    case cutOff =>
      intro copied facts
      refine unfinished_again facts ?_ ?_ <;> split <;>
        simp [TxContext.goTo, facts.stakeCurrentField, field]
  case rateValue =>
    apply readsItem_of_handleStaking _ (recordInt256 Slot.rate) id
      (fun handled => .again
        (if handled.content.directive = DirectiveEditValidator then
          handled.goTo .minselfdelegation else handled))
      clean goesOn decoded
    case handles =>
      intro ready atField
      simp only [handleStakingField, atField.same.stakeCurrentField, field]
      rw [processRate]
      erw [processInt256_eq Slot.rate atField]
      exact continueWith_do _ _
    case overruns => exact overruns_int256 Slot.rate
    case stores => exact stores_int256 Slot.rate empty
    case recorded => exact fun enough _ facts =>
      facts.recordInt256 (full enough)
    case moves =>
      intro enough handled facts
      have keeps : handled.content.directive = state.content.directive := by
        rw [facts.content]
        rfl
      rw [keeps]
      by_cases edits : state.content.directive = DirectiveEditValidator
      · refine Or.inl ⟨_, _, _, _, _, congrArg _ (if_pos edits),
          facts.goTo .minselfdelegation, by simp, if_pos edits, ?_⟩
        rw [if_pos edits]
        simp [Staking.minselfdelegation]
      · refine Or.inl ⟨_, _, _, _, _, congrArg _ (if_neg edits), facts, ?_,
          (if_neg edits).trans ?_, ?_⟩
        · simp [field, RlpStakingField.next]
        · simp [field, RlpStakingField.next, Staking.expected]
        · rw [if_neg edits]
          simp [Staking.maxrate]
    case cutOff =>
      intro copied facts
      refine unfinished_again facts ?_ ?_ <;> split <;>
        simp [TxContext.goTo, facts.stakeCurrentField, field]
  case maxrateValue =>
    apply readsItem_of_advance _ (recordInt256 Slot.maxRate) id clean goesOn
      decoded
    case handles =>
      intro ready atField
      simp only [handleStakingField, atField.same.stakeCurrentField, field]
      exact congrArg _ (processInt256_eq Slot.maxRate atField)
    case overruns => exact overruns_int256 Slot.maxRate
    case stores => exact stores_int256 Slot.maxRate empty
    case recorded => exact fun enough _ facts =>
      facts.recordInt256 (full enough)
    all_goals simp [field, RlpStakingField.next, Staking.expected,
      Staking.maxchangerate]
  case maxchangerateValue =>
    apply readsItem_of_advance _ (recordInt256 Slot.maxChangeRate) id clean goesOn
      decoded
    case handles =>
      intro ready atField
      simp only [handleStakingField, atField.same.stakeCurrentField, field]
      exact congrArg _ (processInt256_eq Slot.maxChangeRate atField)
    case overruns => exact overruns_int256 Slot.maxChangeRate
    case stores => exact stores_int256 Slot.maxChangeRate empty
    case recorded => exact fun enough _ facts =>
      facts.recordInt256 (full enough)
    all_goals simp [field, RlpStakingField.next, Staking.expected,
      Staking.minselfdelegation]
  case minselfdelegation =>
    apply readsItem_of_advance _ (recordInt256 Slot.minSelfDelegation) id clean goesOn
      decoded
    case handles =>
      intro ready atField
      simp only [handleStakingField, atField.same.stakeCurrentField, field]
      exact congrArg _ (processInt256_eq Slot.minSelfDelegation atField)
    case overruns => exact overruns_int256 Slot.minSelfDelegation
    case stores => exact stores_int256 Slot.minSelfDelegation empty
    case recorded => exact fun enough _ facts =>
      facts.recordInt256 (full enough)
    all_goals simp [field, RlpStakingField.next, Staking.expected,
      Staking.maxtotaldelegation]
  case maxtotaldelegation =>
    apply readsItem_of_handleStaking _ (recordInt256 Slot.maxTotalDelegation)
      id
      (fun handled =>
        if handled.content.directive = DirectiveCreateValidator then
          .again (handled.goTo .slotpubkeys)
        else if handled.content.directive = DirectiveEditValidator then
          .again (handled.goTo .slotkeytoremove)
        else .exit (-1, handled))
      clean goesOn decoded
    case handles =>
      intro ready atField
      simp only [handleStakingField, atField.same.stakeCurrentField, field]
      exact congrArg _ (processInt256_eq Slot.maxTotalDelegation atField)
    case overruns => exact overruns_int256 Slot.maxTotalDelegation
    case stores => exact stores_int256 Slot.maxTotalDelegation empty
    case recorded => exact fun enough _ facts =>
      facts.recordInt256 (full enough)
    case moves =>
      intro enough handled facts
      have keeps : handled.content.directive = state.content.directive := by
        rw [facts.content]
        rfl
      rw [keeps]
      by_cases creates : state.content.directive = DirectiveCreateValidator
      · refine Or.inl ⟨_, _, _, _, _, if_pos creates, facts.goTo .slotpubkeys,
          by simp, if_pos creates, ?_⟩
        rw [if_pos creates]
        simp [Staking.slotpubkeys]
      by_cases edits : state.content.directive = DirectiveEditValidator
      · refine Or.inl ⟨_, _, _, _, _, (if_neg creates).trans (if_pos edits),
          facts.goTo .slotkeytoremove, by simp,
          (if_neg creates).trans (if_pos edits), ?_⟩
        rw [if_neg creates, if_pos edits]
        simp [Staking.slotkeytoremove]
      · exact Or.inr ⟨(if_neg creates).trans (if_neg edits), handled,
          (if_neg creates).trans (if_neg edits)⟩
    case cutOff =>
      intro copied facts
      split_ifs
      · exact unfinished_again facts rfl (by simp [TxContext.goTo])
      · exact unfinished_again facts rfl (by simp [TxContext.goTo])
      · exact Or.inr ⟨-1, copied, rfl, by decide⟩
  case slotkeytoremove =>
    apply readsItem_of_handleStaking _ advanceStaking captionRemove
      (fun handled => .again { handled with
        content := Staking.showKeyAt 7 handled.content })
      clean goesOn decoded
    case handles =>
      intro ready atField
      exact handle_slotkeytoremove (atField.same.stakeCurrentField.trans field)
        atField.currentFieldPos
    case overruns => exact overruns_bytes Slot.blsPubKey
    case stores => exact stores_bytes Slot.blsPubKey empty
    case recorded => exact fun _ _ facts => facts.advanceStaking
    case moves =>
      intro enough handled facts
      refine Or.inl ⟨_, _, _, _, _, rfl,
        facts.setContent (Staking.showKeyAt 7), ?_⟩
      simp [field, RlpStakingField.next, Staking.expected, Staking.slotkeytoadd]
    case cutOff =>
      intro copied facts
      exact unfinished_again facts rfl
        (by simp [facts.stakeCurrentField, field])
  case slotkeytoadd =>
    apply readsItem_of_handleStaking _ advanceStaking captionAdd
      (fun handled =>
        if handled.content.directive = DirectiveEditValidator then
          .again ({ handled with
            content := Staking.showKeyAt 25 handled.content }.goTo
              .slotkeytoaddsignature)
        else .exit (-1, { handled with
          content := Staking.showKeyAt 25 handled.content }))
      clean goesOn decoded
    case handles =>
      intro ready atField
      exact handle_slotkeytoadd (atField.same.stakeCurrentField.trans field)
        atField.currentFieldPos
    case overruns => exact overruns_bytes Slot.blsPubKey
    case stores => exact stores_bytes Slot.blsPubKey empty
    case recorded => exact fun _ _ facts => facts.advanceStaking
    case moves =>
      intro enough handled facts
      have keeps : handled.content.directive = state.content.directive := by
        rw [facts.content]
        rfl
      rw [keeps]
      by_cases edits : state.content.directive = DirectiveEditValidator
      · refine Or.inl ⟨_, _, _, _, _, if_pos edits,
          (facts.setContent (Staking.showKeyAt 25)).goTo
            .slotkeytoaddsignature, by simp, if_pos edits, ?_⟩
        rw [if_pos edits]
        simp [Staking.slotkeytoaddsignature]
      · exact Or.inr ⟨if_neg edits, _, if_neg edits⟩
    case cutOff =>
      intro copied facts
      split
      · exact unfinished_again facts rfl (by simp [TxContext.goTo])
      · exact Or.inr ⟨-1, _, rfl, by decide⟩
  case slotkeytoaddsignature =>
    apply readsItem_of_handleStaking none advanceStaking id
      (fun handled => .again (handled.goTo .editactive)) clean goesOn decoded
    case handles =>
      intro ready atField
      simp only [handleStakingField, atField.same.stakeCurrentField, field]
      exact continueWith_do _ _
    case overruns => exact not_overruns_skip
    case stores => exact fun _ => stores_skip _
    case recorded => exact fun _ _ facts => facts.advanceStaking
    case moves =>
      intro enough handled facts
      refine Or.inl ⟨_, _, _, _, _, rfl, facts.goTo .editactive, ?_⟩
      simp [Staking.expected, Staking.editactive]
    case cutOff =>
      intro copied facts
      exact unfinished_again facts rfl (by simp [TxContext.goTo])
  case blspubkey =>
    simp only [Staking.expected] at expects
    cases remaining : state.content.blsPubKeySize - state.currentBlsKeyIndex with
    | zero =>
        rw [remaining] at expects
        cases expects
    | succ left =>
        rw [remaining] at expects
        cases expects
        refine reads_blspubkey clean goesOn decoded field ?_
        cases left with
        | zero =>
            rw [if_pos (by omega)]
            rfl
        | succ left =>
            rw [if_neg (by omega), Staking.expected, showKey_blsPubKeySize,
              show state.content.blsPubKeySize -
                (state.currentBlsKeyIndex + 1) = left + 1 by omega]
            rfl
  case blssignature =>
    simp only [Staking.expected] at expects
    cases remaining : state.content.blsPubKeySize - state.currentBlsKeyIndex with
    | zero =>
        rw [remaining] at expects
        cases expects
    | succ left =>
        rw [remaining] at expects
        cases expects
        refine reads_blssignature clean goesOn decoded field ?_
        cases left with
        | zero =>
            rw [if_pos (by omega)]
            rfl
        | succ left =>
            rw [if_neg (by omega), Staking.expected,
              show state.content.blsPubKeySize -
                (state.currentBlsKeyIndex + 1) = left + 1 by omega]
            rfl

/-- A list that announces no key or no signature is read to the end. -/
private theorem staking_drain {tag : RlpStakingField} {capacity : Option Nat}
    (entered : (stakingReader buf).At state (.drain tag capacity) stream)
    (decoded : readHeader stream = .header isList length body) :
    (stakingReader buf).ReadsItem state capacity
      (fun _ => .drain tag capacity) length body := by
  obtain ⟨clean, goesOn, expects, _⟩ := entered
  cases field : state.stakeCurrentField <;> rw [field] at expects <;>
    try cases expects
  case amount =>
    simp only [Staking.expected, Staking.amount] at expects
    split at expects <;> cases expects
  case delegatoraddr =>
    simp only [Staking.expected, Staking.delegatoraddr] at expects
    split at expects <;> cases expects
  case blspubkey =>
    simp only [Staking.expected] at expects
    cases remaining : state.content.blsPubKeySize - state.currentBlsKeyIndex with
    | zero =>
        rw [remaining] at expects
        cases expects
        refine reads_blspubkey clean goesOn decoded field ?_
        rw [if_neg (by omega), Staking.expected, showKey_blsPubKeySize,
          show state.content.blsPubKeySize -
            (state.currentBlsKeyIndex + 1) = 0 by omega]
        rfl
    | succ left =>
        rw [remaining] at expects
        cases expects
  case blssignature =>
    simp only [Staking.expected] at expects
    cases remaining : state.content.blsPubKeySize - state.currentBlsKeyIndex with
    | zero =>
        rw [remaining] at expects
        cases expects
        refine reads_blssignature clean goesOn decoded field ?_
        rw [if_neg (by omega), Staking.expected,
          show state.content.blsPubKeySize -
            (state.currentBlsKeyIndex + 1) = 0 by omega]
        rfl
    | succ left =>
        rw [remaining] at expects
        cases left <;> cases expects

theorem handle_delegator [Memory] {ready : TxContext}
    (atDelegator : ready.stakeCurrentField = .delegatoraddr)
    (first : ready.currentFieldPos = 0) :
    handleStakingField buf ready =
      (takeField buf
        (some (storeBytes Slot.destination.address Slot.destination.get
          Slot.destination.set 0))
        advanceBoth (ready.prepared id)).map fun handled => .again
          (if handled.content.directive = DirectiveCollectRewards then
            handled.goTo .done else handled) := by
  cases ready
  cases atDelegator
  cases first
  exact continueWith_do _ fun handled =>
    if handled.content.directive = DirectiveCollectRewards then
      handled.goTo .done else handled

theorem handle_amount [Memory] {ready : TxContext}
    (atAmount : ready.stakeCurrentField = .amount)
    (first : ready.currentFieldPos = 0) :
    handleStakingField buf ready =
      (takeField buf
        (some (storeInt256 Slot.value.address Slot.value.get Slot.value.set 0))
        (recordInt256 Slot.value) (ready.prepared id)).map fun handled =>
          if Staking.EndsWithAmount handled.content.directive then
            .again (handled.goTo .done)
          else .exit (-1, handled) := by
  cases ready
  cases atAmount
  cases first
  rfl

/-- What the machine does after the EPoS status. -/
def activeRecorded (context : TxContext) : TxContext :=
  { context with
    content := Staking.showStatus context.content
    stakeCurrentField := .done }

theorem recordEditActive_eq (context : TxContext) :
    recordEditActive context = .ok (activeRecorded context) := by
  have inside : 0 + (statusText context.content.fromShard).length ≤ 20 := by
    unfold statusText
    split_ifs <;> decide
  rw [recordEditActive, Region.write?_eq_some _ _ _ inside]
  rfl

theorem handle_editactive [Memory] {ready : TxContext}
    (atActive : ready.stakeCurrentField = .editactive)
    (first : ready.currentFieldPos = 0) :
    handleStakingField buf ready =
      (takeField buf
        (some (storeShard Slot.fromShard.address Slot.fromShard.get
          Slot.fromShard.set 0))
        advanceTx (ready.prepared id)).map fun handled =>
          .again (activeRecorded handled) := by
  cases ready
  cases atActive
  cases first
  simp only [handleStakingField, recordEditActive_eq]
  exact continueWith_do _ activeRecorded

/-- The machine ends a round at its end. -/
private theorem finished_again {left : TxContext} {content : TxContent}
    (atEnd : left.stakeCurrentField = .done) (same : left.content = content) :
    Finished stakingDone (LeavesContent · content) (.again left) :=
  Or.inl ⟨left, rfl, by simp [stakingDone, atEnd], rfl, same⟩

/-- The states of the machine that take the last field. -/
private theorem staking_final {tag : RlpStakingField} {capacity : Option Nat}
    {value : Nat -> List UInt8 -> TxContent}
    (entered : (stakingReader buf).At state (.final tag capacity value) stream)
    (decoded : readHeader stream = .header isList length body) :
    (exceeds capacity (body.take length).length = true ->
      (stakingReader buf).body state = .error .fieldOverrun) ∧
    (exceeds capacity (body.take length).length = false ->
      (stakingReader buf).Ends state fun result =>
        (stakingReader buf).Accepts result
          (value length (body.take length))) := by
  obtain ⟨clean, goesOn, expects, _⟩ := entered
  cases field : state.stakeCurrentField <;> rw [field] at expects <;>
    try cases expects
  case blspubkey =>
    simp only [Staking.expected] at expects
    cases remaining : state.content.blsPubKeySize - state.currentBlsKeyIndex <;>
      rw [remaining] at expects <;> cases expects
  case blssignature =>
    simp only [Staking.expected] at expects
    cases remaining : state.content.blsPubKeySize - state.currentBlsKeyIndex <;>
      rw [remaining] at expects <;> cases expects
  case delegatoraddr =>
    simp only [Staking.expected, Staking.delegatoraddr] at expects
    split at expects
    · rename_i collects
      cases expects
      have handles : ∀ ready, Ready buf state ready length body ->
          handleStakingField buf ready = _ := fun ready atField =>
        handle_delegator (atField.same.stakeCurrentField.trans field)
          atField.currentFieldPos
      refine ⟨fun tooLong => final_overrun_of_handle _ _ _ clean goesOn
        decoded handles (overruns_bytes Slot.destination tooLong) tooLong,
        fun fits => final_of_handle _ _ _ clean goesOn decoded handles
          (stores_bytes Slot.destination (by rintro rfl; rfl) fits)
          (fun enough copied facts => ?_) (fun cutOff copied facts => ?_)⟩
      all_goals
        have keeps : copied.content.directive = DirectiveCollectRewards := by
          rw [facts.content]
          exact collects
        exact Or.inl ⟨_, congrArg Flow.again (if_pos keeps),
          by simp [stakingDone, TxContext.goTo], rfl, facts.content⟩
    · cases expects
  case amount =>
    simp only [Staking.expected, Staking.amount] at expects
    split at expects
    · rename_i amounts
      cases expects
      have handles : ∀ ready, Ready buf state ready length body ->
          handleStakingField buf ready = _ := fun ready atField =>
        handle_amount (atField.same.stakeCurrentField.trans field)
          atField.currentFieldPos
      refine ⟨fun tooLong => final_overrun_of_handle _ _ _ clean goesOn
        decoded handles (overruns_int256 Slot.value tooLong) tooLong,
        fun fits => final_of_handle _ _ _ clean goesOn decoded handles
          (stores_int256 Slot.value (by rintro rfl; rfl) fits)
          (fun enough copied facts => ?_) (fun cutOff copied facts => ?_)⟩
      · have recorded := facts.recordInt256 (List.length_take_of_le enough)
        rw [if_pos (by rw [recorded.content]; exact amounts)]
        refine finished_again rfl ?_
        show _ = Slot.value.putFinalInt _ _ _
        rw [Slot.putFinalInt, if_neg (by simp; omega)]
        exact recorded.content
      · rw [if_pos (by rw [facts.content]; exact amounts)]
        refine finished_again rfl ?_
        show _ = Slot.value.putFinalInt _ _ _
        rw [Slot.putFinalInt, if_pos (by simp; omega)]
        exact facts.content
    · cases expects
  case editactive =>
    have handles : ∀ ready, Ready buf state ready length body ->
        handleStakingField buf ready = _ := fun ready atField =>
      handle_editactive (atField.same.stakeCurrentField.trans field)
        atField.currentFieldPos
    refine ⟨fun tooLong => final_overrun_of_handle _ _ _ clean goesOn
      decoded handles (overruns_shard Slot.fromShard tooLong) tooLong,
      fun fits => final_of_handle _ _ _ clean goesOn decoded handles
        (stores_shard Slot.fromShard fits)
        (fun enough copied facts => ?_) (fun cutOff copied facts => ?_)⟩
    all_goals
      exact finished_again rfl (congrArg Staking.showStatus facts.content)

/-- The main loop of `processStaking` follows the staking layout. -/
theorem stakingReader_sound (buf : Region 1024) :
    (stakingReader buf).Sound where
  not_refuse entered := entered.2.2.2 rfl
  undecoded entered none := undecoded_ends entered.1 entered.2.1 none
  enter := staking_enter
  field := staking_field
  drain := staking_drain
  final_overrun entered decoded := (staking_final entered decoded).1
  final entered decoded := (staking_final entered decoded).2

end Sound

/-- The meaning of a byte string as a staking operation. -/
def stakingVerdict (bytes : List UInt8) : Verdict TxContent :=
  (Staking.message .zero).verdict bytes

section Start

variable {buf : Region 1024} {bytes : List UInt8}

theorem stakingReader_at_start (received : Received buf bytes) :
    (stakingReader buf).At (stakingStart bytes.length)
      (Staking.message .zero) bytes :=
  ⟨clean_stakingStart received, by simp [stakingDone, stakingStart], rfl, by
    simp [Staking.message]⟩

/-- `processStaking` on a fresh context ends with the verdict of the staking
layout. -/
theorem processStaking_agrees (received : Received buf bytes) :
    (stakingReader buf).Agrees (stakingVerdict bytes)
      (processStaking buf (stakingStart bytes.length)) := by
  obtain ⟨outcome, ends, agrees⟩ := (stakingReader_sound buf).run
    (stakingReader_at_start received) (Staking.message_entersAtMost .zero)
  have ends : (processStakingRound buf).run
      ((stakingStart bytes.length).commandLength + 64)
      (stakingStart bytes.length) = some outcome :=
    Body.run_mono ends (by simp only [stakingStart]; omega)
  rw [processStaking, runParser, ends]
  exact agrees

/-- `processStaking` accepts what the staking layout accepts. -/
theorem processStaking_accepts_iff (received : Received buf bytes)
    (content : TxContent) :
    (∃ left, processStaking buf (stakingStart bytes.length) = .ok (0, left) ∧
        left.content = content) ↔
      ∃ complete, stakingVerdict bytes = .accepted content complete :=
  accepts_iff_of_agrees (processStaking_agrees received) content

end Start

end LedgerOne
