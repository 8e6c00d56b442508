import LedgerOne.Decoder.Start
import LedgerOne.Decoder.Store

/-!
# What `processTx` reads

The layout of a transfer, one definition for each state of the machine, and
the proof that the main loop of `processTx` reads exactly this layout.
-/

namespace LedgerOne

open Rlp Layout

namespace Transfer

variable (content : TxContent)

/-- The last field, which the parser takes as far as it is there. -/
def amount : Layout RlpTxField TxContent :=
  .final .amount (some 32) fun length bytes =>
    Slot.value.putFinalInt length bytes content

def destination : Layout RlpTxField TxContent :=
  .field .to (some 20) fun bytes =>
    amount (Slot.destination.putBytes bytes content)

def toshard : Layout RlpTxField TxContent :=
  .field .toshard (some 4) fun bytes =>
    destination (Slot.toShard.putShard bytes.length bytes content)

def fromshard : Layout RlpTxField TxContent :=
  .field .fromshard (some 4) fun bytes =>
    toshard (Slot.fromShard.putShard bytes.length bytes content)

def gaslimit : Layout RlpTxField TxContent :=
  .field .gaslimit (some 32) fun bytes =>
    fromshard (Slot.startgas.putInt bytes content)

def gasprice : Layout RlpTxField TxContent :=
  .field .gasprice (some 32) fun bytes =>
    gaslimit (Slot.gasprice.putInt bytes content)

def nonce : Layout RlpTxField TxContent :=
  .field .nonce none fun _ => gasprice content

/-- The layout of a whole transfer. -/
def message : Layout RlpTxField TxContent :=
  .enter .content fun _ => nonce content

/-- What `processTx` still expects in a state between two fields. -/
def expected (field : RlpTxField) : Layout RlpTxField TxContent :=
  match field with
  | .content => message content
  | .nonce => nonce content
  | .gasprice => gasprice content
  | .gaslimit => gaslimit content
  | .fromshard => fromshard content
  | .toshard => toshard content
  | .to => destination content
  | .amount => amount content
  | _ => .refuse

end Transfer

/-- The context is in a state that expects a layout, one of those that belong
to its fields. -/
def ExpectsTransfer
    (expected : TxContent -> RlpTxField -> Layout RlpTxField TxContent)
    (context : TxContext) (layout : Layout RlpTxField TxContent) : Prop :=
  layout = expected context.content context.txCurrentField ∧
    layout ≠ .refuse

/-- The end of `processTx`. -/
def txDone (context : TxContext) : Bool := context.txCurrentField = .done

/-- `processTx` as a reader of layouts that belong to its fields. -/
abbrev txReader [Memory] (buf : Region 1024)
    (expected : TxContent -> RlpTxField -> Layout RlpTxField TxContent) :
    Realization Fault TxContext (Int × TxContext) RlpTxField TxContent :=
  parserRealization buf txDone (handleTxField buf) (ExpectsTransfer expected)
    LeavesContent

/-- `processTx` as a reader of the transfer layout. -/
abbrev transferReader (buf : Region 1024) :
    Realization Fault TxContext (Int × TxContext) RlpTxField TxContent :=
  txReader buf Transfer.expected

section Steps

variable {expected : TxContent -> RlpTxField -> Layout RlpTxField TxContent}
  {buf : Region 1024} {state ready : TxContext}
  {stream : List UInt8} {isList : Bool} {length : Nat} {body : List UInt8}

/-- After a complete field the next layout is expected. -/
private theorem Handled.expectsTransfer {handled : TxContext}
    {field : RlpTxField} {staking : RlpStakingField} {keyIndex : Nat}
    {content : TxContent} {rest : List UInt8}
    (facts : Handled buf handled field staking keyIndex content rest)
    (goesOn : field ≠ .done)
    (reads : expected content field ≠ .refuse) :
    Clean buf handled rest ∧ txDone handled = false ∧
      ExpectsTransfer expected handled (expected content field) := by
  refine ⟨facts.clean, ?_, ?_, reads⟩
  · simpa [txDone, facts.txCurrentField] using goesOn
  · rw [facts.content, facts.txCurrentField]

/-- A transfer field that is cut off leaves the parser without input. -/
private theorem Copied.unfinishedTransfer {copied : TxContext}
    {after : TxContent}
    (facts : Copied buf state copied after length [])
    (goesOn : state.txCurrentField ≠ .done) :
    Unfinished txDone (.again copied) :=
  Or.inl ⟨copied, rfl, facts.holds.commandLength_eq, by
    simpa [txDone, facts.txCurrentField] using goesOn⟩

/-- A handler of `processTx` that takes one field and advances reads one item
of the layout. -/
theorem readsItem_of_handleTx [Memory] {capacity : Option Nat}
    {next : List UInt8 -> Layout RlpTxField TxContent} (out : Option Store)
    (record : TxContext -> TxContext) (after content : TxContent)
    (staking : RlpStakingField)
    (clean : Clean buf state stream)
    (goesOn : txDone state = false)
    (decoded : readHeader stream = .header isList length body)
    (handles : ∀ ready, Ready buf state ready length body ->
      handleTxField buf ready = continueWith (takeField buf out record ready))
    (overruns : exceeds capacity (body.take length).length = true ->
      Overruns out (body.take length) state.content)
    (stores : exceeds capacity (body.take length).length = false ->
      Stores out length (body.take length) state.content after)
    (handled : length ≤ body.length -> ∀ copied,
      Copied buf state copied after length (body.drop length) ->
      Handled buf { record copied with processingField := false }
        state.txCurrentField.next staking state.currentBlsKeyIndex content
        (body.drop length))
    (continues : length ≤ body.length ->
      next (body.take length) =
        expected content state.txCurrentField.next)
    (notDone : state.txCurrentField.next ≠ .done)
    (reads : expected content state.txCurrentField.next ≠ .refuse) :
    (txReader buf expected).ReadsItem state capacity next length body := by
  refine readsItem_of_handle record id .again clean goesOn decoded handles overruns
    stores ?_ ?_
  · intro enough copied facts
    refine Or.inl ⟨_, rfl, ?_⟩
    rw [continues enough]
    exact (handled enough copied facts).expectsTransfer notDone reads
  · intro copied facts
    exact facts.unfinishedTransfer (by simpa [txDone] using goesOn)

end Steps

/-- The main loop of `processTx` follows the transfer layout. -/
theorem transferReader_sound (buf : Region 1024) :
    (transferReader buf).Sound where
  not_refuse entered := entered.2.2.2 rfl
  undecoded entered none := undecoded_ends entered.1 entered.2.1 none
  enter {state tag next stream isList length body} entered decoded := by
    obtain ⟨clean, goesOn, expects, _⟩ := entered
    cases field : state.txCurrentField <;> rw [field] at expects <;>
      cases expects
    case content =>
      refine enters_of_handle (fun _ => Transfer.nonce state.content) clean
        goesOn decoded fun ready atField => ?_
      have tx := atField.same.txCurrentField
      refine ⟨processContent ready, by simp [handleTxField, tx, field],
        ⟨atField.holds.of_eq rfl rfl, rfl, atField.rlpBufferPos⟩, ?_, ?_, ?_⟩
      · simp [txDone, processContent, advanceBoth, tx, field, RlpTxField.next]
      · simp [processContent, advanceBoth, tx, field, RlpTxField.next,
          Transfer.expected, atField.same.content]
      · simp [Transfer.nonce]
  field {state tag capacity next stream isList length body} entered decoded := by
    obtain ⟨clean, goesOn, expects, _⟩ := entered
    have empty : length = 0 -> body.take length = [] := by
      rintro rfl
      rfl
    have full : length ≤ body.length -> (body.take length).length = length :=
      List.length_take_of_le
    cases field : state.txCurrentField <;> rw [field] at expects <;>
      cases expects
    case nonce =>
      apply readsItem_of_handleTx none advanceBoth state.content state.content
        _ clean goesOn decoded
      case handles =>
        intro ready atField
        simp only [handleTxField, atField.same.txCurrentField, field]
        rfl
      case overruns => exact not_overruns_skip
      case stores => exact fun _ => stores_skip _
      case handled => exact fun _ _ facts => facts.advanceBoth
      all_goals simp [field, RlpTxField.next, Transfer.expected,
        Transfer.gasprice]
    case gasprice =>
      apply readsItem_of_handleTx _ (recordInt256 Slot.gasprice) _ _ _ clean
        goesOn decoded
      case handles =>
        intro ready atField
        simp only [handleTxField, atField.same.txCurrentField, field]
        exact congrArg _ (processInt256_eq Slot.gasprice atField)
      case overruns => exact overruns_int256 Slot.gasprice
      case stores => exact stores_int256 Slot.gasprice empty
      case handled => exact fun enough _ facts =>
        facts.recordInt256 (full enough)
      all_goals simp [field, RlpTxField.next, Transfer.expected,
        Transfer.gaslimit]
    case gaslimit =>
      apply readsItem_of_handleTx _ (recordInt256 Slot.startgas) _ _ _ clean
        goesOn decoded
      case handles =>
        intro ready atField
        simp only [handleTxField, atField.same.txCurrentField, field]
        exact congrArg _ (processInt256_eq Slot.startgas atField)
      case overruns => exact overruns_int256 Slot.startgas
      case stores => exact stores_int256 Slot.startgas empty
      case handled => exact fun enough _ facts =>
        facts.recordInt256 (full enough)
      all_goals simp [field, RlpTxField.next, Transfer.expected,
        Transfer.fromshard]
    case fromshard =>
      apply readsItem_of_handleTx _ advanceTx _ _ _ clean goesOn decoded
      case handles =>
        intro ready atField
        simp only [handleTxField, atField.same.txCurrentField, field]
        exact congrArg _ (processShard_eq Slot.fromShard atField)
      case overruns => exact overruns_shard Slot.fromShard
      case stores => exact stores_shard Slot.fromShard
      case handled => exact fun _ _ facts => facts.advanceTx
      case continues =>
        intro enough
        simp [field, RlpTxField.next, Transfer.expected, full enough]
      all_goals simp [field, RlpTxField.next, Transfer.expected,
        Transfer.toshard]
    case toshard =>
      apply readsItem_of_handleTx _ advanceTx _ _ _ clean goesOn decoded
      case handles =>
        intro ready atField
        simp only [handleTxField, atField.same.txCurrentField, field]
        exact congrArg _ (processShard_eq Slot.toShard atField)
      case overruns => exact overruns_shard Slot.toShard
      case stores => exact stores_shard Slot.toShard
      case handled => exact fun _ _ facts => facts.advanceTx
      case continues =>
        intro enough
        simp [field, RlpTxField.next, Transfer.expected, full enough]
      all_goals simp [field, RlpTxField.next, Transfer.expected,
        Transfer.destination]
    case «to» =>
      apply readsItem_of_handleTx _ advanceBoth _ _ _ clean goesOn decoded
      case handles =>
        intro ready atField
        simp only [handleTxField, atField.same.txCurrentField, field]
        exact congrArg _ (processBytes_eq Slot.destination atField)
      case overruns => exact overruns_bytes Slot.destination
      case stores => exact stores_bytes Slot.destination empty
      case handled => exact fun _ _ facts => facts.advanceBoth
      all_goals simp [field, RlpTxField.next, Transfer.expected,
        Transfer.amount]
  drain {state tag capacity stream isList length body} entered decoded := by
    obtain ⟨clean, goesOn, expects, _⟩ := entered
    cases field : state.txCurrentField <;> rw [field] at expects <;>
      cases expects
  final_overrun {state tag capacity value stream isList length body} entered
      decoded tooLong := by
    obtain ⟨clean, goesOn, expects, _⟩ := entered
    cases field : state.txCurrentField <;> rw [field] at expects <;>
      cases expects
    case amount =>
      refine final_overrun_of_handle (recordInt256 Slot.value) id
        (.exit ⟨0, ·⟩) clean goesOn decoded
        (fun ready atField => ?_) (overruns_int256 Slot.value tooLong) tooLong
      simp only [handleTxField, atField.same.txCurrentField, field]
      exact congrArg _ (processInt256_eq Slot.value atField)
  final {state tag capacity value stream isList length body} entered decoded
      fits := by
    obtain ⟨clean, goesOn, expects, _⟩ := entered
    cases field : state.txCurrentField <;> rw [field] at expects <;>
      cases expects
    case amount =>
      refine final_of_handle (recordInt256 Slot.value) id (.exit ⟨0, ·⟩)
        clean goesOn decoded
        (fun ready atField => ?_)
        (stores_int256 Slot.value (by rintro rfl; rfl) fits)
        (fun enough copied facts => ?_) (fun cutOff copied facts => ?_)
      · simp only [handleTxField, atField.same.txCurrentField, field]
        exact congrArg _ (processInt256_eq Slot.value atField)
      · have full := List.length_take_of_le enough
        refine Or.inr ⟨_, rfl, rfl, ?_⟩
        show _ = Slot.value.putFinalInt _ _ _
        rw [Slot.putFinalInt, if_neg (by omega)]
        exact (facts.recordInt256 full).content
      · refine Or.inr ⟨_, rfl, rfl, ?_⟩
        show _ = Slot.value.putFinalInt _ _ _
        rw [Slot.putFinalInt, if_pos (by simp; omega)]
        exact facts.content

theorem Transfer.message_entersAtMost (content : TxContent) :
    (Transfer.message content).EntersAtMost 1 := by
  simp [message, nonce, gasprice, gaslimit, fromshard, toshard, destination,
    amount, EntersAtMost]

/-- The meaning of a byte string as a transfer. -/
def transferVerdict (bytes : List UInt8) : Verdict TxContent :=
  (Transfer.message .zero).verdict bytes

section Start

variable {buf : Region 1024} {bytes : List UInt8}

theorem transferReader_at_start (received : Received buf bytes) :
    (transferReader buf).At (transferStart bytes.length)
      (Transfer.message .zero) bytes :=
  ⟨clean_transferStart received, by simp [txDone, transferStart], rfl, by
    simp [Transfer.message]⟩

/-- `processTx` on a fresh context ends with the verdict of the transfer
layout. -/
theorem processTx_agrees (received : Received buf bytes) :
    (transferReader buf).Agrees (transferVerdict bytes)
      (processTx buf (transferStart bytes.length)) := by
  obtain ⟨outcome, ends, agrees⟩ := (transferReader_sound buf).run
    (transferReader_at_start received)
    (Transfer.message_entersAtMost .zero)
  have ends : (processTxRound buf).run
      ((transferStart bytes.length).commandLength + 64)
      (transferStart bytes.length) = some outcome :=
    Body.run_mono ends (by simp only [transferStart]; omega)
  rw [processTx, runParser, ends]
  exact agrees

/-- `processTx` accepts what the transfer layout accepts. -/
theorem processTx_accepts_iff (received : Received buf bytes)
    (content : TxContent) :
    (∃ left, processTx buf (transferStart bytes.length) = .ok (0, left) ∧
        left.content = content) ↔
      ∃ complete, transferVerdict bytes = .accepted content complete :=
  accepts_iff_of_agrees (processTx_agrees received) content

end Start

end LedgerOne
