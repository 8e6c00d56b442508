import LedgerOne.Decoder.Joined
import LedgerOne.Decoder.Transfer

/-!
# What `processTx` reads in one piece of memory

The layout of a transfer where the components of the content lie in one piece.
It asks for the same fields; each takes what the command context has room for,
and may overwrite what was stored before it.
-/

namespace LedgerOne

open Rlp Layout

namespace JoinedTransfer

variable (behind : Nat) (content : TxContent)

/-- The last field, which the parser takes as far as it is there. -/
def amount : Layout RlpTxField TxContent :=
  .final .amount (room behind 66) fun length bytes =>
    Slot.value.pokeFinalInt length bytes content

def destination : Layout RlpTxField TxContent :=
  .field .to (room behind 276) fun bytes =>
    amount behind (content.poke 276 bytes)

def toshard : Layout RlpTxField TxContent :=
  .field .toshard (room behind 268) fun bytes =>
    destination behind (Slot.toShard.pokeShard bytes.length bytes content)

def fromshard : Layout RlpTxField TxContent :=
  .field .fromshard (room behind 264) fun bytes =>
    toshard behind (Slot.fromShard.pokeShard bytes.length bytes content)

def gaslimit : Layout RlpTxField TxContent :=
  .field .gaslimit (room behind 33) fun bytes =>
    fromshard behind (Slot.startgas.pokeInt bytes content)

def gasprice : Layout RlpTxField TxContent :=
  .field .gasprice (room behind 0) fun bytes =>
    gaslimit behind (Slot.gasprice.pokeInt bytes content)

def nonce : Layout RlpTxField TxContent :=
  .field .nonce none fun _ => gasprice behind content

/-- The layout of a whole transfer. -/
def message : Layout RlpTxField TxContent :=
  .enter .content fun _ => nonce behind content

/-- What `processTx` still expects in a state between two fields. -/
def expected (field : RlpTxField) : Layout RlpTxField TxContent :=
  match field with
  | .content => message behind content
  | .nonce => nonce behind content
  | .gasprice => gasprice behind content
  | .gaslimit => gaslimit behind content
  | .fromshard => fromshard behind content
  | .toshard => toshard behind content
  | .to => destination behind content
  | .amount => amount behind content
  | _ => .refuse

theorem message_entersAtMost : (message behind content).EntersAtMost 1 := by
  simp [message, nonce, gasprice, gaslimit, fromshard, toshard, destination,
    amount, EntersAtMost]

end JoinedTransfer

/-- `processTx` where the content lies in one piece with bytes behind it. -/
abbrev processTxIn (behind : Nat) (buf : Region 1024) (context : TxContext) :
    Except Fault (Int × TxContext) :=
  @processTx (.joined behind) buf context

/-- `processTx` as a reader of the layout in one piece of memory. -/
abbrev joinedTransferReader (behind : Nat) (buf : Region 1024) :
    Realization Fault TxContext (Int × TxContext) RlpTxField TxContent :=
  @txReader (.joined behind) buf (JoinedTransfer.expected behind)

/-- The main loop of `processTx` follows this layout. -/
theorem joinedTransferReader_sound (behind : Nat) (buf : Region 1024) :
    (joinedTransferReader behind buf).Sound where
  not_refuse entered := entered.2.2.2 rfl
  undecoded entered none := undecoded_ends entered.1 entered.2.1 none
  enter {state tag next stream isList length body} entered decoded := by
    obtain ⟨clean, goesOn, expects, _⟩ := entered
    cases field : state.txCurrentField <;> rw [field] at expects <;>
      cases expects
    case content =>
      refine enters_of_handle
        (fun _ => JoinedTransfer.nonce behind state.content) clean goesOn
        decoded fun ready atField => ?_
      have tx := atField.same.txCurrentField
      refine ⟨processContent ready, by simp [handleTxField, tx, field],
        ⟨atField.holds.of_eq rfl rfl, rfl, atField.rlpBufferPos⟩, ?_, ?_, ?_⟩
      · simp [txDone, processContent, advanceBoth, tx, field, RlpTxField.next]
      · simp [processContent, advanceBoth, tx, field, RlpTxField.next,
          JoinedTransfer.expected, atField.same.content]
      · simp [JoinedTransfer.nonce]
  field {state tag capacity next stream isList length body} entered decoded := by
    obtain ⟨clean, goesOn, expects, _⟩ := entered
    have empty : length = 0 -> body.take length = [] := by
      rintro rfl
      rfl
    have full : length ≤ body.length -> (body.take length).length = length :=
      List.length_take_of_le
    let memory : Memory := .joined behind
    cases field : state.txCurrentField <;> rw [field] at expects <;>
      cases expects
    case nonce =>
      apply readsItem_of_handleTx none advanceBoth state.content state.content
        _ clean goesOn decoded
      case handles =>
        intro ready atField
        simp only [handleTxField, atField.same.txCurrentField, field]
        rfl
      case overruns => exact not_overruns_skip
      case stores => exact fun _ => stores_skip _
      case handled => exact fun _ _ facts => facts.advanceBoth
      all_goals simp [field, RlpTxField.next, JoinedTransfer.expected,
        JoinedTransfer.gasprice]
    case gasprice =>
      apply readsItem_of_handleTx _ (recordInt256 Slot.gasprice) _ _ _ clean
        goesOn decoded
      case handles =>
        intro ready atField
        simp only [handleTxField, atField.same.txCurrentField, field]
        exact congrArg _ (processInt256_eq Slot.gasprice atField)
      case overruns => exact overruns_joined
      case stores => exact stores_joined (by decide) empty
      case handled => exact fun enough _ facts =>
        facts.recordPoked Slot.gasprice (full enough)
      all_goals simp [field, RlpTxField.next, JoinedTransfer.expected,
        JoinedTransfer.gaslimit]
    case gaslimit =>
      apply readsItem_of_handleTx _ (recordInt256 Slot.startgas) _ _ _ clean
        goesOn decoded
      case handles =>
        intro ready atField
        simp only [handleTxField, atField.same.txCurrentField, field]
        exact congrArg _ (processInt256_eq Slot.startgas atField)
      case overruns => exact overruns_joined
      case stores => exact stores_joined (by decide) empty
      case handled => exact fun enough _ facts =>
        facts.recordPoked Slot.startgas (full enough)
      all_goals simp [field, RlpTxField.next, JoinedTransfer.expected,
        JoinedTransfer.fromshard]
    case fromshard =>
      apply readsItem_of_handleTx _ advanceTx _ _ _ clean goesOn decoded
      case handles =>
        intro ready atField
        simp only [handleTxField, atField.same.txCurrentField, field]
        exact congrArg _ (processShard_eq Slot.fromShard atField)
      case overruns => exact overruns_joinedShard Slot.fromShard
      case stores => exact stores_joinedShard Slot.fromShard (by decide)
      case handled => exact fun _ _ facts => facts.advanceTx
      case continues =>
        intro enough
        simp [field, RlpTxField.next, JoinedTransfer.expected, full enough]
      all_goals simp [field, RlpTxField.next, JoinedTransfer.expected,
        JoinedTransfer.toshard]
    case toshard =>
      apply readsItem_of_handleTx _ advanceTx _ _ _ clean goesOn decoded
      case handles =>
        intro ready atField
        simp only [handleTxField, atField.same.txCurrentField, field]
        exact congrArg _ (processShard_eq Slot.toShard atField)
      case overruns => exact overruns_joinedShard Slot.toShard
      case stores => exact stores_joinedShard Slot.toShard (by decide)
      case handled => exact fun _ _ facts => facts.advanceTx
      case continues =>
        intro enough
        simp [field, RlpTxField.next, JoinedTransfer.expected, full enough]
      all_goals simp [field, RlpTxField.next, JoinedTransfer.expected,
        JoinedTransfer.destination]
    case «to» =>
      apply readsItem_of_handleTx _ advanceBoth _ _ _ clean goesOn decoded
      case handles =>
        intro ready atField
        simp only [handleTxField, atField.same.txCurrentField, field]
        exact congrArg _ (processBytes_eq Slot.destination atField)
      case overruns => exact overruns_joined
      case stores => exact stores_joined (by decide) empty
      case handled => exact fun _ _ facts => facts.advanceBoth
      all_goals simp [field, RlpTxField.next, JoinedTransfer.expected,
        JoinedTransfer.amount]
  drain {state tag capacity stream isList length body} entered decoded := by
    obtain ⟨clean, goesOn, expects, _⟩ := entered
    cases field : state.txCurrentField <;> rw [field] at expects <;>
      cases expects
  final_overrun {state tag capacity value stream isList length body} entered
      decoded tooLong := by
    obtain ⟨clean, goesOn, expects, _⟩ := entered
    let memory : Memory := .joined behind
    cases field : state.txCurrentField <;> rw [field] at expects <;>
      cases expects
    case amount =>
      have overruns : Overruns (some (storeInt256 Slot.value.address
          Slot.value.get Slot.value.set 0)) (body.take length)
          state.content := overruns_joined tooLong
      refine final_overrun_of_handle (recordInt256 Slot.value) id
        (.exit ⟨0, ·⟩) clean goesOn decoded (fun ready atField => ?_)
        overruns tooLong
      simp only [handleTxField, atField.same.txCurrentField, field]
      exact congrArg _ (processInt256_eq Slot.value atField)
  final {state tag capacity value stream isList length body} entered decoded
      fits := by
    obtain ⟨clean, goesOn, expects, _⟩ := entered
    let memory : Memory := .joined behind
    cases field : state.txCurrentField <;> rw [field] at expects <;>
      cases expects
    case amount =>
      have stores : Stores (some (storeInt256 Slot.value.address
          Slot.value.get Slot.value.set 0)) length (body.take length)
          state.content (state.content.poke 66 (body.take length)) :=
        stores_joined (by decide) (by rintro rfl; rfl) fits
      refine final_of_handle (recordInt256 Slot.value) id (.exit ⟨0, ·⟩)
        clean goesOn decoded (fun ready atField => ?_) stores
        (fun enough copied facts => ?_) (fun cutOff copied facts => ?_)
      · simp only [handleTxField, atField.same.txCurrentField, field]
        exact congrArg _ (processInt256_eq Slot.value atField)
      · have full := List.length_take_of_le enough
        refine Or.inr ⟨_, rfl, rfl, ?_⟩
        show _ = Slot.value.pokeFinalInt _ _ _
        rw [Slot.pokeFinalInt, if_neg (by omega)]
        exact (facts.recordPoked Slot.value full).content
      · refine Or.inr ⟨_, rfl, rfl, ?_⟩
        show _ = Slot.value.pokeFinalInt _ _ _
        rw [Slot.pokeFinalInt, if_pos (by simp; omega)]
        exact facts.content

/-- The meaning of a byte string as a transfer in one piece of memory. -/
def joinedTransferVerdict (behind : Nat) (bytes : List UInt8) :
    Verdict TxContent :=
  (JoinedTransfer.message behind .zero).verdict bytes

section Start

variable {behind : Nat} {buf : Region 1024} {bytes : List UInt8}

theorem joinedTransferReader_at_start (received : Received buf bytes) :
    (joinedTransferReader behind buf).At (transferStart bytes.length)
      (JoinedTransfer.message behind .zero) bytes :=
  ⟨clean_transferStart received, by simp [txDone, transferStart], rfl, by
    simp [JoinedTransfer.message]⟩

/-- `processTx` on a fresh context ends with the verdict of this layout. -/
theorem processTxIn_agrees (received : Received buf bytes) :
    (joinedTransferReader behind buf).Agrees
      (joinedTransferVerdict behind bytes)
      (processTxIn behind buf (transferStart bytes.length)) := by
  obtain ⟨outcome, ends, agrees⟩ := (joinedTransferReader_sound behind buf).run
    (joinedTransferReader_at_start received)
    (JoinedTransfer.message_entersAtMost behind .zero)
  have ends : (@processTxRound (.joined behind) buf).run
      ((transferStart bytes.length).commandLength + 64)
      (transferStart bytes.length) = some outcome :=
    Body.run_mono ends (by simp only [transferStart]; omega)
  show (joinedTransferReader behind buf).Agrees _
    (runParser (@processTxRound (.joined behind) buf) _)
  rw [runParser, ends]
  exact agrees

/-- It returns 0 on what this layout takes. -/
theorem processTxIn_accepts_iff (received : Received buf bytes)
    (content : TxContent) :
    (∃ left, processTxIn behind buf (transferStart bytes.length) =
        .ok (0, left) ∧ left.content = content) ↔
      ∃ complete, joinedTransferVerdict behind bytes =
        .accepted content complete :=
  accepts_iff_of_agrees (processTxIn_agrees received) content

/-- It leaves the memory of the context where the layout does. -/
theorem processTxIn_leaves_iff (received : Received buf bytes) :
    processTxIn behind buf (transferStart bytes.length) =
        .error .fieldOverrun ↔
      joinedTransferVerdict behind bytes = .overrun :=
  leaves_iff_of_agrees (processTxIn_agrees received)

end Start

end LedgerOne
