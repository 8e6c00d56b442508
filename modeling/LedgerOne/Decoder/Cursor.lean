import LedgerOne.Lib.Rlp
import LedgerOne.Firmware.Rlp

/-!
# The cursor of the parsers

What the parsers see of the receive buffer is the run of bytes from the cursor
to the end of the command.  This module says how the header phase and the copy
of a field move that run: the header phase reads one RLP header, and the copy
takes the bytes of the field that are there.
-/

namespace LedgerOne

open Rlp

/-- From the cursor to the end of the command the buffer holds a stream. -/
def Holds (buf : Region 1024) (context : TxContext) (stream : List UInt8) :
    Prop :=
  ∃ position, context.workBuffer = some position ∧
    position + stream.length ≤ 1024 ∧
    context.commandLength = stream.length ∧
    buf.read position stream.length = stream

/-- Move the cursor over a number of bytes. -/
def TxContext.advance (count : Nat) (context : TxContext) : TxContext :=
  { context with
    workBuffer := context.workBuffer.map (· + count)
    commandLength := context.commandLength - count }

/-- The part of a context that neither a header nor a copied byte touches. -/
structure SameProgress (before after : TxContext) : Prop where
  txCurrentField : after.txCurrentField = before.txCurrentField
  stakeCurrentField : after.stakeCurrentField = before.stakeCurrentField
  currentBlsKeyIndex : after.currentBlsKeyIndex = before.currentBlsKeyIndex
  content : after.content = before.content

namespace Holds

variable {buf : Region 1024} {context other : TxContext}
  {stream : List UInt8}

theorem commandLength_eq (holds : Holds buf context stream) :
    context.commandLength = stream.length := by
  obtain ⟨_, _, _, length, _⟩ := holds
  exact length

/-- Only the cursor and the remaining length matter. -/
theorem of_eq (holds : Holds buf context stream)
    (workBuffer : other.workBuffer = context.workBuffer)
    (commandLength : other.commandLength = context.commandLength) :
    Holds buf other stream := by
  obtain ⟨position, cursor, inside, length, bytes⟩ := holds
  exact ⟨position, workBuffer.trans cursor, inside,
    commandLength.trans length, bytes⟩

/-- Behind the bytes moved over the buffer holds the rest of the stream. -/
theorem advance (holds : Holds buf context stream) (count : Nat)
    (enough : count ≤ stream.length) :
    Holds buf (context.advance count) (stream.drop count) := by
  obtain ⟨position, cursor, inside, length, bytes⟩ := holds
  refine ⟨position + count, by simp [TxContext.advance, cursor], ?_, ?_, ?_⟩
  · simp only [List.length_drop]
    omega
  · simp [TxContext.advance, length]
  · rw [List.length_drop, ← Region.drop_read, bytes]

/-- The bytes at the cursor. -/
theorem read (holds : Holds buf context stream) :
    ∃ position, context.workBuffer = some position ∧
      ∀ count, count ≤ stream.length ->
        buf.read? position count = some (stream.take count) := by
  obtain ⟨position, cursor, inside, length, bytes⟩ := holds
  refine ⟨position, cursor, fun count enough => ?_⟩
  rw [Region.read?_eq_some _ _ _ (by omega), ← bytes, Region.take_read,
    Nat.min_eq_left enough]

end Holds

/-- `readTxByte` before a header takes the first byte of the stream. -/
theorem readTxByte_of_holds {buf : Region 1024} {context : TxContext}
    {byte : UInt8} {stream : List UInt8}
    (holds : Holds buf context (byte :: stream))
    (idle : context.processingField = false) :
    readTxByte buf context = .ok (byte, context.advance 1) := by
  obtain ⟨position, cursor, inside, length, bytes⟩ := holds
  rw [List.length_cons, Region.read_succ, List.cons.injEq] at bytes
  simp only [List.length_cons] at inside
  simp only [readTxByte, cursor, if_pos (show position < 1024 by omega),
    bytes.1]
  simp [TxContext.advance, cursor, idle]

/-! ## The header phase -/

/-- The number of length bytes that follow the first byte of a header. -/
def lengthBytes (first : UInt8) : Nat :=
  if first.toNat ≤ 0xb7 then 0
  else if first.toNat ≤ 0xbf then first.toNat - 0xb7
  else if first.toNat ≤ 0xf7 then 0
  else first.toNat - 0xf7

/-- `rlpCanDecode` waits for the length bytes and refuses more than four. -/
theorem rlpCanDecode_eq (buffer : Region 5) (bufferLength : Nat)
    (fed : 0 < bufferLength) :
    rlpCanDecode buffer bufferLength =
      if bufferLength < 1 + lengthBytes (buffer.get 0) then none
      else some (decide (lengthBytes (buffer.get 0) ≤ 4)) := by
  unfold rlpCanDecode lengthBytes
  generalize (buffer.get 0).toNat = first
  dsimp only
  split_ifs <;> first
    | omega
    | rw [Option.some.injEq, eq_comm, decide_eq_true_eq]; omega
    | rw [Option.some.injEq, eq_comm, decide_eq_false_iff_not]; omega
    | rfl

/-- The bytes at the front of the header buffer. -/
theorem get_of_read {buffer : Region 5} {bytes : List UInt8}
    (fed : buffer.read 0 bytes.length = bytes)
    {index : Nat} (inside : index < bytes.length) :
    buffer.get index = bytes[index] := by
  have within : index < (buffer.read 0 bytes.length).length := by
    simpa using inside
  have equal : (buffer.read 0 bytes.length)[index] = bytes[index] := by
    simp [fed]
  rw [Region.getElem_read, Nat.zero_add] at equal
  exact equal

/-- The length bytes of a long header are decoded big-endian. -/
private theorem rlpDecodeLength_long {buffer : Region 5} {first : UInt8}
    {bytes : List UInt8} {base : Nat} (isList : Bool)
    (kind : base = 0xb7 ∧ isList = false ∨ base = 0xf7 ∧ isList = true)
    (value : first.toNat = base + bytes.length)
    (some_ : 1 ≤ bytes.length) (few : bytes.length ≤ 4)
    (fed : buffer.read 0 (first :: bytes).length = first :: bytes) :
    rlpDecodeLength buffer =
      some ⟨beNat bytes, 1 + bytes.length, isList⟩ := by
  have byteZero : buffer.get 0 = first := get_of_read fed (by simp)
  match bytes, value, some_, few, fed with
  | [one], value, _, _, fed =>
      have byteOne : buffer.get 1 = one := get_of_read fed (by simp)
      rcases kind with ⟨rfl, rfl⟩ | ⟨rfl, rfl⟩ <;>
        simp only [List.length_cons, List.length_nil, Nat.reduceAdd] at value <;>
        simp [rlpDecodeLength, byteZero, value, byteOne, beNat]
  | [one, two], value, _, _, fed =>
      have byteOne : buffer.get 1 = one := get_of_read fed (by simp)
      have byteTwo : buffer.get 2 = two := get_of_read fed (by simp)
      have := one.toNat_lt
      have := two.toNat_lt
      rcases kind with ⟨rfl, rfl⟩ | ⟨rfl, rfl⟩ <;>
        simp only [List.length_cons, List.length_nil, Nat.reduceAdd] at value <;>
        simp [rlpDecodeLength, byteZero, value, byteOne, byteTwo, beNat] <;>
        omega
  | [one, two, three], value, _, _, fed =>
      have byteOne : buffer.get 1 = one := get_of_read fed (by simp)
      have byteTwo : buffer.get 2 = two := get_of_read fed (by simp)
      have byteThree : buffer.get 3 = three := get_of_read fed (by simp)
      have := one.toNat_lt
      have := two.toNat_lt
      have := three.toNat_lt
      rcases kind with ⟨rfl, rfl⟩ | ⟨rfl, rfl⟩ <;>
        simp only [List.length_cons, List.length_nil, Nat.reduceAdd] at value <;>
        simp [rlpDecodeLength, byteZero, value, byteOne, byteTwo, byteThree,
          beNat] <;>
        omega
  | [one, two, three, four], value, _, _, fed =>
      have byteOne : buffer.get 1 = one := get_of_read fed (by simp)
      have byteTwo : buffer.get 2 = two := get_of_read fed (by simp)
      have byteThree : buffer.get 3 = three := get_of_read fed (by simp)
      have byteFour : buffer.get 4 = four := get_of_read fed (by simp)
      have := one.toNat_lt
      have := two.toNat_lt
      have := three.toNat_lt
      have := four.toNat_lt
      rcases kind with ⟨rfl, rfl⟩ | ⟨rfl, rfl⟩ <;>
        simp only [List.length_cons, List.length_nil, Nat.reduceAdd] at value <;>
        simp [rlpDecodeLength, byteZero, value, byteOne, byteTwo, byteThree,
          byteFour, beNat] <;>
        omega

/-- A decoded header is what the stream's header says, over the bytes fed. -/
theorem rlpDecodeLength_eq (buffer : Region 5) (first : UInt8)
    (bytes rest : List UInt8)
    (few : lengthBytes first ≤ 4)
    (count : bytes.length = lengthBytes first)
    (fed : buffer.read 0 (first :: bytes).length = first :: bytes) :
    ∃ length offset isList,
      rlpDecodeLength buffer = some ⟨length, offset, isList⟩ ∧
      (first.toNat ≤ 0x7f -> offset = 0 ∧ bytes = []) ∧
      (0x7f < first.toNat -> offset = (first :: bytes).length) ∧
      readHeader (first :: bytes ++ rest) =
        .header isList length
          (if offset = 0 then first :: bytes ++ rest else rest) := by
  have byteZero : buffer.get 0 = first := get_of_read fed (by simp)
  by_cases single : first.toNat ≤ 0x7f
  · have none : bytes = [] := by
      simpa [lengthBytes, show first.toNat ≤ 0xb7 by omega] using count
    refine ⟨1, 0, false, ?_, fun _ => ⟨rfl, none⟩, by omega, ?_⟩
    · simp [rlpDecodeLength, byteZero, single]
    · simp [readHeader, single]
  by_cases short : first.toNat ≤ 0xb7
  · obtain rfl : bytes = [] := by
      simpa [lengthBytes, short] using count
    refine ⟨first.toNat - 0x80, 1, false, ?_, by omega, by simp, ?_⟩
    · simp [rlpDecodeLength, byteZero, single, short]
    · simp [readHeader, single, short]
  by_cases long : first.toNat ≤ 0xbf
  · have lengthCount : bytes.length = first.toNat - 0xb7 := by
      simpa [lengthBytes, short, long] using count
    have some_ : 1 ≤ bytes.length := by omega
    refine ⟨beNat bytes, 1 + bytes.length, false, ?_, by omega,
      fun _ => Nat.add_comm _ _, ?_⟩
    · exact rlpDecodeLength_long false (Or.inl ⟨rfl, rfl⟩) (by omega) some_
        (by omega) fed
    · rw [if_neg (by omega)]
      simp [readHeader, readLength, single, short, long, ← lengthCount,
        show bytes.length ≤ 4 by omega]
  by_cases shortList : first.toNat ≤ 0xf7
  · obtain rfl : bytes = [] := by
      simpa [lengthBytes, short, long, shortList] using count
    refine ⟨first.toNat - 0xc0, 1, true, ?_, by omega, by simp, ?_⟩
    · simp [rlpDecodeLength, byteZero, single, short, long, shortList]
    · simp [readHeader, single, short, long, shortList]
  · have lengthCount : bytes.length = first.toNat - 0xf7 := by
      simpa [lengthBytes, short, long, shortList] using count
    have some_ : 1 ≤ bytes.length := by omega
    refine ⟨beNat bytes, 1 + bytes.length, true, ?_, by omega,
      fun _ => Nat.add_comm _ _, ?_⟩
    · exact rlpDecodeLength_long true (Or.inr ⟨rfl, rfl⟩) (by omega) some_
        (by omega) fed
    · rw [if_neg (by omega)]
      simp [readHeader, readLength, single, short, long, shortList,
        ← lengthCount, show bytes.length ≤ 4 by omega]

/-- Without enough length bytes, or with too many announced, no header is
decoded. -/
theorem readHeader_undecoded {first : UInt8} {bytes : List UInt8}
    (lacking : 4 < lengthBytes first ∨ bytes.length < lengthBytes first)
    (isList : Bool) (length : Nat) (body : List UInt8) :
    readHeader (first :: bytes) ≠ .header isList length body := by
  unfold lengthBytes at lacking
  simp only [readHeader, readLength]
  split_ifs at lacking ⊢ <;> first | omega | simp

/-- Bytes of a header are in the header buffer and the rest of the stream is
still to be read. -/
structure Fed (buf : Region 1024) (before context : TxContext)
    (fed rest : List UInt8) : Prop where
  holds : Holds buf context rest
  idle : context.processingField = false
  count : context.rlpBufferPos = fed.length
  bytes : context.rlpBuffer.read 0 fed.length = fed
  cursor : context.workBuffer = before.workBuffer.map (· + fed.length)
  remaining : context.commandLength + fed.length = before.commandLength
  same : SameProgress before context

/-- Storing one more byte of a header. -/
private theorem read_splice_concat (buffer : Region 5) (fed : List UInt8)
    (byte : UInt8) (bytes : buffer.read 0 fed.length = fed)
    (room : fed.length < 5) :
    (buffer.splice fed.length [byte]).read 0 (fed ++ [byte]).length =
      fed ++ [byte] := by
  have front : ((buffer.splice fed.length [byte]).read 0
      (fed ++ [byte]).length).take fed.length = fed := by
    rw [Region.take_read, List.length_append, Nat.min_eq_left (by omega),
      Region.read_splice_of_disjoint _ _ _ _ _ (by simp), bytes]
  have back : ((buffer.splice fed.length [byte]).read 0
      (fed ++ [byte]).length).drop fed.length = [byte] := by
    rw [Region.drop_read, List.length_append, Nat.zero_add,
      Nat.add_sub_cancel_left]
    exact Region.read_splice_self _ _ _ (by simp; omega)
  calc (buffer.splice fed.length [byte]).read 0 (fed ++ [byte]).length
      = _ ++ _ := (List.take_append_drop fed.length _).symm
    _ = fed ++ [byte] := by rw [front, back]

/-- One round of the header loop takes one byte and looks at the first one. -/
private theorem feedHeader_of_fed {buf : Region 1024}
    {before context : TxContext} {fed rest : List UInt8} {byte : UInt8}
    (first : UInt8) (state : Fed buf before context fed (byte :: rest))
    (room : fed.length < 5)
    (head : (fed ++ [byte]).head? = some first) :
    ∃ next, Fed buf before next (fed ++ [byte]) rest ∧
      feedHeader buf context =
        if fed.length < lengthBytes first then
          if fed.length = 4 then .ok (.exit (some (-1), next))
          else .ok (.again next)
        else if lengthBytes first ≤ 4 then .ok (.exit (none, next))
        else .ok (.exit (some (-1), next)) := by
  have available := state.holds.commandLength_eq
  simp only [List.length_cons] at available
  let next := { context.advance 1 with
    rlpBuffer := context.rlpBuffer.splice fed.length [byte]
    rlpBufferPos := fed.length + 1 }
  have stored := read_splice_concat context.rlpBuffer fed byte state.bytes room
  have firstByte : next.rlpBuffer.get 0 = first := by
    rw [get_of_read stored (by simp)]
    simpa [List.head?_eq_getElem?, List.getElem?_eq_some_iff] using head
  refine ⟨next, ?_, ?_⟩
  · constructor
    · exact (state.holds.advance 1 (by simp)).of_eq rfl rfl
    · exact state.idle
    · simp [next]
    · exact stored
    · simp [next, TxContext.advance, state.cursor, Function.comp_def,
        Nat.add_assoc]
    · have := state.remaining
      simp only [next, TxContext.advance, List.length_append,
        List.length_singleton]
      omega
    · exact ⟨state.same.1, state.same.2, state.same.3, state.same.4⟩
  · have decides := rlpCanDecode_eq next.rlpBuffer next.rlpBufferPos
      (Nat.succ_pos _)
    rw [firstByte] at decides
    simp only [feedHeader, readTxByte_of_holds state.holds state.idle,
      state.count, if_pos room,
      if_neg (show context.commandLength ≠ 0 by omega)]
    have decided : rlpCanDecode ((context.advance 1).rlpBuffer.splice
        fed.length [byte]) (fed.length + 1) =
          if fed.length + 1 < 1 + lengthBytes first then none
          else some (decide (lengthBytes first ≤ 4)) := decides
    rw [decided]
    by_cases waiting : fed.length < lengthBytes first
    · rw [if_pos (show fed.length + 1 < 1 + lengthBytes first by omega),
        if_pos waiting]
      simp [next, TxContext.advance]
    · rw [if_neg (show ¬fed.length + 1 < 1 + lengthBytes first by omega),
        if_neg waiting]
      simp [next, TxContext.advance]

/-- The code of a header loop without a header: with five bytes in the buffer
it gives up, with fewer it has run out of bytes. -/
def undecodedCode (bytes : List UInt8) : Int :=
  if 4 ≤ bytes.length then -1 else 1

theorem undecodedCode_ne_zero (bytes : List UInt8) :
    undecodedCode bytes ≠ 0 := by
  unfold undecodedCode
  split <;> decide

/-- The header loop ends with the header of the stream in the buffer, or
without one when the stream has none. -/
private theorem feedHeader_run {buf : Region 1024}
    {before context : TxContext} {first : UInt8} {rest : List UInt8}
    (more : List UInt8) (rounds : Nat)
    (state : Fed buf before context (first :: more) rest)
    (waiting : more.length < lengthBytes first)
    (room : more.length < 4)
    (enough : rest.length < rounds) :
    (lengthBytes first ≤ 4 ∧
      ∃ taken remaining next, rest = taken ++ remaining ∧
        (more ++ taken).length = lengthBytes first ∧
        Fed buf before next (first :: (more ++ taken)) remaining ∧
        (feedHeader buf).run rounds context = some (.ok (none, next))) ∨
    ((4 < lengthBytes first ∨ (more ++ rest).length < lengthBytes first) ∧
      ∃ next, next.rlpBufferPos = min 5 (1 + (more ++ rest).length) ∧
        (feedHeader buf).run rounds context =
          some (.ok (some (undecodedCode (more ++ rest)), next))) := by
  induction rest generalizing context more rounds with
  | nil =>
      obtain ⟨rounds, rfl⟩ : ∃ fewer, rounds = fewer + 1 :=
        ⟨rounds - 1, by simp at enough; omega⟩
      have finished := state.holds.commandLength_eq
      have count := state.count
      simp only [List.length_cons] at count
      refine Or.inr ⟨Or.inr (by simpa using waiting), context, ?_, ?_⟩
      · rw [List.append_nil, count]
        omega
      · simp only [List.length_nil] at finished
        rw [List.append_nil, undecodedCode, if_neg (by omega)]
        simp [Body.run, feedHeader, finished]
  | cons byte rest inductionHypothesis =>
      obtain ⟨rounds, rfl⟩ : ∃ fewer, rounds = fewer + 1 :=
        ⟨rounds - 1, by simp at enough; omega⟩
      obtain ⟨next, stored, round⟩ := feedHeader_of_fed first state
        (by simp; omega) (by simp)
      simp only [List.length_cons] at round
      by_cases last : more.length + 1 = lengthBytes first
      · rw [if_neg (by omega)] at round
        by_cases few : lengthBytes first ≤ 4
        · rw [if_pos few] at round
          exact Or.inl ⟨few, [byte], rest, next, rfl, by simpa using last,
            stored, by simp [Body.run, round]⟩
        · exact absurd room (by omega)
      · rw [if_pos (by omega)] at round
        by_cases full : more.length + 1 = 4
        · rw [if_pos full] at round
          have count := stored.count
          simp only [List.length_append, List.length_cons, List.length_nil]
            at count
          refine Or.inr ⟨Or.inl (by omega), next, ?_, ?_⟩
          · rw [List.length_append, List.length_cons, count]
            omega
          · rw [undecodedCode,
              if_pos (by rw [List.length_append, List.length_cons]; omega)]
            simp [Body.run, round]
        · rw [if_neg full] at round
          have later := inductionHypothesis (more ++ [byte]) rounds stored
            (by simp; omega) (by simp; omega)
            (by simp at enough; omega)
          have step : (feedHeader buf).run (rounds + 1) context =
              (feedHeader buf).run rounds next := by
            simp [Body.run, round]
          rw [step]
          obtain ⟨few, taken, remaining, final, split, count, fed, ends⟩ |
            ⟨lacking, final, filled, ends⟩ := later
          · refine Or.inl ⟨few, byte :: taken, remaining, final, ?_, ?_, ?_,
              ends⟩
            · simp [split]
            · simpa using count
            · simpa using fed
          · exact Or.inr ⟨by simpa using lacking, final, by simpa using filled,
              by simpa using ends⟩

/-- The parser is between two fields and the buffer holds a stream. -/
structure Clean (buf : Region 1024) (context : TxContext)
    (stream : List UInt8) : Prop where
  holds : Holds buf context stream
  idle : context.processingField = false
  rlpBufferPos : context.rlpBufferPos = 0

/-- The parser is at the start of a field of the given announced length. -/
structure Ready (buf : Region 1024) (before context : TxContext)
    (length : Nat) (body : List UInt8) : Prop where
  holds : Holds buf context body
  processing : context.processingField = true
  rlpBufferPos : context.rlpBufferPos = 0
  currentFieldLength : context.currentFieldLength = length
  currentFieldPos : context.currentFieldPos = 0
  same : SameProgress before context

/-- From a clean context the header loop feeds the header of the stream. -/
theorem feedHeader_run_of_clean {buf : Region 1024}
    {context : TxContext} {first : UInt8} {bytes : List UInt8}
    (clean : Clean buf context (first :: bytes)) (rounds : Nat)
    (enough : bytes.length + 1 < rounds) :
    (lengthBytes first ≤ 4 ∧
      ∃ taken remaining next, bytes = taken ++ remaining ∧
        taken.length = lengthBytes first ∧
        Fed buf context next (first :: taken) remaining ∧
        (feedHeader buf).run rounds context = some (.ok (none, next))) ∨
    ((4 < lengthBytes first ∨ bytes.length < lengthBytes first) ∧
      ∃ next, next.rlpBufferPos = min 5 (1 + bytes.length) ∧
        (feedHeader buf).run rounds context =
          some (.ok (some (undecodedCode bytes), next))) := by
  obtain ⟨rounds, rfl⟩ : ∃ fewer, rounds = fewer + 1 :=
    ⟨rounds - 1, by omega⟩
  have start : Fed buf context context [] (first :: bytes) :=
    ⟨clean.holds, clean.idle, clean.rlpBufferPos, by simp, by simp, by simp,
      ⟨rfl, rfl, rfl, rfl⟩⟩
  obtain ⟨next, stored, round⟩ := feedHeader_of_fed first start
    (by simp) (by simp)
  simp only [List.length_nil] at round
  by_cases short : lengthBytes first = 0
  · rw [if_neg (by omega), if_pos (by omega)] at round
    exact Or.inl ⟨by omega, [], bytes, next, by simp, by simp [short],
      stored, by simp [Body.run, round]⟩
  · rw [if_pos (by omega), if_neg (by omega)] at round
    have step : (feedHeader buf).run (rounds + 1) context =
        (feedHeader buf).run rounds next := by
      simp [Body.run, round]
    rw [step]
    exact feedHeader_run [] rounds stored (by simp; omega) (by simp)
      (by omega)

/-- `readFieldHeader` between two fields reads the header of the stream. -/
theorem readFieldHeader_of_header {buf : Region 1024} {context : TxContext}
    {stream : List UInt8} (clean : Clean buf context stream)
    {isList : Bool} {length : Nat} {body : List UInt8}
    (decoded : readHeader stream = .header isList length body) :
    ∃ ready, readFieldHeader buf context = .ok (none, ready) ∧
      Ready buf context ready length body := by
  cases stream with
  | nil => simp at decoded
  | cons first bytes =>
      have available := clean.holds.commandLength_eq
      obtain ⟨few, taken, remaining, next, rfl, count, fed, ends⟩ |
        ⟨lacking, _⟩ := feedHeader_run_of_clean clean
          (context.commandLength + 1) (by simp at available; omega)
      · obtain ⟨fieldLength, offset, list, decodes, single, several, header⟩ :=
          rlpDecodeLength_eq next.rlpBuffer first taken remaining few count
            fed.bytes
        rw [List.cons_append, decoded, HeaderRead.header.injEq] at header
        obtain ⟨-, rfl, rfl⟩ := header
        simp only [readFieldHeader, ends, decodes]
        by_cases pushBack : offset = 0
        · have alone : first.toNat ≤ 0x7f := by
            by_contra many
            have counted := several (not_le.mp many)
            rw [List.length_cons] at counted
            omega
          obtain rfl := (single alone).2
          rw [if_pos pushBack]
          refine ⟨_, rfl, ?_, rfl, rfl, rfl, rfl, ?_⟩
          · rw [if_pos pushBack]
            apply clean.holds.of_eq
            · obtain ⟨position, cursor, _⟩ := clean.holds
              simp [fed.cursor, cursor]
            · simpa using fed.remaining
          · exact ⟨fed.same.1, fed.same.2, fed.same.3, fed.same.4⟩
        · rw [if_neg pushBack]
          refine ⟨_, rfl, ?_, rfl, rfl, rfl, rfl, ?_⟩
          · rw [if_neg pushBack]
            exact fed.holds.of_eq rfl rfl
          · exact ⟨fed.same.1, fed.same.2, fed.same.3, fed.same.4⟩
      · exact absurd decoded (readHeader_undecoded lacking _ _ _)

/-- Without a header in the stream `readFieldHeader` leaves with a nonzero
code. -/
theorem readFieldHeader_of_undecoded {buf : Region 1024}
    {context : TxContext} {stream : List UInt8}
    (clean : Clean buf context stream)
    (undecoded : ∀ isList length body,
      readHeader stream ≠ .header isList length body) :
    ∃ code left, readFieldHeader buf context = .ok (some code, left) ∧
      code ≠ 0 := by
  have available := clean.holds.commandLength_eq
  cases stream with
  | nil =>
      simp only [List.length_nil] at available
      exact ⟨1, context, by
        simp [readFieldHeader, Body.run, feedHeader, available], by decide⟩
  | cons first bytes =>
      obtain ⟨few, taken, remaining, next, rfl, count, fed, _⟩ |
        ⟨_, next, _, ends⟩ := feedHeader_run_of_clean clean
          (context.commandLength + 1) (by simp at available; omega)
      · obtain ⟨_, _, _, _, _, _, header⟩ :=
          rlpDecodeLength_eq next.rlpBuffer first taken remaining few count
            fed.bytes
        exact absurd header (undecoded _ _ _)
      · exact ⟨undecodedCode bytes, next, by simp [readFieldHeader, ends],
          undecodedCode_ne_zero bytes⟩

end LedgerOne
