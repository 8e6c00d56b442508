import LedgerOne.Decoder.Start

/-!
# Headers byte by byte

How `rlpCanDecode`, `rlpDecodeLength` and the header loop treat the canonical
header of a payload, a byte that is its own payload, and a header with more
length bytes than the buffer has room for.
-/

namespace LedgerOne

open Rlp

/-- The base of the headers of strings and of lists. -/
def headerBase (isList : Bool) : Nat := if isList then 0xc0 else 0x80

/-- A canonical header announces its length bytes in its first one, and reads
as its payload's. -/
theorem header_parts (isList : Bool) {length : Nat} (small : length < 2 ^ 32) :
    ∃ first bytes, header (headerBase isList) length = first :: bytes ∧
      0x7f < first.toNat ∧ bytes.length = lengthBytes first ∧
      lengthBytes first ≤ 4 ∧
      ∀ rest, readHeader (first :: bytes ++ rest) =
        .header isList length rest := by
  have reads : ∀ rest, readHeader (header (headerBase isList) length ++ rest) =
      .header isList length rest := by
    cases isList
    · exact readHeader_header_string small
    · exact readHeader_header_list small
  have base : headerBase isList = 0x80 ∨ headerBase isList = 0xc0 := by
    cases isList
    · exact Or.inl rfl
    · exact Or.inr rfl
  have value : ∀ number < 256, (UInt8.ofNat number).toNat = number :=
    fun number inside => UInt8.toNat_ofNat_of_lt' inside
  by_cases short : length < 56
  · have first := value (headerBase isList + length) (by omega)
    have whole : header (headerBase isList) length =
        [UInt8.ofNat (headerBase isList + length)] := if_pos short
    refine ⟨_, [], whole, by omega, ?_, ?_, whole ▸ reads⟩
    · rw [lengthBytes, first, List.length_nil]
      split_ifs <;> omega
    · rw [lengthBytes, first]
      split_ifs <;> omega
  · have few := length_natBytes_le (show length < 256 ^ 4 by omega)
    have some := List.length_pos_iff.mpr
      (natBytes_ne_nil (show 0 < length by omega))
    have first := value
      (headerBase isList + 55 + (natBytes length).length) (by omega)
    have whole : header (headerBase isList) length =
        UInt8.ofNat (headerBase isList + 55 + (natBytes length).length) ::
          natBytes length := if_neg short
    refine ⟨_, natBytes length, whole, by omega, ?_, ?_, whole ▸ reads⟩
    · rw [lengthBytes, first]
      split_ifs <;> omega
    · rw [lengthBytes, first]
      split_ifs <;> omega

/-- The header phase leaves behind a field that is announced, and has moved
the cursor over the bytes that it has consumed. -/
structure Announces (context ready : TxContext) (consumed length : Nat)
    (isList : Bool) : Prop where
  workBuffer : ready.workBuffer = context.workBuffer.map (· + consumed)
  commandLength : ready.commandLength + consumed = context.commandLength
  currentFieldLength : ready.currentFieldLength = length
  currentFieldIsList : ready.currentFieldIsList = isList
  currentFieldPos : ready.currentFieldPos = 0
  processingField : ready.processingField = true

section Feeding

variable {buf : Region 1024} {context : TxContext} {first : UInt8}
  {bytes rest body : List UInt8} {length : Nat} {isList : Bool}

/-- The header phase consumes a header that can be decoded, but for the byte
that is its own payload. -/
theorem readFieldHeader_announces
    (clean : Clean buf context (first :: bytes ++ rest))
    (count : bytes.length = lengthBytes first)
    (few : lengthBytes first ≤ 4)
    (reads : readHeader (first :: bytes ++ rest) =
      .header isList length body) :
    ∃ ready, readFieldHeader buf context = .ok (none, ready) ∧
      Announces context ready
        (if first.toNat ≤ 0x7f then 0 else (first :: bytes).length) length
        isList := by
  have available := clean.holds.commandLength_eq
  have whole : Clean buf context (first :: (bytes ++ rest)) := clean
  obtain ⟨_, taken, remaining, next, split, takes, fed, ends⟩ |
    ⟨lacking, _⟩ := feedHeader_run_of_clean whole
      (context.commandLength + 1) (by simp at available ⊢; omega)
  · obtain ⟨rfl, rfl⟩ := List.append_inj split (count.trans takes.symm)
    obtain ⟨fieldLength, offset, list, decodes, single, several, header⟩ :=
      rlpDecodeLength_eq next.rlpBuffer first bytes rest few takes fed.bytes
    rw [reads, HeaderRead.header.injEq] at header
    obtain ⟨rfl, rfl, -⟩ := header
    simp only [readFieldHeader, ends, decodes]
    by_cases alone : first.toNat ≤ 0x7f
    · obtain ⟨pushBack, rfl⟩ := single alone
      obtain ⟨position, cursor, _⟩ := clean.holds
      have moved := fed.cursor
      have remains := fed.remaining
      rw [cursor, List.length_singleton] at moved
      rw [List.length_singleton] at remains
      rw [if_pos pushBack, if_pos alone]
      refine ⟨_, rfl, ?_, remains, rfl, rfl, rfl, rfl⟩
      rw [cursor]
      dsimp only
      rw [moved]
      rfl
    · have consumed := several (not_le.mp alone)
      have positive : offset ≠ 0 := by
        rw [consumed]
        exact Nat.succ_ne_zero _
      rw [if_neg positive, if_neg alone]
      exact ⟨_, rfl, fed.cursor, fed.remaining, rfl, rfl, rfl, rfl⟩
  · rw [List.length_append] at lacking
    omega

/-- A header of more than four length bytes is refused when the buffer is
full; before that the stream has ended. -/
theorem readFieldHeader_refuses (clean : Clean buf context (first :: bytes))
    (many : 4 < lengthBytes first) :
    ∃ left, readFieldHeader buf context =
        .ok (some (if 4 ≤ bytes.length then -1 else 1), left) ∧
      left.rlpBufferPos = min 5 (1 + bytes.length) := by
  have available := clean.holds.commandLength_eq
  obtain ⟨few, _⟩ | ⟨_, next, filled, ends⟩ := feedHeader_run_of_clean clean
    (context.commandLength + 1) (by simp at available ⊢; omega)
  · omega
  · refine ⟨next, ?_, filled⟩
    simp only [readFieldHeader, ends, undecodedCode]

end Feeding

/-- What the header buffer says about a canonical header, of which it holds a
part from the front. -/
theorem rlpCanDecode_prefix (isList : Bool) {length : Nat}
    (small : length < 2 ^ 32) {buffer : Region 5} {fed : List UInt8}
    (some : fed ≠ []) (front : fed <+: header (headerBase isList) length)
    (holds : buffer.read 0 fed.length = fed) :
    rlpCanDecode buffer fed.length =
      if fed = header (headerBase isList) length then Option.some true
      else none := by
  obtain ⟨first, bytes, whole, _, count, few, _⟩ := header_parts isList small
  rw [whole] at front ⊢
  obtain ⟨rest, joined⟩ := front
  cases fed with
  | nil => exact absurd rfl some
  | cons head more =>
      rw [List.cons_append, List.cons.injEq] at joined
      obtain ⟨rfl, joined⟩ := joined
      have firstByte : buffer.get 0 = head :=
        get_of_read holds (Nat.succ_pos more.length)
      rw [List.length_cons, rlpCanDecode_eq _ _ (Nat.succ_pos more.length),
        firstByte, ← count, ← joined, List.length_append]
      have enough : more.length + rest.length ≤ 4 := by
        rw [← List.length_append, joined, count]
        exact few
      by_cases ended : rest = []
      · subst ended
        rw [List.append_nil, if_pos rfl, decide_eq_true enough,
          List.length_nil, if_neg (by omega)]
      · have left := List.length_pos_iff.mpr ended
        have unequal : ¬head :: more = head :: (more ++ rest) := by
          intro same
          have counted := congrArg List.length same
          simp only [List.length_cons, List.length_append] at counted
          omega
        rw [if_pos (by omega), if_neg unequal]

/-- The whole header gives the length of the payload and its own. -/
theorem rlpDecodeLength_header (isList : Bool) {length : Nat}
    (small : length < 2 ^ 32) {buffer : Region 5}
    (holds : buffer.read 0 (header (headerBase isList) length).length =
      header (headerBase isList) length) :
    rlpDecodeLength buffer =
      some ⟨length, (header (headerBase isList) length).length, isList⟩ := by
  obtain ⟨first, bytes, whole, long, count, few, reads⟩ :=
    header_parts isList small
  rw [whole] at holds ⊢
  obtain ⟨fieldLength, offset, list, decodes, _, several, header⟩ :=
    rlpDecodeLength_eq buffer first bytes [] few count holds
  rw [reads [], HeaderRead.header.injEq] at header
  obtain ⟨rfl, rfl, -⟩ := header
  rw [decodes, several long]

/-- The streaming decoder agrees with the encoding.  A canonical header is
decoded with its last byte and not before, as the length and the kind of its
payload, and is consumed; a byte that is its own payload is pushed back; a
header of more than four length bytes is refused once five bytes are in the
buffer. -/
theorem headers_decoded (isList : Bool) {length : Nat}
    (small : length < 2 ^ 32) :
    let whole := header (headerBase isList) length
    (∀ (buffer : Region 5) (fed : List UInt8), fed ≠ [] -> fed <+: whole ->
      buffer.read 0 fed.length = fed ->
        rlpCanDecode buffer fed.length =
          if fed = whole then some true else none) ∧
    (∀ buffer : Region 5, buffer.read 0 whole.length = whole ->
      rlpDecodeLength buffer = some ⟨length, whole.length, isList⟩) ∧
    (∀ (buf : Region 1024) (context : TxContext) (rest : List UInt8),
      Clean buf context (whole ++ rest) ->
        ∃ ready, readFieldHeader buf context = .ok (none, ready) ∧
          Announces context ready whole.length length isList) ∧
    (∀ (buf : Region 1024) (context : TxContext) (byte : UInt8)
      (rest : List UInt8), byte.toNat ≤ 0x7f ->
        Clean buf context (byte :: rest) ->
          ∃ ready, readFieldHeader buf context = .ok (none, ready) ∧
            Announces context ready 0 1 false) ∧
    ∀ (buf : Region 1024) (context : TxContext) (first : UInt8)
      (bytes : List UInt8), 4 < lengthBytes first ->
        Clean buf context (first :: bytes) ->
          ∃ left, readFieldHeader buf context =
              .ok (some (if 4 ≤ bytes.length then -1 else 1), left) ∧
            left.rlpBufferPos = min 5 (1 + bytes.length) := by
  intro whole
  refine ⟨?_, ?_, ?_, ?_, ?_⟩
  · intro buffer fed some front holds
    exact rlpCanDecode_prefix isList small some front holds
  · intro buffer holds
    exact rlpDecodeLength_header isList small holds
  · intro buf context rest clean
    obtain ⟨first, bytes, parts, long, count, few, reads⟩ :=
      header_parts isList small
    have same : whole = first :: bytes := parts
    rw [same] at clean ⊢
    have announced := readFieldHeader_announces clean count few (reads rest)
    rwa [if_neg (not_le.mpr long)] at announced
  · intro buf context byte rest alone clean
    have none : lengthBytes byte = 0 := if_pos (by omega)
    have clean : Clean buf context (byte :: [] ++ rest) := clean
    have announced := readFieldHeader_announces clean none.symm (by omega)
      (if_pos alone)
    rwa [if_pos alone] at announced
  · intro buf context first bytes many clean
    exact readFieldHeader_refuses clean many

theorem length_thousandHeader_le :
    ([0xf9, 0x03, 0xe8] : List UInt8).length ≤ 1024 := by decide

/-- The header of a list of 1000 bytes, with two of its bytes, with all three,
and at the front of a transfer. -/
theorem headers_decoded_thousand :
    rlpCanDecode (.ofList [0xf9, 0x03]) 2 = none ∧
      rlpDecodeLength (.ofList [0xf9, 0x03, 0xe8]) = some ⟨1000, 3, true⟩ ∧
      ∃ ready, readFieldHeader (.ofList [0xf9, 0x03, 0xe8]) (transferStart 3) =
          .ok (none, ready) ∧
        Announces (transferStart 3) ready 3 1000 true := by
  obtain ⟨decodable, decodes, announces, -, -⟩ :=
    headers_decoded true (show 1000 < 2 ^ 32 by decide)
  exact ⟨decodable (.ofList [0xf9, 0x03]) [0xf9, 0x03] (by decide)
      (by decide) (by decide),
    decodes (.ofList [0xf9, 0x03, 0xe8]) (by decide),
    announces _ _ [] (clean_transferStart
      (received_ofList length_thousandHeader_le))⟩

end LedgerOne
