import LedgerOne.Lib.Bytes

/-!
# Recursive length prefix encoding

Items and their canonical encoding, and the reading of one header from the
front of a byte stream.  A header announces a kind and a payload length of at
most four bytes.  A byte up to `0x7f` is its own one-byte payload, so reading
its header consumes nothing.
-/

namespace LedgerOne
namespace Rlp

/-- An item is a byte string or a list of items. -/
inductive Item
  | string (bytes : List UInt8)
  | list (items : List Item)

/-- The header of a payload of `length` bytes; `base` is `0x80` for strings
and `0xc0` for lists. -/
def header (base length : Nat) : List UInt8 :=
  if length < 56 then [UInt8.ofNat (base + length)]
  else
    UInt8.ofNat (base + 55 + (natBytes length).length) :: natBytes length

/-- The canonical encoding of a byte string. -/
def encodeString (bytes : List UInt8) : List UInt8 :=
  match bytes with
  | [byte] => if byte.toNat < 0x80 then [byte] else header 0x80 1 ++ [byte]
  | _ => header 0x80 bytes.length ++ bytes

/-- The canonical encoding of a list with the given encoded elements. -/
def encodeList (payload : List UInt8) : List UInt8 :=
  header 0xc0 payload.length ++ payload

mutual

/-- The canonical encoding of an item. -/
def Item.encode : Item -> List UInt8
  | .string bytes => encodeString bytes
  | .list items => encodeList (Item.encodeAll items)

/-- The canonical encodings of several items, one after the other. -/
def Item.encodeAll : List Item -> List UInt8
  | [] => []
  | item :: items => item.encode ++ Item.encodeAll items

end

/-- The item of a number: its minimal big-endian bytes. -/
def Item.number (value : Nat) : Item := .string (natBytes value)

@[simp] theorem Item.encode_string (bytes : List UInt8) :
    (Item.string bytes).encode = encodeString bytes := by
  rw [Item.encode]

@[simp] theorem Item.encode_list (items : List Item) :
    (Item.list items).encode = encodeList (Item.encodeAll items) := by
  rw [Item.encode]

@[simp] theorem Item.encodeAll_nil : Item.encodeAll [] = [] := by
  rw [Item.encodeAll]

@[simp] theorem Item.encodeAll_cons (item : Item) (items : List Item) :
    Item.encodeAll (item :: items) = item.encode ++ Item.encodeAll items := by
  rw [Item.encodeAll]

theorem Item.encodeAll_append (front back : List Item) :
    Item.encodeAll (front ++ back) =
      Item.encodeAll front ++ Item.encodeAll back := by
  induction front with
  | nil => simp
  | cons item items inductionHypothesis =>
      simp [inductionHypothesis]

/-! ## Reading a header -/

/-- What the front of a byte stream says about the next item. -/
inductive HeaderRead
  /-- The stream ends inside the header. -/
  | short
  /-- The header announces more than four length bytes. -/
  | invalid
  /-- A decoded header, with the bytes from its payload on. -/
  | header (isList : Bool) (length : Nat) (body : List UInt8)

/-- Read a length of `count` bytes.  A reader that buffers one prefix byte and
four length bytes gives up when the buffer is full. -/
def readLength (isList : Bool) (count : Nat) (bytes : List UInt8) :
    HeaderRead :=
  if count ≤ 4 then
    if bytes.length < count then .short
    else .header isList (beNat (bytes.take count)) (bytes.drop count)
  else if bytes.length < 4 then .short
  else .invalid

/-- Read one header from the front of a byte stream. -/
def readHeader : List UInt8 -> HeaderRead
  | [] => .short
  | first :: bytes =>
      if first.toNat ≤ 0x7f then .header false 1 (first :: bytes)
      else if first.toNat ≤ 0xb7 then
        .header false (first.toNat - 0x80) bytes
      else if first.toNat ≤ 0xbf then
        readLength false (first.toNat - 0xb7) bytes
      else if first.toNat ≤ 0xf7 then
        .header true (first.toNat - 0xc0) bytes
      else readLength true (first.toNat - 0xf7) bytes

@[simp] theorem readHeader_nil : readHeader [] = .short := rfl

/-- The number of bytes a length below `2 ^ 32` is spelled with. -/
private theorem length_natBytes_bounds {length : Nat}
    (long : 56 ≤ length) (small : length < 2 ^ 32) :
    1 ≤ (natBytes length).length ∧ (natBytes length).length ≤ 4 := by
  refine ⟨?_, length_natBytes_le (by omega)⟩
  have := natBytes_ne_nil (show 0 < length by omega)
  exact List.length_pos_iff.mpr this

private theorem toNat_ofNat {value : Nat} (small : value < 256) :
    (UInt8.ofNat value).toNat = value := by
  simp [Nat.mod_eq_of_lt small]

/-- Reading a canonical list header gives back the length. -/
theorem readHeader_header_list {length : Nat} (small : length < 2 ^ 32)
    (rest : List UInt8) :
    readHeader (header 0xc0 length ++ rest) = .header true length rest := by
  unfold header
  split
  · simp only [List.cons_append, List.nil_append, readHeader]
    rw [toNat_ofNat (by omega), if_neg (by omega), if_neg (by omega),
      if_neg (by omega), if_pos (by omega)]
    simp
  · have bounds := length_natBytes_bounds (by omega) small
    simp only [List.cons_append, readHeader]
    rw [toNat_ofNat (by omega), if_neg (by omega), if_neg (by omega),
      if_neg (by omega), if_neg (by omega),
      show 0xc0 + 55 + (natBytes length).length - 0xf7 =
        (natBytes length).length by omega, readLength, if_pos (by omega),
      if_neg (by simp)]
    simp

/-- Reading a canonical string header of a payload of other than one byte
gives back the length. -/
theorem readHeader_header_string {length : Nat} (small : length < 2 ^ 32)
    (rest : List UInt8) :
    readHeader (header 0x80 length ++ rest) = .header false length rest := by
  unfold header
  split
  · simp only [List.cons_append, List.nil_append, readHeader]
    rw [toNat_ofNat (by omega), if_neg (by omega), if_pos (by omega)]
    simp
  · have bounds := length_natBytes_bounds (by omega) small
    simp only [List.cons_append, readHeader]
    rw [toNat_ofNat (by omega), if_neg (by omega), if_neg (by omega),
      if_pos (by omega),
      show 0x80 + 55 + (natBytes length).length - 0xb7 =
        (natBytes length).length by omega, readLength, if_pos (by omega),
      if_neg (by simp)]
    simp

/-- Reading the header of an encoded byte string leaves the string in front of
the rest of the stream. -/
theorem readHeader_encodeString (bytes rest : List UInt8)
    (small : bytes.length < 2 ^ 32) :
    readHeader (encodeString bytes ++ rest) =
      .header false bytes.length (bytes ++ rest) := by
  unfold encodeString
  split
  · rename_i byte
    split
    · simp only [List.cons_append, List.nil_append, readHeader]
      rw [if_pos (by omega)]
      rfl
    · rw [List.append_assoc]
      exact readHeader_header_string (by omega) _
  · rw [List.append_assoc]
    exact readHeader_header_string small _

/-- Reading the header of an encoded list leaves the elements in front of the
rest of the stream. -/
theorem readHeader_encodeList (payload rest : List UInt8)
    (small : payload.length < 2 ^ 32) :
    readHeader (encodeList payload ++ rest) =
      .header true payload.length (payload ++ rest) := by
  rw [encodeList, List.append_assoc]
  exact readHeader_header_list small _

/-- The payload that the header of an item announces. -/
def Item.payload : Item -> List UInt8
  | .string bytes => bytes
  | .list items => Item.encodeAll items

/-- Whether the header of an item is that of a list. -/
def Item.isList : Item -> Bool
  | .string _ => false
  | .list _ => true

theorem readHeader_encode (item : Item) (rest : List UInt8)
    (small : item.payload.length < 2 ^ 32) :
    readHeader (item.encode ++ rest) =
      .header item.isList item.payload.length (item.payload ++ rest) := by
  cases item with
  | string bytes =>
      rw [Item.encode_string]
      exact readHeader_encodeString bytes rest small
  | list items =>
      rw [Item.encode_list]
      exact readHeader_encodeList _ rest small

/-- Every item takes at least one byte. -/
theorem length_encodeString_pos (bytes : List UInt8) :
    0 < (encodeString bytes).length := by
  unfold encodeString header
  split
  · split <;> simp
  · split <;> simp

/-- The payload of an encoded string is no longer than the encoding. -/
theorem length_le_encodeString (bytes : List UInt8) :
    bytes.length ≤ (encodeString bytes).length := by
  unfold encodeString
  split
  · split <;> simp
  · simp

/-- A short string of at least two bytes takes one byte more. -/
theorem length_encodeString_of_short {bytes : List UInt8}
    (several : 2 ≤ bytes.length) (short : bytes.length < 56) :
    (encodeString bytes).length = bytes.length + 1 := by
  match bytes, several with
  | first :: second :: rest, _ =>
      simp only [encodeString, header, if_pos short, List.length_append,
        List.length_singleton]
      omega

/-- The payload of an encoded list is shorter than the encoding. -/
theorem length_lt_encodeList (payload : List UInt8) :
    payload.length < (encodeList payload).length := by
  unfold encodeList header
  split <;> simp

/-- The payload of an encoded list is no longer than the encoding. -/
theorem length_le_encodeList (payload : List UInt8) :
    payload.length ≤ (encodeList payload).length :=
  Nat.le_of_lt (length_lt_encodeList payload)

/-- The payload of an item is no longer than its encoding. -/
theorem Item.length_payload_le (item : Item) :
    item.payload.length ≤ item.encode.length := by
  cases item with
  | string bytes =>
      rw [Item.encode_string]
      exact length_le_encodeString bytes
  | list items =>
      rw [Item.encode_list]
      exact length_le_encodeList _

/-! ## Reading more of the same stream -/

private theorem readLength_append {kind isList : Bool} {count length : Nat}
    {bytes body : List UInt8}
    (decoded : readLength kind count bytes = .header isList length body)
    (suffix : List UInt8) :
    readLength kind count (bytes ++ suffix) =
      .header isList length (body ++ suffix) := by
  unfold readLength at decoded ⊢
  split_ifs at decoded with few short
  have enough : count ≤ bytes.length := by omega
  simp only [HeaderRead.header.injEq] at decoded
  obtain ⟨rfl, rfl, rfl⟩ := decoded
  rw [if_pos few, if_neg (by simp; omega),
    List.take_append_of_le_length enough,
    List.drop_append_of_le_length enough]

/-- A decoded header does not depend on what follows in the stream. -/
theorem readHeader_append {stream : List UInt8} {isList : Bool} {length : Nat}
    {body : List UInt8}
    (decoded : readHeader stream = .header isList length body)
    (suffix : List UInt8) :
    readHeader (stream ++ suffix) =
      .header isList length (body ++ suffix) := by
  cases stream with
  | nil => simp at decoded
  | cons first bytes =>
      simp only [List.cons_append, readHeader] at decoded ⊢
      split_ifs at decoded ⊢ with selfEncoded shortString longString shortList
      · simp only [HeaderRead.header.injEq] at decoded ⊢
        exact ⟨decoded.1, decoded.2.1, by rw [← decoded.2.2]; simp⟩
      · simp only [HeaderRead.header.injEq] at decoded ⊢
        exact ⟨decoded.1, decoded.2.1, by rw [← decoded.2.2]⟩
      · exact readLength_append decoded suffix
      · simp only [HeaderRead.header.injEq] at decoded ⊢
        exact ⟨decoded.1, decoded.2.1, by rw [← decoded.2.2]⟩
      · exact readLength_append decoded suffix

/-- Decoding a header and dropping its payload consumes at least one byte. -/
theorem length_drop_body_lt {stream : List UInt8} {isList : Bool}
    {length : Nat} {body : List UInt8}
    (decoded : readHeader stream = .header isList length body) :
    (body.drop length).length < stream.length := by
  cases stream with
  | nil => simp at decoded
  | cons first bytes =>
      simp only [readHeader, readLength] at decoded
      split_ifs at decoded <;>
        simp only [HeaderRead.header.injEq] at decoded <;>
        obtain ⟨-, rfl, rfl⟩ := decoded <;>
        simp only [List.length_drop, List.length_cons] <;>
        omega

/-- A header never grows the stream, and only a self-encoded byte leaves it as
it was. -/
theorem length_body_le {stream : List UInt8} {isList : Bool}
    {length : Nat} {body : List UInt8}
    (decoded : readHeader stream = .header isList length body) :
    body.length ≤ stream.length := by
  cases stream with
  | nil => simp at decoded
  | cons first bytes =>
      simp only [readHeader, readLength] at decoded
      split_ifs at decoded <;>
        simp only [HeaderRead.header.injEq] at decoded <;>
        obtain ⟨-, -, rfl⟩ := decoded <;>
        simp only [List.length_drop, List.length_cons] <;>
        omega

end Rlp
end LedgerOne
