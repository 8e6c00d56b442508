import LedgerOne.Firmware.TxContext

/-!
# The memory of the content (`rlp.h`)

`txContent_t` is 528 bytes in one piece, with the display strings behind it: a
field that is longer than its array goes on into the fields behind it.  Its
components start at

- 0, 33, 66, 99, 132, 165, 198 and 231, the eight integers, each of 32 bytes
  and a length,
- 264, 268 and 272, `fromShard`, `toShard` and `directive`,
- 276 and 296, `destination` and `validatorAddress`,
- 316 and 364, `blsPubKey` and `blsPubKeySize`,
- 368 and 498, `blsKeyStr` and `name`.

The parsers are modelled over either view of this memory: components that are
apart, where the model stops at the first byte past an array, and one piece,
where it stops past the end of the whole context.
-/

namespace LedgerOne

/-- The byte at a place after a run of bytes is written at an address. -/
def byteAfter (address : Nat) (bytes : List UInt8) (place : Nat)
    (byte : UInt8) : UInt8 :=
  if address ≤ place ∧ place < address + bytes.length then
    bytes.getD (place - address) 0
  else byte

/-- An integer that starts at `start`, after a write. -/
def TxInt256.poke (start address : Nat) (bytes : List UInt8)
    (int : TxInt256) : TxInt256 where
  value := int.value.overlay start address bytes
  length := byteAfter address bytes (start + 32) int.length

/-- A `uint32_t` that starts at `start`, after a write. -/
def pokeUint32 (start address : Nat) (bytes : List UInt8) (value : Nat) :
    Nat :=
  if bytes ≠ [] ∧ address < start + 4 ∧ start < address + bytes.length then
    uint32OfBytes ((uint32Bytes value).overlay start address bytes)
  else value

namespace TxContent

/-- Write a run of bytes at an address of the content. -/
def poke (address : Nat) (bytes : List UInt8) (content : TxContent) :
    TxContent where
  gasprice := content.gasprice.poke 0 address bytes
  startgas := content.startgas.poke 33 address bytes
  value := content.value.poke 66 address bytes
  rate := content.rate.poke 99 address bytes
  maxRate := content.maxRate.poke 132 address bytes
  maxChangeRate := content.maxChangeRate.poke 165 address bytes
  minSelfDelegation := content.minSelfDelegation.poke 198 address bytes
  maxTotalDelegation := content.maxTotalDelegation.poke 231 address bytes
  fromShard := pokeUint32 264 address bytes content.fromShard
  toShard := pokeUint32 268 address bytes content.toShard
  directive := pokeUint32 272 address bytes content.directive
  destination := content.destination.overlay 276 address bytes
  validatorAddress := content.validatorAddress.overlay 296 address bytes
  blsPubKey := content.blsPubKey.overlay 316 address bytes
  blsPubKeySize := pokeUint32 364 address bytes content.blsPubKeySize
  blsKeyStr := content.blsKeyStr.overlay 368 address bytes
  name := content.name.overlay 498 address bytes

/-- A write that has to stay in the content and the bytes behind it. -/
def poke? (behind address : Nat) (bytes : List UInt8) (content : TxContent) :
    Option TxContent :=
  if address + bytes.length ≤ 528 + behind then
    some (content.poke address bytes)
  else none

end TxContent

/-- The byte at a place of an integer with its length. -/
def TxInt256.byteAt (int : TxInt256) (place : Nat) : UInt8 :=
  if place < 32 then int.value.get place else int.length

/-- The byte at a place of the content. -/
def TxContent.byteAt (content : TxContent) (place : Nat) : UInt8 :=
  if place < 33 then content.gasprice.byteAt (place - 0)
  else if place < 66 then content.startgas.byteAt (place - 33)
  else if place < 99 then content.value.byteAt (place - 66)
  else if place < 132 then content.rate.byteAt (place - 99)
  else if place < 165 then content.maxRate.byteAt (place - 132)
  else if place < 198 then content.maxChangeRate.byteAt (place - 165)
  else if place < 231 then content.minSelfDelegation.byteAt (place - 198)
  else if place < 264 then content.maxTotalDelegation.byteAt (place - 231)
  else if place < 268 then (uint32Bytes content.fromShard).get (place - 264)
  else if place < 272 then (uint32Bytes content.toShard).get (place - 268)
  else if place < 276 then (uint32Bytes content.directive).get (place - 272)
  else if place < 296 then content.destination.get (place - 276)
  else if place < 316 then content.validatorAddress.get (place - 296)
  else if place < 364 then content.blsPubKey.get (place - 316)
  else if place < 368 then
    (uint32Bytes content.blsPubKeySize).get (place - 364)
  else if place < 498 then content.blsKeyStr.get (place - 368)
  else content.name.get (place - 498)

/-- How the components of the content lie: apart, or in one piece with a
number of bytes behind it. -/
class Memory where
  behind : Option Nat

/-- Without further notice the components are apart. -/
instance Memory.apart : Memory := ⟨none⟩

/-- The content in one piece. -/
abbrev Memory.joined (behind : Nat) : Memory := ⟨some behind⟩

section Poke

variable {start address : Nat} {bytes : List UInt8}

theorem byteAfter_of_disjoint {place : Nat} {byte : UInt8}
    (disjoint : place < address ∨ address + bytes.length ≤ place) :
    byteAfter address bytes place byte = byte :=
  if_neg (by omega)

theorem byteAfter_nil (place : Nat) (byte : UInt8) :
    byteAfter address [] place byte = byte :=
  if_neg (by simp)

theorem TxInt256.poke_of_disjoint {int : TxInt256}
    (disjoint : start + 33 ≤ address ∨ address + bytes.length ≤ start) :
    int.poke start address bytes = int := by
  rw [TxInt256.poke, Region.overlay_of_disjoint _ (by omega),
    byteAfter_of_disjoint (by omega)]

/-- The bytes of an integer are written without its length. -/
theorem TxInt256.poke_self {int : TxInt256} (fits : bytes.length ≤ 32) :
    int.poke start start bytes =
      { int with value := int.value.splice 0 bytes } := by
  rw [TxInt256.poke, byteAfter_of_disjoint (by omega)]
  exact congrArg (TxInt256.mk · _) (int.value.overlay_eq_splice start 0 bytes)

theorem pokeUint32_of_disjoint {value : Nat}
    (disjoint : start + 4 ≤ address ∨ address + bytes.length ≤ start) :
    pokeUint32 start address bytes value = value :=
  if_neg (by omega)

/-- Writing nothing changes nothing. -/
theorem TxContent.poke_nil (content : TxContent) :
    content.poke address [] = content := by
  have int (start : Nat) (int : TxInt256) :
      int.poke start address [] = int := by
    rw [TxInt256.poke, Region.overlay_nil, byteAfter_nil]
  have uint32 (start value : Nat) : pokeUint32 start address [] value = value :=
    if_neg (by simp)
  simp only [TxContent.poke, int, uint32, Region.overlay_nil]

/-- The least significant bytes of a number are written. -/
theorem pokeUint32_self {value : Nat} (some : bytes ≠ []) :
    pokeUint32 start start bytes value =
      uint32OfBytes ((uint32Bytes value).splice 0 bytes) := by
  have positive := List.length_pos_iff.mpr some
  rw [pokeUint32, if_pos ⟨some, by omega, by omega⟩]
  exact congrArg uint32OfBytes
    ((uint32Bytes value).overlay_eq_splice start 0 bytes)

/-- A write beside the directive leaves it. -/
theorem TxContent.directive_poke {content : TxContent}
    (disjoint : 276 ≤ address ∨ address + bytes.length ≤ 272) :
    (content.poke address bytes).directive = content.directive :=
  pokeUint32_of_disjoint disjoint

/-- Reading back a `uint32_t`. -/
theorem leNat_uint32Bytes {value : Nat} (small : value < 2 ^ 32) :
    leNat (uint32Bytes value).toList = value := by
  have bytes : (uint32Bytes value).toList =
      [UInt8.ofNat value, UInt8.ofNat (value / 256),
        UInt8.ofNat (value / 256 ^ 2), UInt8.ofNat (value / 256 ^ 3)] := by
    simp [Region.toList, uint32Bytes, List.ofFn_succ]
  rw [bytes]
  simp only [leNat_cons, leNat_nil, UInt8.toNat_ofNat']
  omega

/-- The bytes of a number determine it. -/
theorem uint32Bytes_uint32OfBytes (bytes : Region 4) :
    uint32Bytes (uint32OfBytes bytes) = bytes := by
  apply Region.ext_get
  intro position inside
  have here : (uint32Bytes (uint32OfBytes bytes)).get position =
      UInt8.ofNat (leNat bytes.toList / 256 ^ position) := by
    rw [Region.get_of_lt _ inside]
    rfl
  rw [here, ofNat_leNat_div, Region.getD_toList]

/-- A number after a write, byte by byte. -/
theorem uint32Bytes_poke (start address : Nat) (bytes : List UInt8)
    (value : Nat) :
    uint32Bytes (pokeUint32 start address bytes value) =
      (uint32Bytes value).overlay start address bytes := by
  unfold pokeUint32
  split
  · exact uint32Bytes_uint32OfBytes _
  · next beside =>
    by_cases none : bytes = []
    · rw [none, Region.overlay_nil]
    · have apart : ¬(address < start + 4 ∧ start < address + bytes.length) :=
        fun both => beside ⟨none, both⟩
      exact (Region.overlay_of_disjoint _ (by omega)).symm

theorem byteAfter_append (front back : List UInt8) (place : Nat)
    (byte : UInt8) :
    byteAfter address (front ++ back) place byte =
      byteAfter (address + front.length) back place
        (byteAfter address front place byte) := by
  unfold byteAfter
  rw [List.length_append]
  by_cases early : place < address + front.length
  · rw [if_neg (show ¬(address + front.length ≤ place ∧ _) by omega)]
    by_cases here : address ≤ place
    · rw [if_pos (by omega), if_pos (by omega),
        List.getD_append _ _ _ _ (by omega)]
    · rw [if_neg (by omega), if_neg (by omega)]
  · by_cases late : place < address + front.length + back.length
    · rw [if_pos (by omega), if_pos (by omega),
        List.getD_append_right _ _ _ _ (by omega)]
      congr 1
      omega
    · rw [if_neg (by omega), if_neg (by omega), if_neg (by omega)]

theorem pokeUint32_append (front back : List UInt8) (value : Nat) :
    pokeUint32 start address (front ++ back) value =
      pokeUint32 start (address + front.length) back
        (pokeUint32 start address front value) := by
  by_cases touched : back ≠ [] ∧ address + front.length < start + 4 ∧
      start < address + front.length + back.length
  · have whole : front ++ back ≠ [] ∧ address < start + 4 ∧
        start < address + (front ++ back).length := by
      rw [List.length_append]
      exact ⟨by simp [touched.1], by omega, by omega⟩
    have same := uint32Bytes_poke start address front value
    generalize pokeUint32 start address front value = first at same ⊢
    rw [pokeUint32, if_pos whole, pokeUint32, if_pos touched, same,
      Region.overlay_append]
  · have rest : pokeUint32 start (address + front.length) back
        (pokeUint32 start address front value) =
        pokeUint32 start address front value := if_neg touched
    rw [rest]
    by_cases none : back = []
    · rw [none, List.append_nil]
    have apart : ¬(address + front.length < start + 4 ∧
        start < address + front.length + back.length) :=
      fun both => touched ⟨none, both⟩
    have beside : (uint32Bytes value).overlay start address (front ++ back) =
        (uint32Bytes value).overlay start address front := by
      rw [Region.overlay_append]
      exact Region.overlay_of_disjoint _ (by omega)
    by_cases first : front ≠ [] ∧ address < start + 4 ∧
        start < address + front.length
    · rw [pokeUint32, if_pos (by
        rw [List.length_append]
        exact ⟨by simp [none], first.2.1, by omega⟩), beside, pokeUint32,
        if_pos first]
    · rw [pokeUint32, if_neg, pokeUint32, if_neg first]
      rw [List.length_append]
      rintro ⟨-, before, after⟩
      have some : front ≠ [] := by
        rintro rfl
        exact apart ⟨by simpa using before, by simpa using after⟩
      have : ¬(address < start + 4 ∧ start < address + front.length) :=
        fun both => first ⟨some, both⟩
      omega

/-- Two writes in a row. -/
theorem TxContent.poke_append (front back : List UInt8) (content : TxContent) :
    content.poke address (front ++ back) =
      (content.poke address front).poke (address + front.length) back := by
  have int (start : Nat) (int : TxInt256) :
      int.poke start address (front ++ back) =
        (int.poke start address front).poke start (address + front.length)
          back := by
    rw [TxInt256.poke, Region.overlay_append, byteAfter_append]
    rfl
  simp only [TxContent.poke, int, pokeUint32_append, Region.overlay_append]

/-- A write behind the content leaves it. -/
theorem TxContent.poke_of_behind (behind : 528 ≤ address)
    (content : TxContent) : content.poke address bytes = content := by
  have int {start : Nat} (before : start + 33 ≤ 528) (int : TxInt256) :
      int.poke start address bytes = int :=
    TxInt256.poke_of_disjoint (Or.inl (by omega))
  have uint32 {start : Nat} (before : start + 4 ≤ 528) (value : Nat) :
      pokeUint32 start address bytes value = value :=
    pokeUint32_of_disjoint (Or.inl (by omega))
  have array {size start : Nat} (before : start + size ≤ 528)
      (region : Region size) : region.overlay start address bytes = region :=
    Region.overlay_of_disjoint _ (Or.inl (by omega))
  simp (disch := decide) only [TxContent.poke, int, uint32, array]

/-- The byte behind the amount is its length. -/
theorem TxContent.poke_amountLength (byte : UInt8) (content : TxContent) :
    content.poke 98 [byte] =
      { content with value := { content.value with length := byte } } := by
  have int {start : Nat} (beside : start + 33 ≤ 98 ∨ 99 ≤ start)
      (int : TxInt256) : int.poke start 98 [byte] = int :=
    TxInt256.poke_of_disjoint beside
  have uint32 {start : Nat} (beside : start + 4 ≤ 98 ∨ 99 ≤ start)
      (value : Nat) : pokeUint32 start 98 [byte] value = value :=
    pokeUint32_of_disjoint beside
  have array {size start : Nat} (beside : start + size ≤ 98 ∨ 99 ≤ start)
      (region : Region size) : region.overlay start 98 [byte] = region :=
    Region.overlay_of_disjoint _ beside
  have amount : content.value.poke 66 98 [byte] =
      { content.value with length := byte } := by
    rw [TxInt256.poke, array (Or.inl (by decide))]
    rfl
  simp (disch := decide) only [TxContent.poke, int, uint32, array, amount]

theorem Region.get_overlay_sub {size : Nat} (region : Region size)
    {place : Nat} (from_start : start ≤ place) (inside : place < start + size) :
    (region.overlay start address bytes).get (place - start) =
      byteAfter address bytes place (region.get (place - start)) := by
  rw [Region.get_overlay _ _ _ _ _ (by omega),
    show start + (place - start) = place by omega, byteAfter]

theorem TxInt256.byteAt_poke (int : TxInt256) {place : Nat}
    (from_start : start ≤ place) (inside : place < start + 33) :
    (int.poke start address bytes).byteAt (place - start) =
      byteAfter address bytes place (int.byteAt (place - start)) := by
  unfold TxInt256.byteAt
  split
  · exact Region.get_overlay_sub _ from_start (by omega)
  · obtain rfl : place = start + 32 := by omega
    rfl

/-- One component and those behind it. -/
private theorem ite_byteAfter {before : Prop} [Decidable before] {place : Nat}
    {left left' right right' : UInt8}
    (here : before -> left' = byteAfter address bytes place left)
    (there : ¬before -> right' = byteAfter address bytes place right) :
    (if before then left' else right') =
      byteAfter address bytes place (if before then left else right) := by
  split
  · exact here ‹_›
  · exact there ‹_›

/-- The content after a write, byte by byte. -/
theorem TxContent.byteAt_poke (content : TxContent) {place : Nat}
    (inside : place < 528) :
    (content.poke address bytes).byteAt place =
      byteAfter address bytes place (content.byteAt place) := by
  have uint32 {start value : Nat} (from_start : start ≤ place)
      (before : place < start + 4) :
      (uint32Bytes (pokeUint32 start address bytes value)).get
          (place - start) =
        byteAfter address bytes place ((uint32Bytes value).get
          (place - start)) := by
    rw [uint32Bytes_poke]
    exact Region.get_overlay_sub _ from_start before
  iterate 8
    refine ite_byteAfter
      (fun _ => TxInt256.byteAt_poke _ (by omega) (by omega)) fun _ => ?_
  iterate 3
    refine ite_byteAfter (fun _ => uint32 (by omega) (by omega)) fun _ => ?_
  iterate 3
    refine ite_byteAfter
      (fun _ => Region.get_overlay_sub _ (by omega) (by omega)) fun _ => ?_
  refine ite_byteAfter (fun _ => uint32 (by omega) (by omega)) fun _ => ?_
  refine ite_byteAfter
    (fun _ => Region.get_overlay_sub _ (by omega) (by omega)) fun _ => ?_
  exact Region.get_overlay_sub _ (by omega) (by omega)

/-- A run of bytes that starts at a place, after a write. -/
def covered (address : Nat) (bytes : List UInt8) (place : Nat)
    (run : List UInt8) : List UInt8 :=
  run.mapIdx fun index byte => byteAfter address bytes (place + index) byte

theorem covered_of_disjoint {place : Nat} {run : List UInt8}
    (disjoint : address + bytes.length ≤ place) :
    covered address bytes place run = run := by
  apply List.ext_getElem
  · simp [covered]
  · intro index _ _
    simp only [covered, List.getElem_mapIdx]
    exact byteAfter_of_disjoint (Or.inr (by omega))

/-- What is read of an array after a write. -/
theorem Region.read_overlay {size : Nat} (region : Region size)
    {offset count : Nat} (inside : offset + count ≤ size) :
    (region.overlay start address bytes).read offset count =
      covered address bytes (start + offset) (region.read offset count) := by
  apply List.ext_getElem
  · simp [covered]
  · intro index before _
    rw [Region.length_read] at before
    simp only [covered, List.getElem_mapIdx, Region.getElem_read]
    rw [Region.get_overlay _ _ _ _ _ (by omega), byteAfter,
      Nat.add_assoc start]

end Poke

end LedgerOne
