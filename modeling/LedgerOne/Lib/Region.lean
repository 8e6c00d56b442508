import Mathlib.Data.List.OfFn
import Mathlib.Data.List.GetD
import Mathlib.Data.Fintype.Pi
import Mathlib.Tactic.Ring

/-!
# Byte arrays of a fixed size

A `Region n` is an array of `n` bytes, the way C lays one out: it is read and
written in runs of bytes at an offset.  The unchecked operations `read` and
`splice` are total; the checked ones, `read?` and `write?`, refuse every access
that leaves the array, which is where C stops defining the program.
-/

namespace LedgerOne

/-- An array of `size` bytes. -/
@[ext] structure Region (size : Nat) where
  /-- The byte at an index of the array. -/
  byte : Fin size -> UInt8
  deriving DecidableEq

namespace Region

/-- The array of zero bytes, as `memset` leaves it. -/
def zero : Region size := ⟨fun _ => 0⟩

/-- The byte at an offset, zero outside the array. -/
def get (region : Region size) (offset : Nat) : UInt8 :=
  if inside : offset < size then region.byte ⟨offset, inside⟩ else 0

/-- All bytes of the array, in order. -/
def toList (region : Region size) : List UInt8 := List.ofFn region.byte

/-- The run of `count` bytes starting at `offset`. -/
def read (region : Region size) (offset count : Nat) : List UInt8 :=
  (List.range count).map fun index => region.get (offset + index)

/-- Overwrite the run of bytes starting at `offset`. -/
def splice (region : Region size) (offset : Nat) (bytes : List UInt8) :
    Region size :=
  ⟨fun index =>
    if offset ≤ index.val ∧ index.val < offset + bytes.length then
      bytes.getD (index.val - offset) 0
    else region.byte index⟩

/-- Read a run of bytes that has to lie inside the array. -/
def read? (region : Region size) (offset count : Nat) :
    Option (List UInt8) :=
  if offset + count ≤ size then some (region.read offset count) else none

/-- Overwrite a run of bytes that has to lie inside the array. -/
def write? (region : Region size) (offset : Nat) (bytes : List UInt8) :
    Option (Region size) :=
  if offset + bytes.length ≤ size then some (region.splice offset bytes)
  else none

/-- Set a run of bytes to one value, as `memset` does. -/
def fill? (region : Region size) (offset count : Nat) (value : UInt8) :
    Option (Region size) :=
  region.write? offset (List.replicate count value)

@[simp] theorem get_zero (offset : Nat) :
    (zero : Region size).get offset = 0 := by
  simp [get, zero]

theorem get_of_lt (region : Region size) (inside : offset < size) :
    region.get offset = region.byte ⟨offset, inside⟩ := by
  simp [get, inside]

/-- Two arrays with the same bytes at every offset are equal. -/
theorem ext_get {left right : Region size}
    (agree : ∀ offset, offset < size → left.get offset = right.get offset) :
    left = right := by
  apply Region.ext
  funext index
  simpa [get] using agree index.val index.isLt

/-- A spliced array holds the new bytes inside the run and the old ones
elsewhere. -/
theorem get_splice (region : Region size) (offset : Nat)
    (bytes : List UInt8) (position : Nat) (inside : position < size) :
    (region.splice offset bytes).get position =
      if offset ≤ position ∧ position < offset + bytes.length then
        bytes.getD (position - offset) 0
      else region.get position := by
  simp [get, splice, inside]

@[simp] theorem splice_nil (region : Region size) (offset : Nat) :
    region.splice offset [] = region := by
  apply ext_get
  intro position inside
  rw [get_splice _ _ _ _ inside]
  have : ¬(offset ≤ position ∧ position < offset + ([] : List UInt8).length) := by
    simp
  rw [if_neg this]

@[simp] theorem length_read (region : Region size) (offset count : Nat) :
    (region.read offset count).length = count := by
  simp [read]

@[simp] theorem read_zero_count (region : Region size) (offset : Nat) :
    region.read offset 0 = [] := by
  simp [read]

theorem getElem_read (region : Region size) (offset count index : Nat)
    (inside : index < (region.read offset count).length) :
    (region.read offset count)[index] = region.get (offset + index) := by
  simp [read]

/-- A run of bytes starts with the byte at its offset. -/
theorem read_succ (region : Region size) (offset count : Nat) :
    region.read offset (count + 1) =
      region.get offset :: region.read (offset + 1) count := by
  apply List.ext_getElem
  · simp
  · intro index _ _
    cases index with
    | zero => simp [read]
    | succ index =>
        simp only [List.getElem_cons_succ, getElem_read]
        congr 1
        omega

theorem take_read (region : Region size) (offset count kept : Nat) :
    (region.read offset count).take kept =
      region.read offset (min kept count) := by
  apply List.ext_getElem
  · simp
  · intro index _ _
    simp [getElem_read]

/-- A shorter read is the start of a longer one. -/
theorem read_prefix (region : Region size) (offset : Nat)
    {fewer count : Nat} (less : fewer ≤ count) :
    region.read offset fewer <+: region.read offset count := by
  have start := region.take_read offset count fewer
  rw [Nat.min_eq_left less] at start
  rw [← start]
  exact List.take_prefix _ _

theorem drop_read (region : Region size) (offset count dropped : Nat) :
    (region.read offset count).drop dropped =
      region.read (offset + dropped) (count - dropped) := by
  apply List.ext_getElem
  · simp
  · intro index _ _
    simp only [List.getElem_drop, getElem_read]
    congr 1
    omega

/-- Reading back the run just written gives the written bytes. -/
theorem read_splice_self (region : Region size) (offset : Nat)
    (bytes : List UInt8) (fits : offset + bytes.length ≤ size) :
    (region.splice offset bytes).read offset bytes.length = bytes := by
  apply List.ext_getElem
  · simp
  · intro index _ inside
    rw [getElem_read, get_splice _ _ _ _ (by omega), if_pos (by omega)]
    simp [List.getD_eq_getElem?_getD, inside]

/-- A write leaves every run it does not touch as it was. -/
theorem read_splice_of_disjoint (region : Region size)
    (offset : Nat) (bytes : List UInt8) (start count : Nat)
    (disjoint : start + count ≤ offset ∨ offset + bytes.length ≤ start) :
    (region.splice offset bytes).read start count =
      region.read start count := by
  apply List.ext_getElem
  · simp
  · intro index inside _
    rw [length_read] at inside
    rw [getElem_read, getElem_read]
    by_cases within : start + index < size
    · rw [get_splice _ _ _ _ within, if_neg (by omega)]
    · simp [get, within]

/-- The first bytes of a run just written. -/
theorem take_read_splice (region : Region size) (offset : Nat)
    (bytes : List UInt8) (count : Nat)
    (within : count ≤ bytes.length)
    (fits : offset + bytes.length ≤ size) :
    (region.splice offset bytes).read offset count = bytes.take count := by
  have whole := region.read_splice_self offset bytes fits
  calc (region.splice offset bytes).read offset count
      = ((region.splice offset bytes).read offset bytes.length).take count := by
        rw [take_read, Nat.min_eq_left within]
    _ = bytes.take count := by rw [whole]

@[simp] theorem length_toList (region : Region size) :
    region.toList.length = size := by
  simp [toList]

theorem toList_eq_read (region : Region size) :
    region.toList = region.read 0 size := by
  apply List.ext_getElem
  · simp
  · intro index inside _
    rw [length_toList] at inside
    simp [toList, getElem_read, get, inside]

theorem getD_toList (region : Region size) (position : Nat) :
    region.toList.getD position 0 = region.get position := by
  by_cases inside : position < size
  · rw [List.getD_eq_getElem _ _ (by simpa using inside), get_of_lt _ inside]
    simp [toList]
  · rw [List.getD_eq_default _ _ (by simpa using inside), get, dif_neg inside]

theorem head?_toList (region : Region size) (some : 0 < size) :
    region.toList.head? = .some (region.get 0) := by
  cases size with
  | zero => cases some
  | succ size =>
      rw [toList_eq_read, read_succ]
      rfl

theorem toList_injective :
    Function.Injective (toList : Region size -> List UInt8) := by
  intro left right equal
  apply Region.ext
  exact List.ofFn_injective equal

/-- A part of what an array begins with. -/
theorem read_middle (region : Region size) {front middle back : List UInt8}
    (holds : region.read 0 (front ++ middle ++ back).length =
      front ++ middle ++ back) :
    region.read front.length middle.length = middle := by
  have count : min middle.length
      ((front ++ middle ++ back).length - front.length) = middle.length := by
    simp
  have part : ((region.read 0 (front ++ middle ++ back).length).drop
      front.length).take middle.length = middle := by
    rw [holds, List.append_assoc, List.drop_left, List.take_left]
  rwa [drop_read, take_read, Nat.zero_add, count] at part

theorem read?_eq_some (region : Region size) (offset count : Nat)
    (fits : offset + count ≤ size) :
    region.read? offset count = some (region.read offset count) :=
  if_pos fits

theorem write?_eq_some (region : Region size) (offset : Nat)
    (bytes : List UInt8) (fits : offset + bytes.length ≤ size) :
    region.write? offset bytes = some (region.splice offset bytes) :=
  if_pos fits

theorem write?_eq_none (region : Region size) (offset : Nat)
    (bytes : List UInt8) (overruns : size < offset + bytes.length) :
    region.write? offset bytes = none :=
  if_neg (by omega)

/-- Writing on where a run of bytes ends. -/
theorem splice_append (region : Region size) (offset : Nat)
    (front back : List UInt8) :
    (region.splice offset front).splice (offset + front.length) back =
      region.splice offset (front ++ back) := by
  apply ext_get
  intro position inside
  rw [get_splice _ _ _ _ inside, get_splice _ _ _ _ inside,
    get_splice _ _ _ _ inside, List.length_append]
  by_cases before : position < offset
  · rw [if_neg (by omega), if_neg (by omega), if_neg (by omega)]
  by_cases early : position < offset + front.length
  · rw [if_neg (by omega), if_pos (by omega), if_pos (by omega),
      List.getD_append _ _ _ _ (by omega)]
  by_cases within : position < offset + front.length + back.length
  · rw [if_pos (by omega), if_pos (by omega),
      List.getD_append_right _ _ _ _ (by omega), Nat.sub_add_eq]
  · rw [if_neg (by omega), if_neg (by omega), if_neg (by omega)]

/-- Writing over the start of a run of bytes. -/
theorem splice_splice (region : Region size) (offset : Nat)
    {old new : List UInt8} (shorter : new.length ≤ old.length) :
    (region.splice offset old).splice offset new =
      region.splice offset (new ++ old.drop new.length) := by
  apply ext_get
  intro position inside
  rw [get_splice _ _ _ _ inside, get_splice _ _ _ _ inside,
    get_splice _ _ _ _ inside, List.length_append, List.length_drop]
  by_cases before : position < offset
  · rw [if_neg (by omega), if_neg (by omega), if_neg (by omega)]
  by_cases early : position < offset + new.length
  · rw [if_pos (by omega), if_pos (by omega),
      List.getD_append _ _ _ _ (by omega)]
  by_cases within : position < offset + old.length
  · have shifted : new.length + (position - offset - new.length) =
        position - offset := by omega
    rw [if_neg (by omega), if_pos (by omega), if_pos (by omega),
      List.getD_append_right _ _ _ _ (by omega), List.getD_eq_getElem?_getD,
      List.getD_eq_getElem?_getD, List.getElem?_drop, shifted]
  · rw [if_neg (by omega), if_neg (by omega), if_neg (by omega)]

/-- A run of bytes that is as long as the array replaces all of it. -/
theorem splice_eq_ofList (region : Region size) {bytes : List UInt8}
    (full : bytes.length = size) : region.splice 0 bytes = zero.splice 0 bytes := by
  apply ext_get
  intro position inside
  rw [get_splice _ _ _ _ inside, get_splice _ _ _ _ inside,
    if_pos (by omega), if_pos (by omega)]

/-- A zero array into which a string of bytes is written from the start. -/
def ofList (bytes : List UInt8) : Region size := zero.splice 0 bytes

theorem get_ofList (bytes : List UInt8) (offset : Nat)
    (inside : offset < size) :
    (ofList bytes : Region size).get offset = bytes.getD offset 0 := by
  rw [ofList, get_splice _ _ _ _ inside]
  by_cases within : offset < bytes.length
  · rw [if_pos (by omega), Nat.sub_zero]
  · rw [if_neg (by omega), get_zero, List.getD_eq_default _ _ (by omega)]

/-- Writing on where a string of bytes ends. -/
theorem splice_ofList (front back : List UInt8) :
    (ofList front : Region size).splice front.length back =
      ofList (front ++ back) := by
  apply ext_get
  intro position inside
  rw [get_splice _ _ _ _ inside, get_ofList _ _ inside, get_ofList _ _ inside]
  by_cases early : position < front.length
  · rw [if_neg (by omega), List.getD_append _ _ _ _ early]
  · rw [List.getD_append_right _ _ _ _ (by omega)]
    split
    · rfl
    · rw [List.getD_eq_default _ _ (by omega),
        List.getD_eq_default _ _ (by omega)]

/-- A full array is the bytes it was filled from. -/
theorem toList_ofList (bytes : List UInt8) (full : bytes.length = size) :
    (ofList bytes : Region size).toList = bytes := by
  subst full
  rw [toList_eq_read, ofList, read_splice_self _ _ _ (by omega)]

/-! ## Arrays inside a larger memory -/

/-- What a run of bytes written at an address of the memory leaves of an array
that starts at `start` there. -/
def overlay (region : Region size) (start address : Nat)
    (bytes : List UInt8) : Region size :=
  ⟨fun index =>
    if address ≤ start + index.val ∧
        start + index.val < address + bytes.length then
      bytes.getD (start + index.val - address) 0
    else region.byte index⟩

theorem get_overlay (region : Region size) (start address : Nat)
    (bytes : List UInt8) (position : Nat) (inside : position < size) :
    (region.overlay start address bytes).get position =
      if address ≤ start + position ∧
          start + position < address + bytes.length then
        bytes.getD (start + position - address) 0
      else region.get position := by
  simp [get, overlay, inside]

/-- A write beside the array leaves it. -/
theorem overlay_of_disjoint (region : Region size) {start address : Nat}
    {bytes : List UInt8}
    (disjoint : start + size ≤ address ∨ address + bytes.length ≤ start) :
    region.overlay start address bytes = region := by
  apply ext_get
  intro position inside
  rw [get_overlay _ _ _ _ _ inside, if_neg (by omega)]

@[simp] theorem overlay_nil (region : Region size) (start address : Nat) :
    region.overlay start address [] = region := by
  apply ext_get
  intro position inside
  rw [get_overlay _ _ _ _ _ inside, if_neg (by simp)]

/-- A write that starts in the array. -/
theorem overlay_eq_splice (region : Region size) (start offset : Nat)
    (bytes : List UInt8) :
    region.overlay start (start + offset) bytes =
      region.splice offset bytes := by
  apply ext_get
  intro position inside
  rw [get_overlay _ _ _ _ _ inside, get_splice _ _ _ _ inside,
    Nat.add_sub_add_left]
  by_cases within : offset ≤ position ∧ position < offset + bytes.length
  · rw [if_pos (by omega), if_pos within]
  · rw [if_neg (by omega), if_neg within]

/-- Two writes in a row. -/
theorem overlay_append (region : Region size) (start address : Nat)
    (front back : List UInt8) :
    region.overlay start address (front ++ back) =
      (region.overlay start address front).overlay start
        (address + front.length) back := by
  apply ext_get
  intro position inside
  rw [get_overlay _ _ _ _ _ inside, get_overlay _ _ _ _ _ inside,
    get_overlay _ _ _ _ _ inside, List.length_append]
  by_cases early : start + position < address + front.length
  · rw [if_neg (show ¬(address + front.length ≤ start + position ∧ _) by
      omega)]
    by_cases here : address ≤ start + position
    · rw [if_pos (by omega), if_pos (by omega),
        List.getD_append _ _ _ _ (by omega)]
    · rw [if_neg (by omega), if_neg (by omega)]
  · rw [if_neg (show ¬(address ≤ start + position ∧
      start + position < address + front.length) by omega)]
    by_cases late : start + position < address + front.length + back.length
    · rw [if_pos (by omega), if_pos (by omega),
        List.getD_append_right _ _ _ _ (by omega)]
      congr 1
      omega
    · rw [if_neg (by omega), if_neg (by omega)]

end Region

end LedgerOne
