import LedgerOne.Firmware.Staking
import LedgerOne.Firmware.GetTxnSig
import LedgerOne.Lib.Strings
import LedgerOne.Texts.Address
import LedgerOne.Texts.Rate
import LedgerOne.Texts.Amount

/-!
# What the string operations leave

Every string operation of the reviews, where it stays inside the context, is
one or two runs of bytes put among the strings.  A display that scrolls
through a string holds the string, an index and the window at the index.
-/

namespace LedgerOne

/-- The number that is kept in a `txInt256_t`. -/
def TxInt256.number (int : TxInt256) : Nat :=
  beNat (int.value.read 0 int.length.toNat)

theorem TxInt256.number_lt {int : TxInt256} (short : int.length.toNat ≤ 32) :
    int.number < 2 ^ 256 := by
  have bound := beNat_lt (int.value.read 0 int.length.toNat)
  rw [Region.length_read] at bound
  calc int.number < 256 ^ int.length.toNat := bound
    _ ≤ 256 ^ 32 := Nat.pow_le_pow_right (by decide) short
    _ = 2 ^ 256 := by norm_num

/-- The text of an address. -/
def addressText (address : Region 20) : List UInt8 :=
  (bech32GetAddress address.toList).getD []

theorem bech32GetAddress_toList (address : Region 20) :
    bech32GetAddress address.toList = some (addressText address) := by
  obtain ⟨text, encodes, -⟩ := exists_bech32GetAddress address
  rw [addressText, encodes]
  rfl

@[simp] theorem length_addressText (address : Region 20) :
    (addressText address).length = 42 := by
  obtain ⟨text, encodes, length⟩ := exists_bech32GetAddress address
  rw [addressText, encodes]
  exact length

/-- How `convertU256ToString` ends on an amount. -/
def amountConversion (value : Nat) : Conversion :=
  ⟨amountWrites value, some (amountText value).length, true⟩

namespace Display

variable (display : Display build)

/-! ## Single operations -/

/-- Bytes put among the strings. -/
def put (offset : Nat) (bytes : List UInt8) : Display build :=
  { display with strings := display.strings.splice offset bytes }

@[simp] theorem displayIndex_put (offset : Nat) (bytes : List UInt8) :
    (display.put offset bytes).displayIndex = display.displayIndex :=
  rfl

@[simp] theorem strings_put (offset : Nat) (bytes : List UInt8) :
    (display.put offset bytes).strings =
      display.strings.splice offset bytes :=
  rfl

theorem write_eq {offset : Nat} {bytes : List UInt8}
    (fits : offset + bytes.length ≤ build.stringsSize) :
    display.write offset bytes = .ok (display.put offset bytes) := by
  rw [write, Region.write?_eq_some _ _ _ fits]
  rfl

theorem clear_eq {offset count : Nat}
    (fits : offset + count ≤ build.stringsSize) :
    display.clear offset count =
      .ok (display.put offset (List.replicate count 0)) :=
  display.write_eq (by rwa [List.length_replicate])

theorem copy_eq {target source count : Nat}
    (reads : source + count ≤ build.stringsSize)
    (writes : target + count ≤ build.stringsSize) :
    display.copy target source count =
      .ok (display.put target (display.strings.read source count)) := by
  rw [copy, read, Region.read?_eq_some _ _ _ reads]
  exact display.write_eq (by rwa [Region.length_read])

theorem putUint32_eq {offset : Nat} (value : Nat)
    (fits : offset + 4 ≤ build.stringsSize) :
    display.putUint32 offset value =
      .ok (display.put offset (uint32Bytes value).toList) :=
  display.write_eq (by rwa [Region.length_toList])

theorem getUint32_put {offset value : Nat} (small : value < 2 ^ 32)
    (fits : offset + 4 ≤ build.stringsSize) :
    (display.put offset (uint32Bytes value).toList).getUint32 offset =
      value := by
  have length := Region.length_toList (uint32Bytes value)
  have stored := Region.read_splice_self display.strings offset
    (uint32Bytes value).toList (by rwa [length])
  rw [length] at stored
  rw [getUint32, strings_put, stored, leNat_uint32Bytes small]

theorem getUint32_put_of_disjoint {place offset : Nat} {bytes : List UInt8}
    (disjoint : place + 4 ≤ offset ∨ offset + bytes.length ≤ place) :
    (display.put offset bytes).getUint32 place = display.getUint32 place := by
  rw [getUint32, strings_put, Region.read_splice_of_disjoint _ _ _ _ _
    disjoint]
  rfl

theorem writeAddress_eq {offset : Nat} (address : Region 20)
    (fits : offset + 43 ≤ build.stringsSize) :
    display.writeAddress offset address =
      .ok (display.put offset (addressText address ++ [0])) := by
  rw [writeAddress, bech32GetAddress_toList]
  exact display.write_eq (by simpa using fits)

/-- Storing the writes of a conversion, if they stay inside the context. -/
theorem foldlM_write {offset : Nat} {writes : List (Nat × List UInt8)}
    {strings : Region build.stringsSize}
    (stores : display.strings.writeAll? offset writes = some strings) :
    (writes.foldlM (fun display (position, bytes) =>
        display.write (offset + position) bytes) display :
      Except Fault (Display build)) =
      .ok { display with strings := strings } := by
  induction writes generalizing display with
  | nil =>
      cases stores
      rfl
  | cons first rest inductionHypothesis =>
      obtain ⟨position, bytes⟩ := first
      rw [Region.writeAll?, List.foldlM_cons] at stores
      obtain ⟨stored, writes, goesOn⟩ := Option.bind_eq_some_iff.mp stores
      dsimp only at writes
      have begins : display.write (offset + position) bytes =
          .ok { display with strings := stored } := by
        rw [write, writes]
      rw [List.foldlM_cons]
      dsimp only
      rw [begins, bind_ok]
      exact inductionHypothesis { display with strings := stored } goesOn

section Amounts

variable {int : TxInt256} (short : int.length.toNat ≤ 32) {offset : Nat}
  (fits : offset + 78 ≤ build.stringsSize)

include short fits

/-- An amount without its length. -/
theorem writeAmount_none :
    display.writeAmount offset none int =
      .ok (display.put offset (padded 78 (amountText int.number)),
        amountConversion int.number) := by
  obtain ⟨numberBuf, padding, whole, value⟩ := padNumber_eq short
  have small := TxInt256.number_lt short
  have stores := writeAll?_amountWrites small display.strings fits
  rw [writeAmount, padding, bind_ok, convertU256ToString_eq whole, bind_ok,
    value]
  dsimp only
  rw [show beNat (int.value.read 0 int.length.toNat) = int.number from rfl,
    display.foldlM_write stores]
  rfl

/-- An amount, and its length at a place of its own. -/
theorem writeAmount_some {place : Nat}
    (counts : place + 4 ≤ build.stringsSize) :
    display.writeAmount offset (some place) int =
      .ok ((display.put offset (padded 78 (amountText int.number))).put place
          (uint32Bytes (amountText int.number).length).toList,
        amountConversion int.number) := by
  obtain ⟨numberBuf, padding, whole, value⟩ := padNumber_eq short
  have small := TxInt256.number_lt short
  have stores := writeAll?_amountWrites small display.strings fits
  rw [writeAmount, padding, bind_ok, convertU256ToString_eq whole, bind_ok,
    value]
  dsimp only
  rw [show beNat (int.value.read 0 int.length.toNat) = int.number from rfl,
    display.foldlM_write stores, bind_ok]
  rw [putUint32_eq _ _ counts]
  rfl

end Amounts

/-! ## Scrolling -/

/-- The index after a press on the left button. -/
def leftIndex : UInt8 :=
  if 0 < display.displayIndex then display.displayIndex - 1
  else display.displayIndex

/-- The index after a press on the right button. -/
def rightIndex (limit : Nat) : UInt8 :=
  if display.displayIndex.toNat < limit then display.displayIndex + 1
  else display.displayIndex

/-- The window at another index. -/
def moved (index : UInt8) (target source count : Nat) : Display build :=
  { display with displayIndex := index }.put target
    (display.strings.read (source + index.toNat) count)

theorem seekLeft_eq {target source count : Nat}
    (reads : source + display.leftIndex.toNat + count ≤ build.stringsSize)
    (writes : target + count ≤ build.stringsSize) :
    display.seekLeft target source count =
      .ok (display.moved display.leftIndex target source count) :=
  copy_eq _ reads writes

theorem seekRight_eq {limit target source count : Nat}
    (reads : source + (display.rightIndex limit).toNat + count ≤
      build.stringsSize)
    (writes : target + count ≤ build.stringsSize) :
    display.seekRight limit target source count =
      .ok (display.moved (display.rightIndex limit) target source count) :=
  copy_eq _ reads writes

theorem leftIndex_le :
    display.leftIndex.toNat ≤ display.displayIndex.toNat := by
  unfold leftIndex
  split
  · rename_i positive
    have one : (1 : UInt8) ≤ display.displayIndex :=
      UInt8.le_iff_toNat_le.mpr (UInt8.lt_iff_toNat_lt.mp positive)
    rw [UInt8.toNat_sub_of_le _ _ one]
    exact Nat.sub_le _ _
  · exact le_rfl

theorem rightIndex_le (limit : Nat) {bound : Nat} (below : limit ≤ bound)
    (inside : display.displayIndex.toNat ≤ bound) :
    (display.rightIndex limit).toNat ≤ bound := by
  unfold rightIndex
  split
  · rename_i more
    rw [UInt8.toNat_add]
    exact le_trans (Nat.mod_le _ _) (by
      rw [show (1 : UInt8).toNat = 1 from rfl]
      omega)
  · exact inside

/-- A copy of what starts a string, with a NUL behind it. -/
def windowed (target source count : Nat) : Display build :=
  (display.put target (display.strings.read source count)).put
    (target + count) [0]

theorem copy_ended {target source count : Nat} {β : Type}
    (reads : source + count ≤ build.stringsSize)
    (writes : target + count < build.stringsSize)
    (next : Display build -> Except Fault β) :
    (display.copy target source count >>= fun copied =>
        copied.write (target + count) [0] >>= next) =
      next (display.windowed target source count) := by
  rw [copy_eq _ reads writes.le, bind_ok, write_eq _ writes, bind_ok]
  rfl

/-- A display that scrolls through a string: the array that holds it, the
index and the window at the index. -/
structure Scrolls (source size target : Nat) (text : List UInt8)
    (display : Display build) : Prop where
  holds : display.strings.Holds source size text
  inside : display.displayIndex.toNat + 12 ≤ max 12 text.length
  window : display.strings.Holds target 13
    (windowOn text display.displayIndex.toNat 12)

variable {display} {source size target : Nat} {text : List UInt8}

/-- Moving the window leaves the string as it is. -/
theorem holds_moved (holds : display.strings.Holds source size text)
    (index : UInt8) {origin count : Nat}
    (apart : target + count ≤ source ∨ source + size ≤ target) :
    (display.moved index target origin count).strings.Holds source size
      text :=
  holds.frame _ _ (by rw [Region.length_read]; omega)

theorem getUint32_moved (display : Display build) (index : UInt8)
    {place target origin count : Nat}
    (disjoint : place + 4 ≤ target ∨ target + count ≤ place) :
    (display.moved index target origin count).getUint32 place =
      display.getUint32 place :=
  getUint32_put_of_disjoint { display with displayIndex := index } (by
    rwa [Region.length_read])

/-- A window at any index inside the array. -/
theorem window_moved (holds : display.strings.Holds source size text)
    {index : UInt8} (inside : index.toNat + 12 ≤ size)
    (within : target + 12 ≤ build.stringsSize)
    (ends : display.strings.get (target + 12) = 0) :
    (display.moved index target source 12).strings.Holds target 13
      (windowOn text index.toNat 12) :=
  holds.window inside within ends

/-- The window on the start of a string, with its NUL. -/
theorem holds_windowed (holds : display.strings.Holds source size text)
    {count : Nat}
    (apart : target + count < source ∨ source + size ≤ target) :
    (display.windowed target source count).strings.Holds source size text :=
  (holds.frame _ _ (by rw [Region.length_read]; omega)).frame _ _ (by
    rw [List.length_singleton]
    omega)

theorem window_windowed (holds : display.strings.Holds source size text)
    {count : Nat} (inside : count ≤ size)
    (within : target + count < build.stringsSize) :
    (display.windowed target source count).strings.Holds target (count + 1)
      (windowOn text 0 count) :=
  holds.windowEnded (show 0 + count ≤ size by omega) within

theorem getUint32_windowed (display : Display build)
    {place target source count : Nat}
    (disjoint : place + 4 ≤ target ∨ target + count < place) :
    (display.windowed target source count).getUint32 place =
      display.getUint32 place := by
  rw [windowed, getUint32_put_of_disjoint _ (by
      rw [List.length_singleton]
      omega),
    getUint32_put_of_disjoint _ (by
      rw [Region.length_read]
      omega)]

/-- Scrolling starts at the start of the string. -/
theorem scrolls_windowed (holds : display.strings.Holds source size text)
    (room : 12 ≤ size) (within : target + 12 < build.stringsSize)
    (apart : target + 12 < source ∨ source + size ≤ target) :
    ({ display.windowed target source 12 with displayIndex := 0 } :
      Display build).Scrolls source size target text where
  holds := holds_windowed holds apart
  inside := Nat.le_max_left _ _
  window := window_windowed holds room within

theorem Scrolls.ends (scrolls : display.Scrolls source size target text) :
    display.strings.get (target + 12) = 0 := by
  rw [scrolls.window.bytes 12 (by decide), getD_windowOn,
    if_neg (by decide)]

/-- A window at another index. -/
theorem Scrolls.moved (scrolls : display.Scrolls source size target text)
    {index : UInt8} (inside : index.toNat + 12 ≤ max 12 text.length)
    (room : 12 ≤ size) (within : target + 12 ≤ build.stringsSize)
    (apart : target + 12 ≤ source ∨ source + size ≤ target) :
    (display.moved index target source 12).Scrolls source size target
      text where
  holds := holds_moved scrolls.holds index apart
  inside := inside
  window := window_moved scrolls.holds (by
    have := scrolls.holds.fits
    omega) within scrolls.ends

section Seeking

variable (scrolls : display.Scrolls source size target text)
  (room : 12 ≤ size) (whole : source + size ≤ build.stringsSize)
  (within : target + 12 ≤ build.stringsSize)
  (apart : target + 12 ≤ source ∨ source + size ≤ target)

include scrolls room whole within apart

theorem Scrolls.seekLeft :
    ∃ index, display.seekLeft target source 12 =
        .ok (display.moved index target source 12) ∧
      (display.moved index target source 12).Scrolls source size target
        text := by
  have fits := scrolls.holds.fits
  have inside := scrolls.inside
  have index := display.leftIndex_le
  exact ⟨_, display.seekLeft_eq (by omega) within,
    scrolls.moved (by omega) room within apart⟩

theorem Scrolls.seekRight (long : 12 ≤ text.length) (limit : Nat)
    (ends : limit = text.length - 12) :
    ∃ index, display.seekRight limit target source 12 =
        .ok (display.moved index target source 12) ∧
      (display.moved index target source 12).Scrolls source size target
        text := by
  have fits := scrolls.holds.fits
  have inside := scrolls.inside
  have index := display.rightIndex_le limit
    (show limit ≤ text.length - 12 by omega) (by omega)
  exact ⟨_, display.seekRight_eq (by omega) within,
    scrolls.moved (by omega) room within apart⟩

end Seeking

end Display

/-- The difference of numbers that differ the right way round. -/
theorem minusUint32_eq {left right : Nat} (less : right ≤ left)
    (small : left < 2 ^ 32) : minusUint32 left right = left - right := by
  unfold minusUint32
  omega

end LedgerOne
