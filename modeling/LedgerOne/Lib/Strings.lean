import LedgerOne.Lib.Region
import Mathlib.Data.List.TakeWhile

/-!
# Strings in a byte array

`region.Holds start count text` says that the `count` bytes from `start` on
are a text and NULs behind it, which is how C keeps a string in an array of its
own.  Clearing the bytes, writing on at the end of the text and writing
elsewhere each have one rule; a window on the string and the string that C
reads are what follows from it.
-/

namespace LedgerOne

/-- A text with NULs behind it, up to a number of bytes. -/
def padded (count : Nat) (text : List UInt8) : List UInt8 :=
  text ++ List.replicate (count - text.length) 0

/-- The NULs behind a text make no difference in a cleared array. -/
theorem ofList_padded (count : Nat) (text : List UInt8) :
    (Region.ofList (padded count text) : Region size) = .ofList text := by
  apply Region.ext_get
  intro position inside
  rw [Region.get_ofList _ _ inside, Region.get_ofList _ _ inside, padded]
  by_cases within : position < text.length
  · rw [List.getD_append _ _ _ _ within]
  · rw [List.getD_append_right _ _ _ _ (by omega),
      List.getD_eq_default _ _ (not_lt.mp within)]
    rw [List.getD_eq_getElem?_getD, List.getElem?_replicate]
    split <;> rfl

theorem length_padded {count : Nat} {text : List UInt8}
    (fits : text.length ≤ count) : (padded count text).length = count := by
  rw [padded, List.length_append, List.length_replicate]
  omega

theorem getElem_padded {count index : Nat} {text : List UInt8}
    (inside : index < (padded count text).length) :
    (padded count text)[index] = text.getD index 0 := by
  simp only [padded]
  by_cases front : index < text.length
  · rw [List.getElem_append_left front, List.getD_eq_getElem _ _ front]
  · rw [List.getElem_append_right (by omega), List.getElem_replicate,
      List.getD_eq_default _ _ (by omega)]

/-- The string that C reads ends before the NULs behind a text. -/
theorem takeWhile_padded (count : Nat) (text : List UInt8) :
    (padded count text).takeWhile (fun byte => byte ≠ 0) =
      text.takeWhile fun byte => byte ≠ 0 := by
  have ends : ∀ zeros, (List.replicate zeros (0 : UInt8)).takeWhile
      (fun byte => byte ≠ 0) = [] := by
    intro zeros
    cases zeros with
    | zero => rfl
    | succ zeros => rfl
  rw [padded, List.takeWhile_append, ends, List.append_nil]
  split
  · next whole =>
    exact ((List.takeWhile_prefix _).eq_of_length whole).symm
  · rfl

/-- A text without NULs is a string of its own. -/
theorem takeWhile_eq_of_not_mem {text : List UInt8} (proper : 0 ∉ text) :
    text.takeWhile (fun byte => byte ≠ 0) = text := by
  rw [List.takeWhile_eq_self_iff]
  intro byte member
  simpa using fun zero : byte = 0 => proper (zero ▸ member)

/-- What starts with characters other than NUL starts a string. -/
theorem le_length_takeWhile {front text : List UInt8} (proper : 0 ∉ front)
    (starts : front <+: text) :
    front.length ≤ (text.takeWhile fun byte => byte ≠ 0).length := by
  obtain ⟨rest, rfl⟩ := starts
  rw [List.takeWhile_append_of_pos (by
    intro byte member
    simpa using fun zero : byte = 0 => proper (zero ▸ member)),
    List.length_append]
  exact Nat.le_add_right _ _

/-- The string in a run of bytes is a text without NULs exactly if they start
with it and go on with a NUL. -/
theorem takeWhile_eq_iff {text bytes : List UInt8} (proper : 0 ∉ text) :
    bytes.takeWhile (fun byte => byte ≠ 0) = text ↔
      text <+: bytes ∧ ∀ byte ∈ bytes[text.length]?, byte = 0 := by
  induction text generalizing bytes with
  | nil =>
      cases bytes with
      | nil => simp
      | cons byte bytes => by_cases zero : byte = 0 <;> simp [zero]
  | cons char text inductionHypothesis =>
      have some : char ≠ 0 := fun zero => proper (zero ▸ List.mem_cons_self)
      have later : 0 ∉ text := fun member =>
        proper (List.mem_cons_of_mem _ member)
      cases bytes with
      | nil => simp
      | cons byte bytes =>
          rw [List.cons_prefix_cons, List.length_cons,
            List.getElem?_cons_succ]
          by_cases same : char = byte
          · subst same
            rw [List.takeWhile_cons_of_pos (by simpa using some),
              List.cons.injEq, inductionHypothesis later]
            simp
          · refine iff_of_false (fun whole => ?_) fun starts => same starts.1.1
            have first := congrArg List.head? whole
            rw [List.takeWhile_cons] at first
            split at first
            · exact same (Option.some.inj first).symm
            · cases first

/-- The same of the first bytes of an array. -/
theorem Region.takeWhile_read_iff {size : Nat} (region : Region size)
    {text : List UInt8} (proper : 0 ∉ text) (count : Nat) :
    (region.read 0 count).takeWhile (fun byte => byte ≠ 0) = text ↔
      text.length ≤ count ∧ region.read 0 text.length = text ∧
        (text.length < count -> region.get text.length = 0) := by
  rw [takeWhile_eq_iff proper, List.prefix_iff_eq_take, region.take_read]
  have next : (∀ byte ∈ (region.read 0 count)[text.length]?, byte = 0) ↔
      (text.length < count -> region.get text.length = 0) := by
    by_cases inside : text.length < count
    · rw [List.getElem?_eq_getElem (by rwa [Region.length_read]),
        Region.getElem_read, Nat.zero_add]
      simp [inside]
    · rw [List.getElem?_eq_none (by rw [Region.length_read]; omega)]
      simp [inside]
  rw [next, ← and_assoc]
  refine and_congr_left' ⟨fun starts => ?_, fun ⟨within, starts⟩ => ?_⟩
  · have within : text.length ≤ count := by
      have same := congrArg List.length starts
      rw [Region.length_read] at same
      omega
    rw [Nat.min_eq_left within] at starts
    exact ⟨within, starts.symm⟩
  · rw [Nat.min_eq_left within, starts]

/-- The bytes of an array of their own are a text, and NULs behind it. -/
structure Region.Holds (region : Region size) (start count : Nat)
    (text : List UInt8) : Prop where
  fits : text.length ≤ count
  bytes : ∀ index < count, region.get (start + index) = text.getD index 0

/-- The part of a text that a window of so many characters shows. -/
def windowOn (text : List UInt8) (index count : Nat) : List UInt8 :=
  (text.drop index).take count

theorem length_windowOn (text : List UInt8) (index count : Nat) :
    (windowOn text index count).length = min count (text.length - index) := by
  rw [windowOn, List.length_take, List.length_drop]

@[simp] theorem windowOn_whole (text : List UInt8) :
    windowOn text 0 text.length = text :=
  List.take_length

theorem getD_windowOn (text : List UInt8) (start count index : Nat) :
    (windowOn text start count).getD index 0 =
      if index < count then text.getD (start + index) 0 else 0 := by
  rw [windowOn, List.getD_eq_getElem?_getD, List.getElem?_take]
  split
  · rw [List.getElem?_drop, List.getD_eq_getElem?_getD]
  · rfl

/-- The bytes of an array that was written somewhere else. -/
theorem Region.get_splice_of_disjoint (region : Region size)
    (offset : Nat) (bytes : List UInt8) {position : Nat}
    (outside : position < offset ∨ offset + bytes.length ≤ position) :
    (region.splice offset bytes).get position = region.get position := by
  by_cases inside : position < size
  · rw [get_splice _ _ _ _ inside, if_neg (by omega)]
  · simp [get, inside]

namespace Region.Holds

variable {region : Region size} {start count : Nat}
  {text front back : List UInt8}

/-- Clearing an array leaves the empty text in it. -/
theorem cleared (region : Region size) (inside : start + count ≤ size) :
    (region.splice start (List.replicate count 0)).Holds start count [] where
  fits := Nat.zero_le _
  bytes index within := by
    rw [get_splice _ _ _ _ (by omega), List.length_replicate,
      if_pos (by omega), List.getD_replicate _ (by omega), List.getD_nil]

/-- Nothing was written into an array of zero bytes. -/
theorem of_zero (zeros : ∀ index < count, region.get (start + index) = 0) :
    region.Holds start count [] where
  fits := Nat.zero_le _
  bytes index within := by rw [zeros index within, List.getD_nil]

/-- A text at the start of an array that was zero. -/
theorem ofList {text : List UInt8} (fits : text.length ≤ size) :
    (Region.ofList text : Region size).Holds 0 size text where
  fits := fits
  bytes index within := by rw [Nat.zero_add, get_ofList _ _ within]

/-- The text of an array with the same bytes. -/
theorem same {other : Region size} (holds : region.Holds start count text)
    (bytes : ∀ position, start ≤ position ->
      other.get position = region.get position) :
    other.Holds start count text where
  fits := holds.fits
  bytes index within := by
    rw [bytes _ (Nat.le_add_right _ _), holds.bytes index within]

/-- Writing elsewhere leaves the text as it is. -/
theorem frame (holds : region.Holds start count text) (offset : Nat)
    (bytes : List UInt8)
    (disjoint : start + count ≤ offset ∨ offset + bytes.length ≤ start) :
    (region.splice offset bytes).Holds start count text where
  fits := holds.fits
  bytes index within := by
    rw [get_splice_of_disjoint _ _ _ (by omega), holds.bytes index within]

/-- Writing a text with any number of NULs on at the end of another; only the
NULs may go on behind the array. -/
theorem append_zeros (holds : region.Holds start count front)
    (back : List UInt8) (zeros : Nat)
    (fits : front.length + back.length ≤ count)
    (inside : start + count ≤ size) :
    (region.splice (start + front.length)
        (back ++ List.replicate zeros 0)).Holds start count
      (front ++ back) where
  fits := by
    rw [List.length_append]
    omega
  bytes index within := by
    rw [get_splice _ _ _ _ (by omega), List.length_append,
      List.length_replicate]
    by_cases early : index < front.length
    · rw [if_neg (by omega), holds.bytes index within,
        List.getD_append _ _ _ _ early]
    have behind : (front ++ back).getD index 0 =
        back.getD (index - front.length) 0 :=
      List.getD_append_right _ _ _ _ (by omega)
    rw [behind]
    by_cases late : front.length + (back.length + zeros) ≤ index
    · rw [if_neg (by omega), holds.bytes index within,
        List.getD_eq_default _ _ (by omega),
        List.getD_eq_default _ _ (by omega)]
    rw [if_pos (by omega), show start + index - (start + front.length) =
      index - front.length by omega]
    by_cases middle : index - front.length < back.length
    · rw [List.getD_append _ _ _ _ middle]
    · rw [List.getD_append_right _ _ _ _ (by omega),
        List.getD_replicate _ (by omega),
        List.getD_eq_default back _ (by omega)]

/-- Writing on at the end of a text. -/
theorem append (holds : region.Holds start count front)
    (fits : front.length + back.length ≤ count)
    (inside : start + count ≤ size) :
    (region.splice (start + front.length) back).Holds start count
      (front ++ back) := by
  have appended := holds.append_zeros back 0 (by omega) inside
  rwa [List.replicate_zero, List.append_nil] at appended

/-- Writing a text into a cleared array. -/
theorem write (holds : region.Holds start count [])
    (fits : text.length ≤ count) (inside : start + count ≤ size) :
    (region.splice start text).Holds start count text :=
  holds.append (by simpa using fits) inside

/-- Fewer bytes of the array, as long as the text is among them. -/
theorem shorten (holds : region.Holds start count text) {fewer : Nat}
    (fits : text.length ≤ fewer) (less : fewer ≤ count) :
    region.Holds start fewer text where
  fits := fits
  bytes index within := holds.bytes index (by omega)

/-- The bytes of a window on the text. -/
theorem read (holds : region.Holds start count text) {index length : Nat}
    (inside : index + length ≤ count) :
    region.read (start + index) length =
      padded length (windowOn text index length) := by
  have short := length_windowOn text index length
  apply List.ext_getElem
  · rw [length_read, length_padded (by omega)]
  · intro step within _
    rw [length_read] at within
    rw [getElem_read, Nat.add_assoc, holds.bytes _ (by omega),
      getElem_padded, getD_windowOn, if_pos within]

/-- The bytes of the whole array. -/
theorem read_whole (holds : region.Holds start count text) :
    region.read start count = padded count text := by
  have whole : windowOn text 0 count = text := List.take_of_length_le holds.fits
  have bytes := holds.read (show 0 + count ≤ count by omega)
  rwa [whole] at bytes

/-- Writing a text with NULs over a whole array. -/
theorem overwritten (region : Region size) (zeros : Nat)
    (covers : count ≤ text.length + zeros) (fits : text.length ≤ count)
    (inside : start + count ≤ size) :
    (region.splice start (text ++ List.replicate zeros 0)).Holds start count
      text where
  fits := fits
  bytes index within := by
    rw [get_splice _ _ _ _ (by omega), List.length_append,
      List.length_replicate, if_pos (by omega), Nat.add_sub_cancel_left]
    by_cases front : index < text.length
    · rw [List.getD_append _ _ _ _ front]
    · rw [List.getD_append_right _ _ _ _ (by omega),
        List.getD_replicate _ (by omega),
        List.getD_eq_default text _ (by omega)]

/-- One more NUL at the end of the array. -/
theorem extend (holds : region.Holds start count text)
    (ends : region.get (start + count) = 0) :
    region.Holds start (count + 1) text where
  fits := Nat.le_succ_of_le holds.fits
  bytes index within := by
    by_cases last : index = count
    · rw [last, ends, List.getD_eq_default _ _ holds.fits]
    · exact holds.bytes index (by omega)

section Windows

variable (holds : region.Holds start count text) {target index length : Nat}
  (inside : index + length ≤ count)

include holds inside

/-- A copy of a window, where a NUL is behind it. -/
theorem window (within : target + length ≤ size)
    (ends : region.get (target + length) = 0) :
    (region.splice target (region.read (start + index) length)).Holds target
      (length + 1) (windowOn text index length) := by
  have short := length_windowOn text index length
  rw [holds.read inside]
  apply extend
  · exact overwritten region _ (by omega) (by omega) within
  · rwa [get_splice_of_disjoint _ _ _ (by
      rw [length_padded (by omega)]
      omega)]

/-- A copy of a window, and a NUL written behind it. -/
theorem windowEnded (within : target + length < size) :
    ((region.splice target (region.read (start + index) length)).splice
        (target + length) [0]).Holds target (length + 1)
      (windowOn text index length) := by
  have short := length_windowOn text index length
  have count := length_read region (start + index) length
  have joined := region.splice_append target
    (region.read (start + index) length) [0]
  rw [count] at joined
  rw [joined, holds.read inside, padded, List.append_assoc,
    ← List.replicate_succ']
  exact overwritten region _ (by omega) (by omega) (by omega)

end Windows

/-- The string that C reads is the text up to its first NUL, if there is room
for one. -/
theorem cString (holds : region.Holds start count text)
    (ends : text.length < count) (inside : start + count ≤ size) :
    (region.toList.drop start).takeWhile (fun byte => byte ≠ 0) =
      text.takeWhile fun byte => byte ≠ 0 := by
  have front : (region.toList.drop start).take count = padded count text := by
    rw [toList_eq_read, drop_read, take_read, Nat.min_eq_left (by omega),
      Nat.zero_add, holds.read_whole]
  have short := (List.takeWhile_prefix
    (fun byte : UInt8 => decide (byte ≠ 0)) (l := text)).length_le
  have whole := length_padded holds.fits
  rw [← List.take_append_drop count (region.toList.drop start), front,
    List.takeWhile_append, takeWhile_padded, if_neg (by omega)]

end Region.Holds

end LedgerOne
