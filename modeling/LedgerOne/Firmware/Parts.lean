import LedgerOne.Firmware.Writes

/-!
# Texts put together from parts

The commission rates and the limits of a delegation are put together from
captions, rates and amounts, at a running offset.  An amount first clears 78
bytes from its offset on.  If the text fits, what is left in the array is the
text of the parts.
-/

namespace LedgerOne

/-- A part of a text. -/
inductive Part
  | text (bytes : List UInt8)
  | rate (int : TxInt256)
  | amount (int : TxInt256)

namespace Part

/-- The text of a part. -/
def shown : Part -> List UInt8
  | .text bytes => bytes
  | .rate int => rateText int.number
  | .amount int => amountText int.number

/-- The number of bytes that a part writes. -/
def room : Part -> Nat
  | .amount _ => 78
  | part => part.shown.length

/-- The numbers that the conversions take: at most 32 bytes, and for a rate at
most 77 digits, since the scratch buffer of 78 bytes holds a NUL as well. -/
def Converts : Part -> Prop
  | .text _ => True
  | .rate int => int.length.toNat ≤ 32 ∧ int.number < 10 ^ 77
  | .amount int => int.length.toNat ≤ 32

instance (part : Part) : Decidable part.Converts :=
  match part with
  | .text _ => isTrue trivial
  | .rate _ => inferInstanceAs (Decidable (_ ∧ _))
  | .amount _ => inferInstanceAs (Decidable (_ ≤ _))

/-- Append a part to the text at `start`. -/
def append (start : Nat) : Part -> Composed build ->
    Except Fault (Composed build)
  | .text bytes => appendText start bytes
  | .rate int => appendRate start int
  | .amount int => appendAmount start int

theorem length_shown_le {part : Part} (converts : part.Converts) :
    part.shown.length ≤ part.room := by
  cases part with
  | amount int =>
      have short := length_amountText (TxInt256.number_lt converts)
      show (amountText int.number).length ≤ 78
      omega
  | _ => exact le_rfl

end Part

/-- The text of all parts. -/
def partsText (parts : List Part) : List UInt8 := parts.flatMap Part.shown

@[simp] theorem partsText_cons (part : Part) (rest : List Part) :
    partsText (part :: rest) = part.shown ++ partsText rest :=
  rfl

/-- Every part fits into an array of `size` bytes, from an offset on. -/
def PartsFit (size : Nat) : Nat -> List Part -> Prop
  | _, [] => True
  | offset, part :: rest =>
      offset + part.room ≤ size ∧
        PartsFit size (offset + part.shown.length) rest

/-- Parts of a short text fit where there are 78 bytes more. -/
theorem partsFit_of_length {size offset : Nat} {parts : List Part}
    (room : offset + (partsText parts).length + 78 ≤ size) :
    PartsFit size offset parts := by
  induction parts generalizing offset with
  | nil => trivial
  | cons part rest inductionHypothesis =>
      rw [partsText_cons, List.length_append] at room
      have most : part.room ≤ part.shown.length + 78 := by
        cases part with
        | amount int => exact Nat.le_add_left _ _
        | _ => exact Nat.le_add_right _ _
      exact ⟨by omega, inductionHypothesis (by omega)⟩

/-- Without amounts parts fit where their text does. -/
theorem partsFit_of_room {size offset : Nat} {parts : List Part}
    (exact : ∀ part ∈ parts, part.room = part.shown.length)
    (fits : offset + (partsText parts).length ≤ size) :
    PartsFit size offset parts := by
  induction parts generalizing offset with
  | nil => trivial
  | cons part rest inductionHypothesis =>
      rw [partsText_cons, List.length_append] at fits
      have first := exact part (by simp)
      exact ⟨by omega, inductionHypothesis
        (fun other listed => exact other (List.mem_cons_of_mem _ listed))
        (by omega)⟩

/-- Parts that fit have a text that fits. -/
theorem length_of_partsFit {size offset : Nat} {parts : List Part}
    (converts : ∀ part ∈ parts, part.Converts) (start : offset ≤ size)
    (fits : PartsFit size offset parts) :
    offset + (partsText parts).length ≤ size := by
  induction parts generalizing offset with
  | nil => exact start
  | cons part rest inductionHypothesis =>
      have shown := Part.length_shown_le (converts part (by simp))
      have first := fits.1
      have later := inductionHypothesis
        (fun other listed => converts other (List.mem_cons_of_mem _ listed))
        (by omega) fits.2
      rw [partsText_cons, List.length_append]
      omega

/-- Append parts, one after the other. -/
def composeParts (start : Nat) (parts : List Part)
    (composed : Composed build) : Except Fault (Composed build) :=
  parts.foldlM (fun composed part => part.append start composed) composed

/-! ## The writes -/

/-- The scratch buffer of the staking context, shared with the hash. -/
def hashArray : Place := ⟨SignStaking.hash, 32⟩

namespace Operation

/-- A number in the scratch buffer. -/
def number (int : TxInt256) : Operation build := fun _ =>
  match padNumber int with
  | .error _ => []
  | .ok numberBuf => [⟨hashArray, 0, numberBuf⟩]

/-- A rate, from an index of the array on. -/
def rate (place : Place) (index : Nat) (int : TxInt256) : Operation build :=
  fun _ =>
    match convertNumericDecimalToString int with
    | .ok (some output) => [⟨place, index, output⟩]
    | _ => []

end Operation

/-- The operations of a part. -/
def Part.operations (place : Place) (offset : Nat) :
    Part -> List (Operation build)
  | .text bytes => [.put place offset bytes]
  | .rate int => [.rate place offset int]
  | .amount int => [.number int, .amount place offset none int]

/-- The operations of all parts. -/
def partsOperations (place : Place) :
    Nat -> List Part -> List (Operation build)
  | _, [] => []
  | offset, part :: rest =>
      part.operations place offset ++
        partsOperations place (offset + part.shown.length) rest

theorem writesOf_append (front back : List (Operation build))
    (display : Display build) :
    writesOf (front ++ back) display =
      writesOf front display ++
        writesOf back (display.performed (writesOf front display)) := by
  induction front generalizing display with
  | nil => rfl
  | cons operation rest inductionHypothesis =>
      rw [List.cons_append, writesOf, writesOf, inductionHypothesis,
        List.append_assoc, performed_append]

theorem performed_writesOf_append (front back : List (Operation build))
    (display : Display build) :
    display.performed (writesOf (front ++ back) display) =
      (display.performed (writesOf front display)).performed
        (writesOf back (display.performed (writesOf front display))) := by
  rw [writesOf_append, performed_append]

/-! ## Composing -/

/-- A rate that can be converted. -/
theorem convertNumericDecimalToString_eq {int : TxInt256}
    (short : int.length.toNat ≤ 32) (small : int.number < 10 ^ 77) :
    convertNumericDecimalToString int = .ok (some (rateText int.number)) := by
  obtain ⟨numberBuf, padding, whole, value⟩ := padNumber_eq short
  have number : (readu256BE numberBuf).toNat = int.number :=
    (toNat_readu256BE whole).trans value
  unfold convertNumericDecimalToString
  rw [if_neg (not_lt.mpr short), padding, bind_ok,
    tostring78_eq (number ▸ small), bind_ok, number]
  show Except.ok (some (convertU256ToDecimalString _)) = _
  rw [convertU256ToDecimalString_eq]

/-- The number of an amount in the scratch buffer, in front of all strings. -/
theorem writeNumberBuf_eq {int : TxInt256} (short : int.length.toNat ≤ 32)
    (display : Display build) :
    ∃ scratch, writeNumberBuf int display = .ok scratch ∧
      display.performed (Operation.number int display) = scratch ∧
      ∀ position, 32 ≤ position ->
        scratch.strings.get position = display.strings.get position := by
  obtain ⟨numberBuf, padding, whole, -⟩ := padNumber_eq short
  have room : SignStaking.hash + 32 ≤ build.stringsSize := by
    cases build <;> decide
  refine ⟨display.put SignStaking.hash numberBuf, ?_, ?_, ?_⟩
  · rw [writeNumberBuf, padding, bind_ok]
    exact display.write_eq (by rwa [whole])
  · rw [Operation.number, padding]
    rfl
  · intro position later
    exact Region.get_splice_of_disjoint _ _ _ (Or.inr (by
      rw [whole]
      exact later))

section Composing

variable {build : Build} {place : Place} {limit : Nat}
  (inside : place.start + limit ≤ build.stringsSize)

include inside

/-- A part is appended, if its writes stay inside the context. -/
theorem append_eq {part : Part} (converts : part.Converts) {offset : Nat}
    (fits : offset + part.room ≤ limit) (display : Display build) :
    part.append place.start (display, some offset) =
      .ok (display.performed (writesOf (part.operations place offset) display),
        some (offset + part.shown.length)) := by
  cases part with
  | text bytes =>
      have stores : display.write (place.start + offset) bytes = _ :=
        display.write_eq (by
          have : offset + bytes.length ≤ limit := fits
          omega)
      exact congrArg (· >>= _) stores
  | rate int =>
      have converted := convertNumericDecimalToString_eq converts.1 converts.2
      have stores : display.write (place.start + offset)
          (rateText int.number) = _ :=
        display.write_eq (by
          have : offset + (rateText int.number).length ≤ limit := fits
          omega)
      show (convertNumericDecimalToString int >>= _) = _
      rw [converted, bind_ok]
      dsimp only
      rw [stores, bind_ok, Part.operations, performed_writesOf_cons,
        Operation.rate, converted]
      rfl
  | amount int =>
      have fits : offset + 78 ≤ limit := fits
      obtain ⟨scratch, stores, numbered, -⟩ :=
        writeNumberBuf_eq converts display
      have writes : scratch.writeAmount (place.start + offset) none int = _ :=
        scratch.writeAmount_none converts (by omega)
      have performed := performed_amount place offset none converts scratch
        (by omega)
      show ((writeNumberBuf int display >>= fun display =>
        display.writeAmount (place.start + offset) none int) >>= _) = _
      rw [stores, bind_ok, writes, bind_ok, Part.operations,
        performed_writesOf_cons, numbered, performed_writesOf_cons, performed]
      rfl

/-- Parts are appended, one after the other. -/
theorem composeParts_eq {parts : List Part}
    (converts : ∀ part ∈ parts, part.Converts) {offset : Nat}
    (fits : PartsFit limit offset parts) (display : Display build) :
    composeParts place.start parts (display, some offset) =
      .ok (display.performed
          (writesOf (partsOperations place offset parts) display),
        some (offset + (partsText parts).length)) := by
  induction parts generalizing offset display with
  | nil => rfl
  | cons part rest inductionHypothesis =>
      have appended := append_eq inside (converts part (by simp)) fits.1
        display
      rw [composeParts, List.foldlM_cons, appended, bind_ok]
      have continued := inductionHypothesis
        (fun other listed => converts other (List.mem_cons_of_mem _ listed))
        fits.2 (display.performed
          (writesOf (part.operations place offset) display))
      rw [composeParts] at continued
      rw [continued, partsOperations, performed_writesOf_append,
        partsText_cons, List.length_append, Nat.add_assoc]

end Composing

/-! ## What is left in the array -/

/-- A write that stays inside its array, outside of a run of bytes. -/
def Write.Spares (start count : Nat) (write : Write) : Prop :=
  write.Inside ∧ (start + count ≤ write.place.start ∨
    write.place.start + write.place.size ≤ start)

/-- Writes that stay inside their arrays do no harm to a string elsewhere. -/
theorem holds_performed {display : Display build} {start count : Nat}
    {text : List UInt8} (holds : display.strings.Holds start count text)
    {writes : List Write} (spare : ∀ write ∈ writes, write.Spares start count) :
    (display.performed writes).strings.Holds start count text := by
  induction writes generalizing display with
  | nil => exact holds
  | cons write rest inductionHypothesis =>
      obtain ⟨inside, apart⟩ := spare write (by simp)
      unfold Write.Inside at inside
      exact inductionHypothesis (holds.frame _ _ (by omega))
        fun other listed => spare other (List.mem_cons_of_mem _ listed)

section Parts

variable {build : Build} {place : Place} {limit : Nat}
  (within : place.start + limit ≤ build.stringsSize)

include within

/-- What a part writes is its text, and for an amount NULs behind it. -/
theorem exists_performed_part {part : Part} (converts : part.Converts)
    {offset : Nat} (room : offset + part.room ≤ limit)
    (display : Display build) :
    ∃ scratch : Display build, ∃ zeros,
      display.performed (writesOf (part.operations place offset) display) =
        scratch.put (place.start + offset)
          (part.shown ++ List.replicate zeros 0) ∧
      part.shown.length + zeros = part.room ∧
      ∀ position, 32 ≤ position ->
        scratch.strings.get position = display.strings.get position := by
  cases part with
  | text bytes =>
      exact ⟨display, 0, by rw [List.replicate_zero, List.append_nil]; rfl,
        rfl, fun _ _ => rfl⟩
  | rate int =>
      have converted := convertNumericDecimalToString_eq converts.1 converts.2
      refine ⟨display, 0, ?_, rfl, fun _ _ => rfl⟩
      rw [Part.operations, performed_writesOf_cons, Operation.rate, converted,
        List.replicate_zero, List.append_nil]
      rfl
  | amount int =>
      have room : offset + 78 ≤ limit := room
      have short := length_amountText (TxInt256.number_lt converts)
      obtain ⟨scratch, -, numbered, same⟩ :=
        writeNumberBuf_eq converts display
      refine ⟨scratch, 78 - (amountText int.number).length, ?_, ?_, same⟩
      · rw [Part.operations, performed_writesOf_cons, numbered,
          performed_writesOf_cons,
          performed_amount place offset none converts scratch (by omega)]
        rfl
      · show (amountText int.number).length + _ = 78
        omega

variable (behind : 32 ≤ place.start)

include behind

/-- A part is written on at the end of the text. -/
theorem holds_part (inside : place.start + place.size ≤ build.stringsSize)
    {part : Part} (converts : part.Converts)
    {display : Display build} {front : List UInt8}
    (holds : display.strings.Holds place.start place.size front)
    (room : front.length + part.room ≤ limit)
    (fits : front.length + part.shown.length ≤ place.size) :
    (display.performed (writesOf (part.operations place front.length)
      display)).strings.Holds place.start place.size
        (front ++ part.shown) := by
  obtain ⟨scratch, zeros, performed, -, same⟩ :=
    exists_performed_part within converts room display
  rw [performed]
  have kept := holds.same fun position later =>
    same position (behind.trans later)
  exact kept.append_zeros _ _ fits inside

/-- What the parts leave in the array is their text. -/
theorem holds_parts (inside : place.start + place.size ≤ build.stringsSize)
    {parts : List Part}
    (converts : ∀ part ∈ parts, part.Converts) {display : Display build}
    {front : List UInt8}
    (holds : display.strings.Holds place.start place.size front)
    (room : PartsFit limit front.length parts)
    (fits : front.length + (partsText parts).length ≤ place.size) :
    (display.performed (writesOf (partsOperations place front.length parts)
      display)).strings.Holds place.start place.size
        (front ++ partsText parts) := by
  induction parts generalizing display front with
  | nil =>
      rw [show front ++ partsText [] = front from List.append_nil front]
      exact holds
  | cons part rest inductionHypothesis =>
      rw [partsText_cons, List.length_append] at fits
      have appended := holds_part within behind inside
        (converts part (by simp)) holds room.1 (by omega)
      have length : (front ++ part.shown).length =
          front.length + part.shown.length := List.length_append
      have continued := inductionHypothesis
        (fun other listed => converts other (List.mem_cons_of_mem _ listed))
        appended (length ▸ room.2) (by omega)
      rw [length, List.append_assoc] at continued
      rw [partsOperations, performed_writesOf_append]
      exact continued

/-- Behind the text of the parts a NUL stays a NUL. -/
theorem zero_parts {parts : List Part}
    (converts : ∀ part ∈ parts, part.Converts) {display : Display build}
    {offset position : Nat} (room : PartsFit limit offset parts)
    (later : place.start + offset + (partsText parts).length ≤ position)
    (zero : display.strings.get position = 0) :
    (display.performed (writesOf (partsOperations place offset parts)
      display)).strings.get position = 0 := by
  induction parts generalizing display offset with
  | nil => exact zero
  | cons part rest inductionHypothesis =>
      rw [partsText_cons, List.length_append] at later
      obtain ⟨scratch, zeros, performed, length, same⟩ :=
        exists_performed_part within (converts part (by simp)) room.1
          display
      rw [partsOperations, performed_writesOf_append]
      refine inductionHypothesis
        (fun other listed => converts other (List.mem_cons_of_mem _ listed))
        room.2 (by omega) ?_
      have kept : scratch.strings.get position = 0 := by
        rw [same _ (by omega), zero]
      rw [performed, Display.strings_put]
      by_cases present : position < build.stringsSize
      · rw [Region.get_splice _ _ _ _ present]
        split
        · rw [List.getD_append_right _ _ _ _ (by omega)]
          rw [List.getD_eq_getElem?_getD, List.getElem?_replicate]
          split <;> rfl
        · exact kept
      · simp [Region.get, present]

end Parts

/-! ## Staying inside the array -/

section Staying

variable {place : Place} {display : Display build}

theorem Operation.stays_number (int : TxInt256) :
    (Operation.number int : Operation build).Stays := by
  intro display write member
  unfold number at member
  split at member
  · cases member
  next numberBuf padding =>
    obtain rfl := List.mem_singleton.mp member
    show 0 + numberBuf.length ≤ 32
    unfold padNumber at padding
    split at padding
    · cases padding
      rw [List.length_append, List.length_replicate, Region.length_read]
      omega
    · cases padding

/-- The writes of a part stay inside the array exactly if it fits. -/
theorem inside_part_iff {part : Part} (converts : part.Converts)
    {offset : Nat} :
    (∀ write ∈ writesOf (part.operations place offset) display,
      write.Inside) ↔ offset + part.room ≤ place.size := by
  cases part with
  | text bytes => exact List.forall_mem_singleton
  | rate int =>
      have converted := convertNumericDecimalToString_eq converts.1 converts.2
      have writes : writesOf ((Part.rate int).operations place offset)
          display = [⟨place, offset, rateText int.number⟩] := by
        rw [Part.operations, writesOf, Operation.rate, converted]
        rfl
      rw [writes]
      exact List.forall_mem_singleton
  | amount int =>
      constructor
      · intro inside
        have clears : (⟨place, offset + 0, List.replicate 78 0⟩ : Write) ∈
            Operation.amount place offset none int
              (display.performed (Operation.number int display)) := by
          rw [Operation.amount_eq converts]
          exact List.mem_cons_self ..
        have cleared := inside _ (List.mem_append_right _
          (List.mem_append_left _ clears))
        unfold Write.Inside at cleared
        rwa [List.length_replicate] at cleared
      · intro fits
        refine stays_writesOf _ ?_ display
        intro operation listed
        obtain rfl | last := List.mem_cons.mp listed
        · exact Operation.stays_number int
        · obtain rfl := List.mem_singleton.mp last
          exact Operation.stays_amount converts fits (by simp)

/-- The writes of parts stay inside the array exactly if they all fit. -/
theorem inside_parts_iff {parts : List Part}
    (converts : ∀ part ∈ parts, part.Converts) {offset : Nat} :
    (∀ write ∈ writesOf (partsOperations place offset parts) display,
      write.Inside) ↔ PartsFit place.size offset parts := by
  induction parts generalizing offset display with
  | nil => exact iff_of_true (by simp [partsOperations, writesOf]) trivial
  | cons part rest inductionHypothesis =>
      rw [partsOperations, writesOf_append, List.forall_mem_append,
        inside_part_iff (converts part (by simp)), inductionHypothesis
          fun other listed => converts other (List.mem_cons_of_mem _ listed)]
      rfl

theorem Operation.writesTo_number {places : List Place}
    (listed : hashArray ∈ places) (int : TxInt256) :
    (Operation.number int : Operation build).WritesTo places := by
  intro display write member
  unfold number at member
  split at member
  · cases member
  · obtain rfl := List.mem_singleton.mp member
    exact listed

theorem writesTo_part (part : Part) (offset : Nat) :
    ∀ operation ∈ (part.operations place offset : List (Operation build)),
      operation.WritesTo [place, hashArray] := by
  intro operation listed
  cases part with
  | text bytes =>
      obtain rfl := List.mem_singleton.mp listed
      exact Operation.writesTo_put (by simp) _ _
  | rate int =>
      obtain rfl := List.mem_singleton.mp listed
      intro display write member
      unfold Operation.rate at member
      split at member
      · obtain rfl := List.mem_singleton.mp member
        simp
      · cases member
  | amount int =>
      obtain rfl | last := List.mem_cons.mp listed
      · exact Operation.writesTo_number (by simp) int
      · obtain rfl := List.mem_singleton.mp last
        exact Operation.writesTo_amount (by simp) _ (by simp) _

/-- The parts write into their array and the scratch buffer only. -/
theorem writesTo_parts (parts : List Part) (offset : Nat) :
    ∀ operation ∈ (partsOperations place offset parts :
        List (Operation build)), operation.WritesTo [place, hashArray] := by
  induction parts generalizing offset with
  | nil =>
      intro operation listed
      cases listed
  | cons part rest inductionHypothesis =>
      intro operation listed
      obtain first | later := List.mem_append.mp listed
      · exact writesTo_part part offset operation first
      · exact inductionHypothesis _ operation later

end Staying

end LedgerOne
