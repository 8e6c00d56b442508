import LedgerOne.Firmware.Composing

/-!
# The writes of an operation

The model stores bytes at offsets of the context and only refuses to leave the
context.  Here each store of the source is named with the array that it is
meant for, so that one can ask whether it stays inside that array.  An
operation lists its writes in the order of the source; what it leaves is what
its writes leave.
-/

namespace LedgerOne

/-- An array of the context: where it starts among the strings, and its
size. -/
structure Place where
  start : Nat
  size : Nat
  deriving DecidableEq

/-- Bytes that are written into an array, from an index on. -/
structure Write where
  place : Place
  index : Nat
  bytes : List UInt8
  deriving DecidableEq

/-- No byte is written behind the array. -/
def Write.Inside (write : Write) : Prop :=
  write.index + write.bytes.length ≤ write.place.size

instance (write : Write) : Decidable write.Inside :=
  inferInstanceAs (Decidable (_ ≤ _))

/-- A part of a handler, as a list of writes that may depend on the strings. -/
abbrev Operation (build : Build) := Display build -> List Write

/-- What a list of writes leaves. -/
def Display.performed (display : Display build) (writes : List Write) :
    Display build :=
  writes.foldl (fun display write =>
    display.put (write.place.start + write.index) write.bytes) display

/-- The writes of operations, one after the other. -/
def writesOf : List (Operation build) -> Operation build
  | [], _ => []
  | operation :: rest, display =>
      operation display ++ writesOf rest (display.performed (operation display))

@[simp] theorem performed_nil (display : Display build) :
    display.performed [] = display :=
  rfl

@[simp] theorem performed_cons (display : Display build) (write : Write)
    (rest : List Write) :
    display.performed (write :: rest) =
      (display.put (write.place.start + write.index)
        write.bytes).performed rest :=
  rfl

theorem performed_append (display : Display build)
    (front back : List Write) :
    display.performed (front ++ back) =
      (display.performed front).performed back :=
  List.foldl_append

/-- What writes leave depends on the strings only. -/
theorem performed_congr {left right : Display build}
    (same : left.strings = right.strings) (writes : List Write) :
    (left.performed writes).strings = (right.performed writes).strings := by
  induction writes generalizing left right with
  | nil => exact same
  | cons write rest inductionHypothesis =>
      apply inductionHypothesis
      rw [Display.strings_put, Display.strings_put, same]

@[simp] theorem performed_writesOf_nil (display : Display build) :
    display.performed (writesOf [] display) = display :=
  rfl

@[simp] theorem performed_writesOf_cons (display : Display build)
    (operation : Operation build) (rest : List (Operation build)) :
    display.performed (writesOf (operation :: rest) display) =
      (display.performed (operation display)).performed
        (writesOf rest (display.performed (operation display))) :=
  performed_append _ _ _

/-! ## The operations of the reviews -/

namespace Operation

/-- Fixed bytes. -/
def put (place : Place) (index : Nat) (bytes : List UInt8) :
    Operation build :=
  fun _ => [⟨place, index, bytes⟩]

/-- `os_memset` of the whole array. -/
def clear (place : Place) : Operation build :=
  put place 0 (List.replicate place.size 0)

/-- `os_memmove` of bytes from among the strings to the start of an array. -/
def copy (place : Place) (source count : Nat) : Operation build :=
  fun display => [⟨place, 0, display.strings.read source count⟩]

/-- `bech32_get_address`. -/
def address (place : Place) (address : Region 20) : Operation build :=
  fun _ => [⟨place, 0, addressText address ++ [0]⟩]

/-- `convertU256ToString`, from an index of the array on; its length goes to
an array of its own, if there is one. -/
def amount (place : Place) (index : Nat) (lengthAt : Option Place)
    (int : TxInt256) : Operation build := fun _ =>
  match padNumber int >>= fun numberBuf =>
      convertU256ToString numberBuf 78 with
  | .error _ => []
  | .ok conversion =>
      let written := conversion.writes.map fun (position, bytes) =>
        (⟨place, index + position, bytes⟩ : Write)
      match lengthAt, conversion.outLength with
      | some counter, some length =>
          written ++ [⟨counter, 0, (uint32Bytes length).toList⟩]
      | _, _ => written

/-- A window of at most 12 characters on the start of a string, and a NUL
behind it. -/
def window (place : Place) (source counter : Nat) : Operation build :=
  fun display =>
    let count := min 12 (display.getUint32 counter)
    [⟨place, 0, display.strings.read source count⟩, ⟨place, count, [0]⟩]

end Operation

/-- Writes that stay inside the context are what `writeAll?` stores. -/
theorem strings_performed {display : Display build} {place : Place}
    {index : Nat} {writes : List (Nat × List UInt8)}
    {strings : Region build.stringsSize}
    (stores : display.strings.writeAll? (place.start + index) writes =
      some strings) :
    display.performed (writes.map fun (position, bytes) =>
        (⟨place, index + position, bytes⟩ : Write)) =
      { display with strings := strings } := by
  induction writes generalizing display with
  | nil =>
      cases stores
      rfl
  | cons first rest inductionHypothesis =>
      obtain ⟨position, bytes⟩ := first
      rw [Region.writeAll?, List.foldlM_cons] at stores
      obtain ⟨stored, writes, goesOn⟩ := Option.bind_eq_some_iff.mp stores
      have spliced : display.strings.splice
          (place.start + index + position) bytes = stored := by
        dsimp only [Region.write?] at writes
        split at writes
        · exact Option.some.inj writes
        · cases writes
      rw [List.map_cons, performed_cons]
      dsimp only
      rw [← Nat.add_assoc, inductionHypothesis (by
        rw [Display.strings_put, spliced]
        exact goesOn)]
      rfl

/-- The writes of a conversion, on a number of at most 32 bytes. -/
theorem Operation.amount_eq {place : Place} {index : Nat}
    {lengthAt : Option Place} {int : TxInt256}
    (short : int.length.toNat ≤ 32) (display : Display build) :
    Operation.amount place index lengthAt int display =
      ((amountWrites int.number).map fun (position, bytes) =>
        (⟨place, index + position, bytes⟩ : Write)) ++
      match lengthAt with
      | some counter =>
          [⟨counter, 0, (uint32Bytes (amountText int.number).length).toList⟩]
      | none => [] := by
  obtain ⟨numberBuf, padding, whole, value⟩ := padNumber_eq short
  unfold amount
  rw [padding, bind_ok, convertU256ToString_eq whole, value]
  cases lengthAt with
  | none => exact (List.append_nil _).symm
  | some counter => rfl

/-- A conversion leaves the text of the amount and NULs in its 78 bytes. -/
theorem performed_amount (place : Place) (index : Nat)
    (lengthAt : Option Place) {int : TxInt256}
    (short : int.length.toNat ≤ 32) (display : Display build)
    (fits : place.start + index + 78 ≤ build.stringsSize) :
    display.performed (Operation.amount place index lengthAt int display) =
      (display.put (place.start + index)
        (padded 78 (amountText int.number))).performed
        (match lengthAt with
          | some counter => [⟨counter, 0,
              (uint32Bytes (amountText int.number).length).toList⟩]
          | none => []) := by
  have stores := writeAll?_amountWrites (TxInt256.number_lt short)
    display.strings fits
  rw [Operation.amount_eq short, performed_append, strings_performed stores]
  rfl

theorem performed_window (display : Display build) (place : Place)
    (source counter : Nat) :
    display.performed (Operation.window place source counter display) =
      display.windowed place.start source
        (min 12 (display.getUint32 counter)) :=
  rfl

/-! ## Inside the arrays -/

/-- Pieces laid one behind the other end where the last one ends. -/
theorem inside_placed {position : Nat} {parts : List (List UInt8)}
    {piece : Nat × List UInt8} (member : piece ∈ placed position parts) :
    piece.1 + piece.2.length ≤ position + parts.flatten.length := by
  induction parts generalizing position with
  | nil => cases member
  | cons bytes rest inductionHypothesis =>
      rw [List.flatten_cons, List.length_append]
      obtain rfl | later := List.mem_cons.mp member
      · dsimp only
        omega
      · have := inductionHypothesis later
        omega

/-- No write of a conversion leaves the 78 bytes that it clears. -/
theorem inside_amountWrites {value : Nat} (small : value < 2 ^ 256)
    {piece : Nat × List UInt8} (member : piece ∈ amountWrites value) :
    piece.1 + piece.2.length ≤ 78 := by
  have short := length_amountText small
  obtain rfl | later := List.mem_cons.mp member
  · rw [List.length_replicate]
  · have within := inside_placed later
    rw [flatten_amountParts] at within
    omega

namespace Operation

/-- On whatever strings, every write of the operation stays inside its
array. -/
def Stays (operation : Operation build) : Prop :=
  ∀ display, ∀ write ∈ operation display, write.Inside

theorem stays_put {place : Place} {index : Nat} {bytes : List UInt8}
    (room : index + bytes.length ≤ place.size) :
    (put place index bytes : Operation build).Stays := by
  intro display write member
  obtain rfl := List.mem_singleton.mp member
  exact room

theorem stays_clear (place : Place) :
    (clear place : Operation build).Stays :=
  stays_put (by rw [List.length_replicate, Nat.zero_add])

theorem stays_copy {place : Place} {source count : Nat}
    (room : count ≤ place.size) :
    (copy place source count : Operation build).Stays := by
  intro display write member
  obtain rfl := List.mem_singleton.mp member
  show 0 + (display.strings.read source count).length ≤ place.size
  rwa [Region.length_read, Nat.zero_add]

theorem stays_address {place : Place} (address : Region 20)
    (room : 43 ≤ place.size) :
    (Operation.address place address : Operation build).Stays := by
  intro display write member
  obtain rfl := List.mem_singleton.mp member
  have length := length_addressText address
  show 0 + (addressText address ++ [0]).length ≤ place.size
  rw [List.length_append, List.length_singleton]
  omega

theorem stays_window {place : Place} {source counter : Nat}
    (room : 13 ≤ place.size) :
    (window place source counter : Operation build).Stays := by
  intro display write member
  have few := Nat.min_le_left 12 (display.getUint32 counter)
  obtain rfl | ended := List.mem_cons.mp member
  · show 0 + (display.strings.read source _).length ≤ place.size
    rw [Region.length_read]
    omega
  · obtain rfl := List.mem_singleton.mp ended
    show min 12 _ + 1 ≤ place.size
    omega

theorem stays_amount {place : Place} {index : Nat} {lengthAt : Option Place}
    {int : TxInt256} (short : int.length.toNat ≤ 32)
    (room : index + 78 ≤ place.size)
    (counts : ∀ counter ∈ lengthAt, counter.size = 4) :
    (amount place index lengthAt int : Operation build).Stays := by
  intro display write member
  rw [amount_eq short] at member
  obtain converted | counted := List.mem_append.mp member
  · obtain ⟨⟨position, bytes⟩, piece, rfl⟩ := List.mem_map.mp converted
    have within := inside_amountWrites (TxInt256.number_lt short) piece
    show index + position + bytes.length ≤ place.size
    dsimp only at within
    omega
  · cases lengthAt with
    | none => cases counted
    | some counter =>
        obtain rfl := List.mem_singleton.mp counted
        show 0 + (uint32Bytes _).toList.length ≤ counter.size
        rw [Region.length_toList, counts counter rfl]

end Operation

/-! ## The arrays that are written -/

namespace Operation

/-- The operation writes into these arrays only. -/
def WritesTo (places : List Place) (operation : Operation build) : Prop :=
  ∀ display, ∀ write ∈ operation display, write.place ∈ places

variable {places : List Place} {place : Place} (listed : place ∈ places)

include listed

theorem writesTo_put (index : Nat) (bytes : List UInt8) :
    (put place index bytes : Operation build).WritesTo places := by
  intro display write member
  obtain rfl := List.mem_singleton.mp member
  exact listed

theorem writesTo_address (address : Region 20) :
    (Operation.address place address : Operation build).WritesTo places := by
  intro display write member
  obtain rfl := List.mem_singleton.mp member
  exact listed

theorem writesTo_amount (index : Nat) {lengthAt : Option Place}
    (counted : ∀ counter ∈ lengthAt, counter ∈ places) (int : TxInt256) :
    (amount place index lengthAt int : Operation build).WritesTo places := by
  intro display write member
  have converted : ∀ conversion : Conversion,
      write ∈ conversion.writes.map (fun (position, bytes) =>
        (⟨place, index + position, bytes⟩ : Write)) -> write.place = place := by
    intro conversion mapped
    obtain ⟨_, _, rfl⟩ := List.mem_map.mp mapped
    rfl
  unfold amount at member
  split at member
  · cases member
  · rename_i conversion _
    cases lengthAt with
    | none => exact converted conversion member ▸ listed
    | some counter =>
        cases length : conversion.outLength with
        | none =>
            rw [length] at member
            exact converted conversion member ▸ listed
        | some length =>
            rw [length] at member
            obtain first | last := List.mem_append.mp member
            · exact converted conversion first ▸ listed
            · obtain rfl := List.mem_singleton.mp last
              exact counted counter rfl

end Operation

theorem writesTo_writesOf {places : List Place}
    {operations : List (Operation build)}
    (each : ∀ operation ∈ operations, operation.WritesTo places) :
    (writesOf operations).WritesTo places := by
  induction operations with
  | nil =>
      intro display write member
      cases member
  | cons operation rest inductionHypothesis =>
      intro display write member
      obtain first | later := List.mem_append.mp member
      · exact each operation (by simp) display write first
      · exact inductionHypothesis
          (fun other listed => each other (List.mem_cons_of_mem _ listed)) _
          write later

/-- Operations that stay inside their arrays, one after the other. -/
theorem stays_writesOf (operations : List (Operation build))
    (stay : ∀ operation ∈ operations, operation.Stays) :
    (writesOf operations).Stays := by
  induction operations with
  | nil =>
      intro display write member
      cases member
  | cons operation rest inductionHypothesis =>
      intro display write member
      obtain first | later := List.mem_append.mp member
      · exact stay operation (by simp) display write first
      · exact inductionHypothesis
          (fun other listed => stay other (List.mem_cons_of_mem _ listed)) _
          write later

end LedgerOne
