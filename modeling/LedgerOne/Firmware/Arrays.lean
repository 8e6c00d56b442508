import LedgerOne.Firmware.Parts

/-!
# What operations leave in an array

`Leaves operations place before after` says that the operations take an array
that holds one text to the array that holds another.  There is a rule for each
operation and one for operations after one another.  Operations that are
confined to other arrays leave every text as it is.
-/

namespace LedgerOne

/-- The arrays share no byte. -/
def Place.Apart (left right : Place) : Prop :=
  left.start + left.size ≤ right.start ∨ right.start + right.size ≤ left.start

instance (left right : Place) : Decidable (left.Apart right) :=
  inferInstanceAs (Decidable (_ ∨ _))

/-! ## Confined operations -/

/-- The operations write into certain arrays only, and stay inside them. -/
structure Confined (places : List Place)
    (operations : List (Operation build)) : Prop where
  stays : (writesOf operations).Stays
  writesTo : (writesOf operations).WritesTo places

namespace Confined

variable {places : List Place} {front back : List (Operation build)}

theorem single {operation : Operation build} (stays : operation.Stays)
    (writesTo : operation.WritesTo places) : Confined places [operation] where
  stays := stays_writesOf [operation] (by simpa using stays)
  writesTo := writesTo_writesOf (by simpa using writesTo)

theorem nil : Confined places ([] : List (Operation build)) where
  stays := stays_writesOf [] (by simp)
  writesTo := writesTo_writesOf (by simp)

theorem append (first : Confined places front)
    (second : Confined places back) : Confined places (front ++ back) where
  stays display := by
    rw [writesOf_append, List.forall_mem_append]
    exact ⟨first.stays display, second.stays _⟩
  writesTo display := by
    rw [writesOf_append, List.forall_mem_append]
    exact ⟨first.writesTo display, second.writesTo _⟩

theorem cons {operation : Operation build} (stays : operation.Stays)
    (writesTo : operation.WritesTo places) (rest : Confined places back) :
    Confined places (operation :: back) :=
  append (single stays writesTo) rest

/-- Confined to fewer arrays, confined to more. -/
theorem mono (confined : Confined places front) {more : List Place}
    (listed : places ⊆ more) : Confined more front where
  stays := confined.stays
  writesTo display write member :=
    listed (confined.writesTo display write member)

/-- Parts of a text that fit their array are confined to it and to the scratch
buffer. -/
theorem parts {place : Place} {parts : List Part}
    (converts : ∀ part ∈ parts, part.Converts)
    (fits : PartsFit place.size 0 parts) :
    Confined [place, hashArray]
      (partsOperations place 0 parts : List (Operation build)) where
  stays _ := (inside_parts_iff converts).mpr fits
  writesTo := writesTo_writesOf (writesTo_parts parts 0)

end Confined

/-! ## Triples -/

/-- An array with one text is taken to the array with another. -/
def Leaves (operations : List (Operation build)) (place : Place)
    (before after : List UInt8) : Prop :=
  ∀ display : Display build,
    display.strings.Holds place.start place.size before ->
    (display.performed (writesOf operations display)).strings.Holds
      place.start place.size after

namespace Leaves

variable {place : Place} {front back operations : List (Operation build)}
  {before middle after text : List UInt8}

theorem append (first : Leaves front place before middle)
    (second : Leaves back place middle after) :
    Leaves (front ++ back) place before after := by
  intro display holds
  rw [performed_writesOf_append]
  exact second _ (first display holds)

theorem cons {operation : Operation build}
    (first : Leaves [operation] place before middle)
    (second : Leaves back place middle after) :
    Leaves (operation :: back) place before after :=
  append first second

/-- Operations elsewhere leave the text as it is. -/
theorem frame {places : List Place} (confined : Confined places operations)
    (apart : ∀ other ∈ places, place.Apart other) (text : List UInt8) :
    Leaves operations place text text := by
  intro display holds
  refine holds_performed holds fun write member => ?_
  exact ⟨confined.stays display write member,
    apart _ (confined.writesTo display write member)⟩

section Inside

variable (inside : place.start + place.size ≤ build.stringsSize)

include inside

theorem clear :
    Leaves [(.clear place : Operation build)] place before [] :=
  fun display _ => Region.Holds.cleared display.strings inside

theorem put (fits : text.length ≤ place.size) :
    Leaves [(.put place 0 text : Operation build)] place [] text :=
  fun _ holds => holds.write fits inside

theorem address (address : Region 20) (room : 42 ≤ place.size) :
    Leaves [(.address place address : Operation build)] place []
      (addressText address) := by
  intro display holds
  exact holds.append_zeros (addressText address) 1
    (by simpa using room) inside

/-- An amount, whose length goes elsewhere. -/
theorem amount {counter : Place} {int : TxInt256}
    (short : int.length.toNat ≤ 32) (room : 78 ≤ place.size)
    (apart : place.Apart counter) (whole : counter.size = 4) :
    Leaves [(.amount place 0 (some counter) int : Operation build)] place []
      (amountText int.number) := by
  intro display holds
  have few := length_amountText (TxInt256.number_lt short)
  have four := Region.length_toList
    (uint32Bytes (amountText int.number).length)
  rw [performed_writesOf_cons, performed_amount place 0 _ short display
    (by omega)]
  have written := holds.append_zeros (amountText int.number)
    (78 - (amountText int.number).length) (by simp; omega) inside
  exact written.frame counter.start _ (by
    rw [four, ← whole]
    exact apart)

/-- The parts of a text. -/
theorem parts {parts : List Part} {limit : Nat}
    (within : place.start + limit ≤ build.stringsSize)
    (behind : 32 ≤ place.start) (converts : ∀ part ∈ parts, part.Converts)
    (room : PartsFit limit 0 parts)
    (fits : (partsText parts).length ≤ place.size) :
    Leaves (partsOperations place 0 parts : List (Operation build)) place []
      (partsText parts) :=
  fun _ holds => holds_parts within behind inside converts holds room (by
    simpa using fits)

end Inside

end Leaves

end LedgerOne
