import LedgerOne.Decoder.Store

/-!
# The destinations in one piece of memory

Where the components of the content lie in one piece, a field takes as many
bytes as there are up to the end of the command context, and those past its
array overwrite the components behind it.
-/

namespace LedgerOne

open Layout

/-- The bytes of the context from an address of the content on. -/
def room (behind address : Nat) : Option Nat := some (528 + behind - address)

namespace Slot

/-- Write an integer with its length into the memory. -/
def pokeInt (slot : Slot TxInt256) (bytes : List UInt8)
    (content : TxContent) : TxContent :=
  slot.setLength bytes.length (content.poke slot.address bytes)

/-- Write an integer of which perhaps not all announced bytes are there. -/
def pokeFinalInt (slot : Slot TxInt256) (length : Nat) (bytes : List UInt8)
    (content : TxContent) : TxContent :=
  if bytes.length < length then content.poke slot.address bytes
  else slot.pokeInt bytes content

/-- Write the bytes of a shard and then the number they stand for; the empty
one leaves the memory. -/
def pokeShard (slot : Slot Nat) (length : Nat) (bytes : List UInt8)
    (content : TxContent) : TxContent :=
  if length = 0 then content
  else slot.set (shardFromBytes bytes) (content.poke slot.address bytes)

end Slot

section Stores

variable {behind address length : Nat} {array : Store} {bytes : List UInt8}
  {content : TxContent}

private theorem poke?_of_fits (inside : address ≤ 528)
    (fits : exceeds (room behind address) bytes.length = false) :
    content.poke? behind address bytes = some (content.poke address bytes) := by
  simp only [room, exceeds_some, decide_eq_false_iff_not] at fits
  exact if_pos (by omega)

private theorem poke?_of_exceeds
    (tooLong : exceeds (room behind address) bytes.length = true) :
    content.poke? behind address bytes = none := by
  simp only [room, exceeds_some, decide_eq_true_eq] at tooLong
  exact if_neg (by omega)

private theorem stores_of_poke? {out : Store}
    (here : out = TxContent.poke? behind address) (inside : address ≤ 528)
    (empty : length = 0 -> bytes = [])
    (fits : exceeds (room behind address) bytes.length = false) :
    Stores (some out) length bytes content (content.poke address bytes) := by
  rw [stores_some_iff, here]
  split
  · next announced => rw [empty announced, TxContent.poke_nil]
  · exact poke?_of_fits inside fits

theorem stores_joined (inside : address ≤ 528)
    (empty : length = 0 -> bytes = [])
    (fits : exceeds (room behind address) bytes.length = false) :
    Stores (some (@storeAt (.joined behind) address array)) length bytes content
      (content.poke address bytes) :=
  stores_of_poke? rfl inside empty fits

theorem overruns_joined
    (tooLong : exceeds (room behind address) bytes.length = true) :
    Overruns (some (@storeAt (.joined behind) address array)) bytes content :=
  ⟨_, rfl, poke?_of_exceeds tooLong⟩

theorem stores_joinedBlsPubKey (empty : length = 0 -> bytes = [])
    (fits : exceeds (room behind 316) bytes.length = false) :
    Stores (some (@storeBlsPubKey (.joined behind) 0)) length bytes content
      (content.poke 316 bytes) :=
  stores_of_poke? rfl (by decide) empty fits

theorem overruns_joinedBlsPubKey
    (tooLong : exceeds (room behind 316) bytes.length = true) :
    Overruns (some (@storeBlsPubKey (.joined behind) 0)) bytes content :=
  ⟨_, rfl, poke?_of_exceeds tooLong⟩

theorem stores_joinedShard (slot : Slot Nat) (inside : slot.address ≤ 528)
    (fits : exceeds (room behind slot.address) bytes.length = false) :
    Stores (some (@storeShard (.joined behind) slot.address slot.get slot.set
      0)) length bytes content (slot.pokeShard length bytes content) := by
  rw [stores_some_iff, Slot.pokeShard]
  split
  · rfl
  · show (content.poke? behind slot.address bytes).map _ = _
    rw [poke?_of_fits inside fits]
    rfl

theorem overruns_joinedShard (slot : Slot Nat)
    (tooLong : exceeds (room behind slot.address) bytes.length = true) :
    Overruns (some (@storeShard (.joined behind) slot.address slot.get slot.set
      0)) bytes content := by
  refine ⟨_, rfl, ?_⟩
  show (content.poke? behind slot.address bytes).map _ = _
  rw [poke?_of_exceeds tooLong]
  rfl

end Stores

/-- A complete integer is recorded with its length. -/
theorem Copied.recordPoked {buf : Region 1024} {before copied : TxContext}
    {content : TxContent} {length : Nat} {bytes rest : List UInt8}
    (slot : Slot TxInt256)
    (facts : Copied buf before copied (content.poke slot.address bytes) length
      rest)
    (full : bytes.length = length) :
    Handled buf { LedgerOne.recordInt256 slot copied with
        processingField := false }
      before.txCurrentField.next before.stakeCurrentField.next
      before.currentBlsKeyIndex (slot.pokeInt bytes content) rest := by
  rw [Slot.pokeInt, full]
  exact facts.recordLength

end LedgerOne
