import LedgerOne.Firmware.GetTxnSig
import LedgerOne.Firmware.Staking
import LedgerOne.Lib.Ensures

/-!
# Strings that have room

The strings of the context are large enough for the texts of fixed size that
the reviews write into them: addresses, shards, keys and hashes.
-/

namespace LedgerOne

/-! ## The length of an address -/

theorem k_pushByte (state : Base32Raw) (data : UInt8) :
    (state.pushByte data).k = state.k + 8 := by
  have push : ∀ (state : Base32Raw) (j : Nat),
      (state.push data j).k = state.k + 1 := by
    intro state j
    unfold Base32Raw.push
    dsimp only
    split <;> rfl
  simp [Base32Raw.pushByte, List.range_succ, push]

theorem k_foldl_pushByte (data : List UInt8) (state : Base32Raw) :
    (data.foldl Base32Raw.pushByte state).k = state.k + 8 * data.length := by
  induction data generalizing state with
  | nil => rfl
  | cons byte data inductionHypothesis =>
      rw [List.foldl_cons, inductionHypothesis, k_pushByte, List.length_cons]
      omega

theorem length_of_mapM {α β : Type} {f : α -> Option β} {values : List α}
    {images : List β} (maps : values.mapM f = some images) :
    images.length = values.length := by
  induction values generalizing images with
  | nil =>
      cases maps
      rfl
  | cons value values inductionHypothesis =>
      rw [List.mapM_cons] at maps
      obtain ⟨image, _, rest⟩ := Option.bind_eq_some_iff.mp maps
      obtain ⟨others, mapped, last⟩ := Option.bind_eq_some_iff.mp rest
      cases last
      rw [List.length_cons, inductionHypothesis mapped, List.length_cons]

theorem length_base32Encode {data text : List UInt8}
    (encodes : base32Encode data = some text) :
    text.length ≤ (8 * data.length + 1) / 5 := by
  unfold base32Encode base32EncodeRaw at encodes
  rw [length_of_mapM encodes, List.length_take, k_foldl_pushByte]
  simp

/-- The text of an address has at most 42 characters. -/
theorem length_bech32GetAddress {address : Region 20} {text : List UInt8}
    (encodes : bech32GetAddress address.toList = some text) :
    text.length ≤ MAX_ONE_ADDRESS := by
  unfold bech32GetAddress at encodes
  obtain ⟨encoded, base, rest⟩ := Option.bind_eq_some_iff.mp encodes
  obtain ⟨values, _, rest⟩ := Option.bind_eq_some_iff.mp rest
  obtain ⟨checksum, sum, last⟩ := Option.bind_eq_some_iff.mp rest
  cases last
  have six : checksum.length = 6 := by
    simpa using length_of_mapM sum
  have short : encoded.length ≤ 32 := by
    simpa using length_base32Encode base
  have fixed : (bech32Prefix ++ ascii "1").length = 4 := by decide
  rw [List.length_append, List.length_append, fixed, six]
  show 4 + encoded.length + 6 ≤ 42
  omega

/-! ## Strings -/

namespace Display

variable (display : Display build)

theorem succeeds_write (offset : Nat) (bytes : List UInt8)
    (fits : offset + bytes.length ≤ build.stringsSize) :
    Succeeds (display.write offset bytes) := by
  unfold write
  rw [Region.write?_eq_some _ _ _ fits]
  exact Ensures.ok trivial

theorem succeeds_copy (target source count : Nat)
    (reads : source + count ≤ build.stringsSize)
    (writes : target + count ≤ build.stringsSize) :
    Succeeds (display.copy target source count) := by
  unfold copy read
  rw [Region.read?_eq_some _ _ _ reads]
  apply succeeds_write
  rwa [Region.length_read]

theorem succeeds_writeAddress (offset : Nat) (address : Region 20)
    (fits : offset + (MAX_ONE_ADDRESS + 1) ≤ build.stringsSize) :
    Succeeds (display.writeAddress offset address) := by
  unfold writeAddress
  split
  next => exact Ensures.ok trivial
  next text encodes =>
    have short := length_bech32GetAddress encodes
    apply succeeds_write
    rw [List.length_append, List.length_singleton]
    omega

end Display

end LedgerOne
