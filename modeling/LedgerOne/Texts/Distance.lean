import LedgerOne.Firmware.Composing
import LedgerOne.Lib.Errors

/-!
# Texts of different addresses

The checksum keeps the texts of two addresses apart: whoever compares an
address on the screen need not fear that one or two of its characters make it
another one.
-/

namespace LedgerOne

namespace Bip173

/-- No value alone gets the checksum back into its five lowest bits within the
length of an address. -/
theorem far_generators : ∀ value < 32, value ≠ 0 ->
    Polymod.far generators 37 value := by
  decide +kernel

theorem proper_generators : ∀ top < 32,
    Polymod.fold generators top % 32 = 0 -> top = 0 := by
  decide

theorem character_injective : ∀ left < 32, ∀ right < 32,
    character left = character right -> left = right := by
  decide

end Bip173

/-- The values behind the text of an address. -/
theorem exists_values (address : Region 20) :
    ∃ values : List Nat,
      addressText address = ascii "one1" ++ values.map Bip173.character ∧
      values.length = 38 ∧ (∀ value ∈ values, value < 32) ∧
      values.foldl (Polymod.step Bip173.generators)
        (Bip173.polymod (Bip173.expand (ascii "one"))) = 1 ∧
      regroup 20 (values.take 32) = address.toList := by
  have twenty : address.toList.length = 20 := Region.length_toList address
  obtain ⟨data, checksum, encodes, length, six, small, one, number⟩ :=
    bech32GetAddress_eq twenty
  refine ⟨data ++ checksum, ?_, ?_, small, ?_, ?_⟩
  · rw [addressText, encodes, Option.getD_some]
  · rw [List.length_append, length, six]
  · rw [← one, Bip173.polymod, Bip173.polymod, List.append_assoc,
      List.foldl_append (l := Bip173.expand _)]
  · rw [← length, List.take_left]
    exact regroup_of_fiveBitNumber twenty number

/-- The texts of different addresses differ in at least three characters. -/
theorem addressText_distance {left right : Region 20}
    (different : left ≠ right) :
    3 ≤ Polymod.mismatches (addressText left) (addressText right) := by
  obtain ⟨values, text, length, small, ends, bytes⟩ := exists_values left
  obtain ⟨others, text', length', small', ends', bytes'⟩ := exists_values right
  have same : values.length = others.length := length.trans length'.symm
  have mismatches : Polymod.mismatches (addressText left)
      (addressText right) = Polymod.mismatches values others := by
    rw [text, text', Polymod.mismatches_append]
    exact Polymod.mismatches_map fun a among b within =>
      Bip173.character_injective a (small a among) b (small' b within)
  have register := Polymod.foldl_difference Bip173.generators same
    (Bip173.polymod (Bip173.expand (ascii "one")))
    (Bip173.polymod (Bip173.expand (ascii "one")))
  rw [ends, ends', Nat.xor_self, Nat.xor_self] at register
  have digits : ∀ value ∈ Polymod.difference values others, value < 32 :=
    Polymod.lt_of_mem_difference small small'
  rw [mismatches, ← Polymod.weight_difference]
  obtain none | three := Polymod.weight_of_foldl_zero
    Bip173.proper_generators Bip173.bounded Bip173.far_generators (by
      rw [Polymod.difference, List.length_zipWith, length, length']
      decide) digits register.symm
  · rw [Polymod.weight_difference] at none
    obtain rfl := Polymod.eq_of_mismatches_zero same none
    exact absurd (Region.toList_injective (bytes.symm.trans bytes')) different
  · exact three

/-- Two addresses that differ in one bit. -/
theorem addressText_distance_zeros :
    3 ≤ Polymod.mismatches (addressText .zero)
      (addressText (.ofList [1])) :=
  addressText_distance (by decide)

end LedgerOne
