import LedgerOne.Firmware.Room
import LedgerOne.Lib.Polymod

/-!
# The text of an address

What `bech32_get_address` writes: the prefix, the twenty bytes in groups of
five bits, and the checksum that makes the whole text one of BIP-173.
-/

namespace LedgerOne

/-! ## Groups of five bits -/

/-- The number that values of five bits spell. -/
def fiveBitNumber (values : List Nat) : Nat :=
  values.foldl (fun number value => number * 32 + value) 0

/-- The bytes that values of five bits spell. -/
def regroup (count : Nat) (values : List Nat) : List UInt8 :=
  (List.range count).map fun index =>
    UInt8.ofNat (fiveBitNumber values / 256 ^ (count - 1 - index))

theorem fiveBitNumber_concat (values : List Nat) (value : Nat) :
    fiveBitNumber (values ++ [value]) = fiveBitNumber values * 32 + value := by
  rw [fiveBitNumber, List.foldl_append]
  rfl

/-- The loops of `base32_encode_raw` have seen the bits of a number. -/
structure Base32Raw.Holds (state : Base32Raw) (number : Nat) : Prop where
  number : number = fiveBitNumber (state.output.map UInt8.toNat) *
    2 ^ (state.k % 5) + state.current.toNat
  length : state.output.length = state.k / 5
  small : ∀ value ∈ state.output, value.toNat < 32
  current : state.current.toNat < 2 ^ (state.k % 5)

theorem holds_push {state : Base32Raw} {number : Nat} (data : UInt8) (j : Nat)
    (holds : state.Holds number) :
    (state.push data j).Holds
      (number * 2 + data.toNat * 2 ^ j / 2 ^ 7 % 2) := by
  obtain ⟨equal, length, small, current⟩ := holds
  have bit : data.toNat * 2 ^ j / 2 ^ 7 % 2 < 2 := Nat.mod_lt _ (by decide)
  unfold Base32Raw.push
  dsimp only
  generalize data.toNat * 2 ^ j / 2 ^ 7 % 2 = last at bit ⊢
  have room : 2 ^ (state.k % 5) ≤ 16 := by
    calc 2 ^ (state.k % 5) ≤ 2 ^ 4 :=
          Nat.pow_le_pow_right (by decide) (by omega)
      _ = 16 := rfl
  have filled : (state.current * 2 + UInt8.ofNat last).toNat =
      state.current.toNat * 2 + last := by
    simp
    omega
  split
  · next full =>
    have four : state.k % 5 = 4 := by omega
    rw [four] at equal current
    constructor
    all_goals dsimp only
    · rw [full, List.map_append, List.map_singleton, fiveBitNumber_concat,
        filled, equal]
      simp
      omega
    · rw [List.length_append, length, List.length_singleton]
      omega
    · intro value member
      obtain earlier | rfl := List.mem_append.mp member |>.imp_right
        List.mem_singleton.mp
      · exact small value earlier
      · rw [filled]
        omega
    · rw [full]
      decide
  · next more =>
    have next : (state.k + 1) % 5 = state.k % 5 + 1 := by omega
    constructor
    all_goals dsimp only
    · rw [next, filled, equal, Nat.pow_succ]
      ring
    · rw [length]
      omega
    · exact small
    · rw [next, filled, Nat.pow_succ]
      omega

/-- The bits of a byte, the upper ones first. -/
theorem holds_pushBits {state : Base32Raw} {number : Nat} (data : UInt8)
    (holds : state.Holds number) {count : Nat} (upTo : count ≤ 8) :
    ((List.range count).foldl (fun state j => state.push data j)
      state).Holds (number * 2 ^ count + data.toNat / 2 ^ (8 - count)) := by
  induction count with
  | zero =>
      rw [Nat.sub_zero, Nat.div_eq_of_lt data.toNat_lt]
      simpa using holds
  | succ count inductionHypothesis =>
      have pushed := holds_push data count (inductionHypothesis (by omega))
      rw [List.range_succ, List.foldl_append]
      have moved : data.toNat * 2 ^ count / 2 ^ 7 =
          data.toNat / 2 ^ (8 - (count + 1)) := by
        rw [show (2 : Nat) ^ 7 = 2 ^ (8 - (count + 1)) * 2 ^ count by
          rw [← Nat.pow_add]
          congr 1
          omega]
        exact Nat.mul_div_mul_right _ _ (Nat.two_pow_pos count)
      have halves : data.toNat / 2 ^ (8 - count) =
          data.toNat / 2 ^ (8 - (count + 1)) / 2 := by
        rw [Nat.div_div_eq_div_mul, ← Nat.pow_succ]
        congr 2
        omega
      rw [moved, halves] at pushed
      rw [Nat.pow_succ]
      have whole : (number * 2 ^ count +
          data.toNat / 2 ^ (8 - (count + 1)) / 2) * 2 +
            data.toNat / 2 ^ (8 - (count + 1)) % 2 =
          number * (2 ^ count * 2) + data.toNat / 2 ^ (8 - (count + 1)) := by
        rw [← Nat.mul_assoc]
        omega
      rw [← whole]
      exact pushed

theorem holds_pushByte {state : Base32Raw} {number : Nat} (data : UInt8)
    (holds : state.Holds number) :
    (state.pushByte data).Holds (number * 256 + data.toNat) := by
  have pushed := holds_pushBits data holds (Nat.le_refl 8)
  rwa [Nat.sub_self, Nat.pow_zero, Nat.div_one] at pushed

theorem holds_pushBytes {state : Base32Raw} {front : List UInt8}
    (data : List UInt8) (holds : state.Holds (beNat front)) :
    (data.foldl Base32Raw.pushByte state).Holds (beNat (front ++ data)) := by
  induction data generalizing state front with
  | nil => simpa using holds
  | cons byte data inductionHypothesis =>
      rw [List.append_cons, List.foldl_cons]
      apply inductionHypothesis
      rw [beNat_concat, Nat.mul_comm]
      exact holds_pushByte byte holds

/-- The values of twenty bytes: 32 of them, which spell the same number. -/
theorem base32EncodeRaw_twenty {data : List UInt8}
    (twenty : data.length = 20) :
    ∃ values : List UInt8, (base32EncodeRaw data).1.take
        (base32EncodeRaw data).2 = values ∧
      values.length = 32 ∧ (∀ value ∈ values, value.toNat < 32) ∧
      fiveBitNumber (values.map UInt8.toNat) = beNat data := by
  have start : ({} : Base32Raw).Holds (beNat []) := by
    constructor
    · rfl
    · rfl
    · simp
    · decide
  have holds := holds_pushBytes data start
  rw [List.nil_append] at holds
  have count : (data.foldl Base32Raw.pushByte {}).k = 160 := by
    rw [k_foldl_pushByte, twenty]
  obtain ⟨number, length, small, current⟩ := holds
  rw [count] at number length current
  refine ⟨_, rfl, ?_⟩
  have taken : (base32EncodeRaw data).1.take (base32EncodeRaw data).2 =
      (data.foldl Base32Raw.pushByte {}).output := by
    unfold base32EncodeRaw
    dsimp only
    rw [count]
    exact List.take_left' length
  rw [taken]
  refine ⟨length, small, ?_⟩
  simp only [Nat.reduceMod, Nat.pow_zero, Nat.mul_one, Nat.lt_one_iff]
    at number current
  rw [number, current, Nat.add_zero]

/-! ## The checksum of BIP-173 -/

namespace Bip173

/-- The generators. -/
def generators : List Nat :=
  [0x3b6a57b2, 0x26508e6d, 0x1ea119fa, 0x3d4233dd, 0x2a1462b3]

/-- `bech32_polymod`. -/
def polymod (values : List Nat) : Nat :=
  values.foldl (Polymod.step generators) 1

/-- `bech32_hrp_expand`. -/
def expand (hrp : List UInt8) : List Nat :=
  hrp.map (fun character => character.toNat / 32) ++ [0] ++
    hrp.map (fun character => character.toNat % 32)

/-- The character of a value. -/
def character (value : Nat) : UInt8 :=
  (ascii "qpzry9x8gf2tvdw0s3jn54khce6mua7l").getD value 0

theorem bounded : ∀ generator ∈ generators, generator < 2 ^ 30 := by decide

end Bip173

theorem base32GetChar_eq {value : Nat} (small : value < 32) :
    base32GetChar value = some (Bip173.character value) := by
  interval_cases value <;> rfl

theorem base32GetRaw_character {value : Nat} (small : value < 32) :
    base32GetRaw (Bip173.character value) = some value := by
  interval_cases value <;> rfl

/-- A map that succeeds everywhere. -/
theorem mapM_some {α β : Type} {f : α -> Option β} {g : α -> β}
    {values : List α} (all : ∀ value ∈ values, f value = some (g value)) :
    values.mapM f = some (values.map g) := by
  induction values with
  | nil => rfl
  | cons value values inductionHypothesis =>
      rw [List.mapM_cons, all value (List.mem_cons_self ..),
        inductionHypothesis fun later member =>
          all later (List.mem_cons_of_mem _ member)]
      rfl

theorem base32GetRaw_characters {values : List Nat}
    (small : ∀ value ∈ values, value < 32) :
    (values.map Bip173.character).mapM base32GetRaw = some values := by
  have back : values.mapM (base32GetRaw ∘ Bip173.character) =
      some (values.map id) :=
    mapM_some fun value member => base32GetRaw_character (small value member)
  rw [List.mapM_map, back, List.map_id]

/-- The loop over the generators. -/
theorem toNat_foldl_generators (b : UInt32) (pairs : List (UInt32 × Nat))
    (few : ∀ pair ∈ pairs, pair.2 < 32) (chk : UInt32) :
    (pairs.foldl
      (fun chk (generator, index) =>
        if (b >>> UInt32.ofNat index) &&& 1 = 1 then chk ^^^ generator
        else chk) chk).toNat =
      chk.toNat ^^^ pairs.foldr
        (fun (generator, index) rest =>
          (if b.toNat.testBit index then generator.toNat else 0) ^^^ rest)
        0 := by
  induction pairs generalizing chk with
  | nil => simp
  | cons head rest inductionHypothesis =>
      have small := few head (List.mem_cons_self ..)
      have bit : (b >>> UInt32.ofNat head.2) &&& 1 = 1 ↔
          b.toNat.testBit head.2 = true := by
        rw [← UInt32.toNat_inj, UInt32.toNat_and, UInt32.toNat_shiftRight,
          Nat.testBit_eq_decide_div_mod_eq]
        have place : (UInt32.ofNat head.2).toNat % 32 = head.2 := by
          simp
          omega
        rw [place, Nat.shiftRight_eq_div_pow]
        simp [Nat.and_one_is_mod]
      rw [List.foldl_cons, List.foldr_cons, inductionHypothesis fun pair member =>
        few pair (List.mem_cons_of_mem _ member)]
      dsimp only
      by_cases set : b.toNat.testBit head.2 = true
      · rw [if_pos (bit.mpr set), if_pos set, UInt32.toNat_xor,
          Nat.xor_assoc]
      · rw [if_neg (mt bit.mp set), if_neg set, Nat.zero_xor]

/-- `bech32_polymod_step` is the step of the checksum. -/
theorem toNat_bech32PolymodStep {value : Nat} {chk : UInt32}
    (byte : value < 2 ^ 30) :
    (bech32PolymodStep value chk).toNat =
      Polymod.step Bip173.generators chk.toNat value := by
  have low : chk.toNat &&& 0x1ffffff = chk.toNat % 2 ^ 25 :=
    Nat.and_two_pow_sub_one_eq_mod _ 25
  have small : chk.toNat % 2 ^ 25 < 2 ^ 25 := Nat.mod_lt _ (by decide)
  have shifted : ((chk &&& 0x1ffffff) <<< 5 ^^^ UInt32.ofNat value).toNat =
      (chk.toNat % 2 ^ 25) <<< 5 ^^^ value := by
    have fits : (UInt32.ofNat value).toNat = value := by
      simp
      omega
    rw [UInt32.toNat_xor, UInt32.toNat_shiftLeft, UInt32.toNat_and, fits]
    show (chk.toNat &&& 0x1ffffff) <<< 5 % 2 ^ 32 ^^^ value = _
    rw [low, Nat.mod_eq_of_lt (by rw [Nat.shiftLeft_eq]; omega)]
  have upper : (chk >>> 25).toNat = chk.toNat / 2 ^ 25 := by
    rw [UInt32.toNat_shiftRight]
    exact Nat.shiftRight_eq_div_pow ..
  unfold bech32PolymodStep
  dsimp only
  rw [toNat_foldl_generators _ _ (by decide), shifted, upper]
  unfold Polymod.step Polymod.advance
  rw [Nat.xor_assoc, Nat.xor_comm value, ← Nat.xor_assoc]
  rfl

theorem toNat_foldl_polymodStep {α : Type} (value : α -> Nat)
    {values : List α} (small : ∀ entry ∈ values, value entry < 2 ^ 30)
    (chk : UInt32) :
    (values.foldl (fun chk entry => bech32PolymodStep (value entry) chk)
      chk).toNat =
        values.foldl
          (fun chk entry => Polymod.step Bip173.generators chk (value entry))
          chk.toNat := by
  induction values generalizing chk with
  | nil => rfl
  | cons entry values inductionHypothesis =>
      rw [List.foldl_cons, List.foldl_cons, inductionHypothesis
        fun later member => small later (List.mem_cons_of_mem _ member),
        toNat_bech32PolymodStep (small entry (List.mem_cons_self ..))]

/-- The six characters of the checksum. -/
theorem bech32Checksum_eq (chk : UInt32) :
    bech32Checksum chk =
      some ((Polymod.digits chk.toNat).map Bip173.character) := by
  unfold bech32Checksum Polymod.digits
  rw [List.map_map]
  apply mapM_some
  intro index member
  have few : index < 6 := List.mem_range.mp member
  have place : (UInt32.ofNat (5 * (5 - index))).toNat % 32 =
      5 * (5 - index) := by
    simp
    omega
  have digit : (chk >>> UInt32.ofNat (5 * (5 - index)) &&& 31).toNat =
      chk.toNat / 2 ^ (5 * (5 - index)) % 2 ^ 5 := by
    rw [UInt32.toNat_and, UInt32.toNat_shiftRight, place,
      Nat.shiftRight_eq_div_pow]
    exact Nat.and_two_pow_sub_one_eq_mod _ 5
  rw [digit]
  exact base32GetChar_eq (Nat.mod_lt _ (by decide))

theorem toNat_bech32PrefixChk :
    bech32PrefixChk.toNat = Bip173.polymod (Bip173.expand bech32Prefix) := by
  decide +kernel

/-! ## Addresses -/

/-- The characters of the data of an address. -/
theorem base32Encode_twenty {address : List UInt8}
    (twenty : address.length = 20) :
    ∃ data : List Nat,
      base32Encode address = some (data.map Bip173.character) ∧
        data.length = 32 ∧ (∀ value ∈ data, value < 32) ∧
        fiveBitNumber data = beNat address := by
  obtain ⟨values, taken, length, small, number⟩ :=
    base32EncodeRaw_twenty twenty
  refine ⟨values.map UInt8.toNat, ?_, ?_, ?_, number⟩
  · unfold base32Encode
    dsimp only
    rw [taken, List.map_map]
    exact mapM_some fun value member => base32GetChar_eq (small value member)
  · rw [List.length_map, length]
  · intro value member
    obtain ⟨byte, among, rfl⟩ := List.mem_map.mp member
    exact small byte among

theorem bech32GetAddress_eq {address : List UInt8}
    (twenty : address.length = 20) :
    ∃ data checksum : List Nat,
      bech32GetAddress address =
        some (ascii "one1" ++ (data ++ checksum).map Bip173.character) ∧
      data.length = 32 ∧ checksum.length = 6 ∧
      (∀ value ∈ data ++ checksum, value < 32) ∧
      Bip173.polymod (Bip173.expand (ascii "one") ++ data ++ checksum) = 1 ∧
      fiveBitNumber data = beNat address := by
  obtain ⟨data, encodes, length, small, number⟩ := base32Encode_twenty twenty
  have decodes : (data.map Bip173.character).mapM base32GetRaw =
      some data := base32GetRaw_characters small
  let read := data.foldl (fun chk value => bech32PolymodStep value chk)
    bech32PrefixChk
  let padded := (List.range 6).foldl (fun chk _ => bech32PolymodStep 0 chk)
    read
  have below : ∀ value ∈ data, value < 2 ^ 30 :=
    fun value member => lt_trans (small value member) (by decide)
  have toNat_read : read.toNat =
      Bip173.polymod (Bip173.expand (ascii "one") ++ data) := by
    rw [show read.toNat = _ from
      toNat_foldl_polymodStep (fun value => value) below _,
      toNat_bech32PrefixChk]
    unfold Bip173.polymod
    rw [List.foldl_append]
    rfl
  have toNat_padded : padded.toNat =
      Polymod.advances Bip173.generators 6 read.toNat := by
    rw [show padded.toNat = _ from
      toNat_foldl_polymodStep (fun _ => 0) (by simp) _, Polymod.foldl_zeros]
  have small_padded : padded.toNat < 2 ^ 30 := by
    rw [toNat_padded]
    exact Polymod.advance_lt Bip173.bounded _
  refine ⟨data, Polymod.digits (padded ^^^ 1).toNat, ?_, length, by simp, ?_,
    ?_, number⟩
  · unfold bech32GetAddress
    rw [encodes]
    show (data.map Bip173.character).mapM base32GetRaw >>= _ = _
    rw [decodes]
    show bech32Checksum (padded ^^^ 1) >>= _ = _
    rw [bech32Checksum_eq, List.map_append]
    rfl
  · intro value member
    obtain early | late := List.mem_append.mp member
    · exact small value early
    · exact Polymod.lt_of_mem_digits late
  · unfold Bip173.polymod
    rw [List.foldl_append]
    show List.foldl _ (Bip173.polymod (Bip173.expand (ascii "one") ++ data))
      _ = 1
    rw [← toNat_read, UInt32.toNat_xor, toNat_padded]
    exact Polymod.foldl_checksum Bip173.generators (by decide) _
      (toNat_padded ▸ small_padded)

/-- Every address has a text, of 42 characters. -/
theorem exists_bech32GetAddress (address : Region 20) :
    ∃ text, bech32GetAddress address.toList = some text ∧
      text.length = 42 := by
  obtain ⟨data, checksum, encodes, length, six, -⟩ :=
    bech32GetAddress_eq (Region.length_toList address)
  refine ⟨_, encodes, ?_⟩
  rw [List.length_append, List.length_map, List.length_append, length, six]
  rfl

theorem regroup_of_fiveBitNumber {address : List UInt8} {data : List Nat}
    (twenty : address.length = 20)
    (number : fiveBitNumber data = beNat address) :
    regroup 20 data = address := by
  apply List.ext_getElem
  · rw [regroup, List.length_map, List.length_range, twenty]
  · intro index _ inside
    have byte := ofNat_beNat_div address inside
    rw [twenty] at byte
    simp only [regroup, List.getElem_map, List.getElem_range, number, byte]

/-- The text of an address is one of BIP-173 for its bytes, and no other
address has it. -/
theorem bech32GetAddress_faithful (address : Region 20) :
    (∃ data checksum : List Nat,
      bech32GetAddress address.toList =
        some (ascii "one1" ++ (data ++ checksum).map Bip173.character) ∧
      data.length = 32 ∧ checksum.length = 6 ∧
      (∀ value ∈ data ++ checksum, value < 32) ∧
      Bip173.polymod (Bip173.expand (ascii "one") ++ data ++ checksum) = 1 ∧
      regroup 20 data = address.toList) ∧
    ∀ other : Region 20,
      bech32GetAddress other.toList = bech32GetAddress address.toList ->
        other = address := by
  have read : ∀ bytes : Region 20, ∃ data checksum : List Nat,
      bech32GetAddress bytes.toList =
        some (ascii "one1" ++ (data ++ checksum).map Bip173.character) ∧
      data.length = 32 ∧ checksum.length = 6 ∧
      (∀ value ∈ data ++ checksum, value < 32) ∧
      Bip173.polymod (Bip173.expand (ascii "one") ++ data ++ checksum) = 1 ∧
      regroup 20 data = bytes.toList := by
    intro bytes
    have twenty : bytes.toList.length = 20 := Region.length_toList bytes
    obtain ⟨data, checksum, encodes, length, six, small, one, number⟩ :=
      bech32GetAddress_eq twenty
    exact ⟨data, checksum, encodes, length, six, small, one,
      regroup_of_fiveBitNumber twenty number⟩
  refine ⟨read address, ?_⟩
  intro other same
  obtain ⟨data, checksum, encodes, length, _, small, _, bytes⟩ := read address
  obtain ⟨data', checksum', encodes', length', _, small', _, bytes'⟩ :=
    read other
  rw [encodes, encodes'] at same
  have characters : (data' ++ checksum').map Bip173.character =
      (data ++ checksum).map Bip173.character :=
    List.append_cancel_left (Option.some.inj same)
  have decoded := base32GetRaw_characters small
  rw [← characters, base32GetRaw_characters small'] at decoded
  obtain ⟨rfl, _⟩ := List.append_inj (Option.some.inj decoded)
    (length'.trans length.symm)
  exact Region.toList_injective (bytes'.symm.trans bytes)

end LedgerOne
