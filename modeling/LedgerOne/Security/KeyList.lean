import LedgerOne.Firmware.StakingTexts
import LedgerOne.Firmware.Requests
import LedgerOne.Security.KeySummary

/-!
# The list of the keys of a new validator

Both builds show the first keys of a new validator in `fullStr`.  How many they
show is taken from `blsPubKeySize`, which the list of signatures overwrites, and
the list they are shown from may hold what longer fields before the keys have
left there.  The amount comes last, and a long one is written over all of them.
-/

namespace LedgerOne

open Rlp StakingArray

/-- The string that C reads in an array. -/
def Display.cString (display : Display build) (place : Place) : List UInt8 :=
  (display.strings.read place.start place.size).takeWhile fun byte => byte ≠ 0

theorem cString_of_holds {display : Display build} {place : Place}
    {text : List UInt8}
    (holds : display.strings.Holds place.start place.size text) :
    display.cString place = text.takeWhile fun byte => byte ≠ 0 := by
  rw [Display.cString, holds.read_whole, takeWhile_padded]

/-- What a write leaves, if it stays inside the context. -/
theorem ensures_write (display : Display build) (offset : Nat)
    (bytes : List UInt8) :
    Ensures (display.write offset bytes)
      fun after => after = display.put offset bytes := by
  by_cases fits : offset + bytes.length ≤ build.stringsSize
  · rw [Display.write_eq _ fits]
    exact Ensures.ok rfl
  · rw [Display.write, Region.write?_eq_none _ _ _ (by omega)]
    exact Ensures.error trivial

section Builds

variable (env : Env) {content : TxContent}

/-- The keys are composed in an array of their own, after all other strings of
the Nano X. -/
theorem ensures_composeValidatorNanoX (display : Display .nanoX) :
    Ensures (composeValidatorNanoX content display) fun composed =>
      composed.2 ≠ none ->
        composed.1.strings.Holds fullStr.start fullStr.size
          (shownKeys content) := by
  unfold composeValidatorNanoX
  apply Ensures.bind_any
  intro named
  apply Ensures.bind_any
  intro cleared
  apply Ensures.bind_any
  rintro ⟨rates, commission⟩
  dsimp only
  split
  · exact Ensures.pure fun some => absurd rfl some
  apply Ensures.bind_any
  rintro ⟨owned, amount⟩
  dsimp only
  split
  · exact Ensures.pure fun some => absurd rfl some
  apply Ensures.bind_any
  intro least
  apply Ensures.bind_any
  intro most
  apply Ensures.bind_any
  intro limits
  apply Ensures.bind_any
  rintro ⟨limited, delegation⟩
  dsimp only
  split
  · exact Ensures.pure fun some => absurd rfl some
  have keys := length_shownKeys content
  let blank := limited.put SignStaking.fullStr (List.replicate 132 0)
  have composed : blank.write SignStaking.fullStr (shownKeys content) =
      .ok (blank.put SignStaking.fullStr (shownKeys content)) :=
    blank.write_eq (by
      show 32 + (shownKeys content).length ≤ 736
      omega)
  rw [Display.clear_eq _ (by decide), bind_ok, composed, bind_ok]
  apply Ensures.pure
  intro _
  have cleared : blank.strings.Holds fullStr.start fullStr.size [] :=
    Region.Holds.cleared limited.strings (by decide)
  exact cleared.write (by
    show (shownKeys content).length ≤ 132
    omega) (by decide)

/-- A write behind an array leaves its text. -/
theorem ensures_write_behind {display : Display build} {place : Place}
    {text : List UInt8}
    (holds : display.strings.Holds place.start place.size text)
    {offset : Nat} (behind : place.start + place.size ≤ offset)
    (bytes : List UInt8) :
    Ensures (display.write offset bytes) fun after =>
      after.strings.Holds place.start place.size text :=
  (ensures_write display offset bytes).mono (by
    rintro after rfl
    exact holds.frame _ _ (Or.inl behind)) fun _ => id

/-- The name and the status are shown behind the keys. -/
theorem ensures_showName {display : Display .nanoX} {text : List UInt8}
    (holds : display.strings.Holds fullStr.start fullStr.size text) :
    Ensures (showName content display) fun after =>
      after.strings.Holds fullStr.start fullStr.size text := by
  unfold showName
  apply Ensures.bind_any
  intro length
  apply Ensures.ite
  · intro _
    exact ensures_write_behind holds (by decide) _
  · intro _
    have copied : Ensures (copyName SignStaking.nameStr content display)
        fun copied => copied.1.strings.Holds fullStr.start fullStr.size text := by
      apply Ensures.bind_any
      intro length
      apply Ensures.bind (ensures_write_behind holds (by decide) _)
      intro named holds
      exact Ensures.pure holds
    apply Ensures.bind copied
    intro copied holds
    exact Ensures.pure holds

theorem ensures_showStatusNanoX {display : Display .nanoX} {text : List UInt8}
    (holds : display.strings.Holds fullStr.start fullStr.size text) :
    Ensures (showStatusNanoX content display) fun after =>
      after.strings.Holds fullStr.start fullStr.size text := by
  unfold showStatusNanoX
  apply Ensures.ite
  · intro _
    exact ensures_write_behind holds (by decide) _
  · intro _
    exact Ensures.ok holds

/-- The review of the Nano X shows the keys that were composed. -/
theorem ensures_reviewStakingNanoX
    (creates : content.directive = DirectiveCreateValidator)
    (device : Device .nanoX) {ctx : Ctx .nanoX}
    (keeps : ctx.txContent = content) :
    Ensures (reviewStakingNanoX env device ctx) fun outcome =>
      outcome.thrown = none ->
        outcome.device.ctx.display.strings.Holds fullStr.start fullStr.size
          (shownKeys content) := by
  subst keeps
  unfold reviewStakingNanoX
  apply Ensures.bind_any
  intro cleared
  unfold composeNanoX
  rw [if_pos (Or.inl creates)]
  apply Ensures.bind (ensures_composeValidatorNanoX cleared)
  rintro ⟨composed, ends⟩ holds
  dsimp only at holds ⊢
  split
  · exact Ensures.pure fun raised => by cases raised
  · next shown =>
    apply Ensures.bind (ensures_showName (holds shown))
    intro named holds
    apply Ensures.bind (ensures_showStatusNanoX holds)
    intro finished holds
    exact Ensures.pure fun _ => holds

/-- Going on from the delegation, the Nano S shows the keys. -/
theorem delegationRateButton_shows (device : Device .nanoS)
    (keeps : device.ctx.txContent = content) :
    ∃ outcome, delegationRateButton env device .releasedBoth = .ok outcome ∧
      outcome.device.screen = .blsKeys ∧
      outcome.device.ctx.display.strings.Holds fullStr.start fullStr.size
        (shownKeys content) := by
  subst keeps
  have keys := length_shownKeys device.ctx.txContent
  have room : SignStaking.fullStr + 132 ≤ Build.nanoS.stringsSize := by decide
  let blank := device.ctx.display.put SignStaking.fullStr
    (List.replicate 132 0)
  let shown := blank.put SignStaking.fullStr (shownKeys device.ctx.txContent)
  have composed : blank.write (SignStaking.fullStr + 0)
      (shownKeys device.ctx.txContent) = .ok shown :=
    blank.write_eq (by omega)
  have cleared : blank.strings.Holds fullStr.start fullStr.size [] :=
    Region.Holds.cleared device.ctx.display.strings (by decide)
  have holds : shown.strings.Holds fullStr.start fullStr.size
      (shownKeys device.ctx.txContent) :=
    cleared.write (by
      show (shownKeys device.ctx.txContent).length ≤ 132
      omega) (by decide)
  let counted := shown.put (SignStaking.fullStrLength .nanoS)
    (uint32Bytes (0 + (shownKeys device.ctx.txContent).length)).toList
  let windowed := counted.put (SignStaking.partialStr .nanoS)
    (counted.strings.read SignStaking.fullStr 12)
  refine ⟨device.proceed { device.ctx with display := windowed } .blsKeys, ?_,
    rfl, ?_⟩
  · unfold delegationRateButton scrollFullStr
    dsimp only
    rw [Display.clear_eq _ (by decide), bind_ok, appendText, composed,
      bind_ok]
    rw [pure_bind, finishText, Display.putUint32_eq _ _ (by decide), bind_ok,
      Display.copy_eq _ (by decide) (by decide), bind_ok]
    rfl
  · have still := holds.frame (SignStaking.fullStrLength .nanoS)
      (uint32Bytes (0 + (shownKeys device.ctx.txContent).length)).toList
      (Or.inl (by decide))
    exact still.frame (SignStaking.partialStr .nanoS) _ (Or.inl (by decide))

end Builds

/-- The string of the keys that both builds show: the Nano S on its screen for
the keys, the Nano X in a review that is raised. -/
structure ShowsKeys (content : TxContent) (text : List UInt8) : Prop where
  nanoS : ∀ (env : Env) (device : Device .nanoS),
    device.ctx.txContent = content ->
    ∃ outcome, delegationRateButton env device .releasedBoth = .ok outcome ∧
      outcome.device.screen = .blsKeys ∧
      outcome.device.ctx.display.cString fullStr = text
  nanoX : ∀ (env : Env) (device : Device .nanoX) (ctx : Ctx .nanoX) outcome,
    ctx.txContent = content ->
    reviewStakingNanoX env device ctx = .ok outcome ->
    outcome.thrown = none ->
    outcome.device.ctx.display.cString fullStr = text

theorem showsKeys_iff {content : TxContent}
    (creates : content.directive = DirectiveCreateValidator)
    (text : List UInt8) :
    ShowsKeys content text ↔
      (shownKeys content).takeWhile (fun byte => byte ≠ 0) = text := by
  constructor
  · intro shows
    let device : Device .nanoS :=
      { ctx := { txContext := { content := content } } }
    obtain ⟨outcome, goesOn, -, seen⟩ := shows.nanoS (.ofTables [] []) device rfl
    obtain ⟨other, same, -, holds⟩ := delegationRateButton_shows
      (.ofTables [] []) device (rfl : device.ctx.txContent = content)
    rw [goesOn, Except.ok.injEq] at same
    subst same
    rw [← seen, cString_of_holds holds]
  · rintro rfl
    constructor
    · intro env device keeps
      obtain ⟨outcome, goesOn, screen, holds⟩ :=
        delegationRateButton_shows env device keeps
      exact ⟨outcome, goesOn, screen, cString_of_holds holds⟩
    · intro env device ctx outcome keeps returns raised
      exact cString_of_holds ((ensures_reviewStakingNanoX env creates device
        keeps).value _ returns raised)

/-! ## New validators -/

theorem zero_not_mem_keysText (keys : List (List UInt8)) :
    0 ∉ keysText keys := by
  intro member
  obtain ⟨key, -, shown⟩ := List.mem_flatMap.mp member
  obtain digit | dot := List.mem_append.mp shown
  · exact zero_not_mem_hexText _ digit
  · exact absurd dot (by decide)

theorem length_keysText {keys : List (List UInt8)}
    (whole : ∀ key ∈ keys, key.length = 48) :
    (keysText keys).length = 13 * keys.length := by
  induction keys with
  | nil => rfl
  | cons key keys inductionHypothesis =>
      have long := whole key (by simp)
      have rest := inductionHypothesis fun other member =>
        whole other (List.mem_cons_of_mem _ member)
      rw [keysText_cons, List.length_append, length_keyText (by
        rw [List.length_take]
        omega), rest, List.length_cons]
      omega

theorem length_keysText_take {keys : List (List UInt8)}
    (whole : ∀ key ∈ keys, key.length = 48) :
    (keysText (keys.take 10)).length = 13 * min 10 keys.length := by
  have first : ∀ key ∈ keys.take 10, key.length = 48 :=
    fun key member => whole key (List.mem_of_mem_take member)
  rw [length_keysText first, List.length_take]

/-- A new validator that is accepted, with whole keys and signatures. -/
structure AcceptedCreate (build : Build) extends AcceptedStaking build where
  keys : List (List UInt8)
  signatures : List (List UInt8)
  amount : List UInt8
  payloads_keys : payloads .blspubkey toAcceptedStaking.visits = keys
  payloads_signatures :
    payloads .blssignature toAcceptedStaking.visits = signatures
  payloads_amount : payloads .amount toAcceptedStaking.visits = [amount]
  some_keys : keys ≠ []
  length_keys : ∀ key ∈ keys, key.length = 48
  length_signatures : ∀ signature ∈ signatures, signature.length = 96

/-- Both builds review a new validator and show its first ten keys.  They take
the number of keys as an `int`, and of a negative one they copy past the end of
all memory. -/
structure ListsKeys (message : AcceptedCreate build) : Prop where
  creates : message.left.content.directive = DirectiveCreateValidator
  counted : message.left.content.blsPubKeySize < 2 ^ 31
  shows : ShowsKeys message.left.content (keysText (message.keys.take 10))

namespace AcceptedCreate

variable (message : AcceptedCreate build)

/-- The text for the keys that are to be shown. -/
def text : List UInt8 := keysText (message.keys.take 10)

/-- The byte that earlier fields leave in the list, which starts at byte 368 of
the content, behind the text. -/
def leftBehind : UInt8 :=
  leftAt (opening message.visits) (368 + 13 * message.keys.length)

/-- The number of signatures where the amount, from byte 66 of the content on,
does not cover it. -/
def count : Nat := pokeUint32 364 66 message.amount message.signatures.length

/-- There are signatures for the keys that are to be shown, and no more than
there are keys, unless a NUL is left behind the keys. -/
structure Counts : Prop where
  enough : min 10 message.keys.length ≤ message.signatures.length
  ends : message.keys.length < 10 ->
    message.keys.length < message.signatures.length ->
    message.leftBehind = 0

/-- What a long amount leaves of the directive, the number of keys and their
list will do as well. -/
structure Covers : Prop where
  creates : pokeUint32 272 66 message.amount DirectiveCreateValidator =
    DirectiveCreateValidator
  counted : message.count < 2 ^ 31
  enough : min 10 message.keys.length ≤ message.count
  spares : covered 66 message.amount 368 message.text = message.text
  ends : message.keys.length < 10 -> message.keys.length < message.count ->
    byteAfter 66 message.amount (368 + 13 * message.keys.length)
      message.leftBehind = 0

/-! ## What is left of the keys -/

theorem length_text : message.text.length = 13 * min 10 message.keys.length :=
  length_keysText_take message.length_keys

end AcceptedCreate

/-- The amount is written over the keys, their number and the directive as far
as it reaches. -/
theorem Slots.pokedContent_eq (slots : Slots) {content : TxContent}
    (creates : content.directive = DirectiveCreateValidator)
    (whole : ∀ key ∈ slots.keys, key.length = 48) :
    (slots.pokedContent content).directive =
        pokeUint32 272 66 slots.amountBytes DirectiveCreateValidator ∧
      (slots.pokedContent content).blsPubKeySize =
        pokeUint32 364 66 slots.amountBytes slots.signatures.length ∧
      (slots.pokedContent content).blsKeyStr =
        (content.blsKeyStr.splice 0
          (keysText (slots.keys.take 10))).overlay 368 66
            slots.amountBytes := by
  have shown : (showKeys slots.keys 0 (Staking.setKeyCount slots.keys.length
      content)).blsKeyStr =
      content.blsKeyStr.splice 0 (keysText (slots.keys.take 10)) :=
    blsKeyStr_showKeys whole 0 _
  have kept : (showKeys slots.keys 0 (Staking.setKeyCount slots.keys.length
      content)).directive = content.directive := directive_showKeys _ _ _
  rw [← creates, ← shown, ← kept]
  unfold Slots.pokedContent Slot.pokeFinalInt
  split <;> exact ⟨rfl, rfl, rfl⟩

namespace AcceptedCreate

/-- What a new validator that is accepted leaves of its keys. -/
theorem exists_content (message : AcceptedCreate build) :
    ∃ content : TxContent, Untouched (opening message.visits) content ∧
      message.left.content.directive =
        pokeUint32 272 66 message.amount DirectiveCreateValidator ∧
      message.left.content.blsPubKeySize = message.count ∧
      message.left.content.blsKeyStr =
        (content.blsKeyStr.splice 0 message.text).overlay 368 66
          message.amount := by
  obtain ⟨slots, content, untouched, creates, value, keys, signatures,
    amount⟩ := exists_slots message.path
      (by rw [message.payloads_keys]; exact message.some_keys)
      (by rw [message.payloads_keys]; exact message.length_keys)
  rw [message.payloads_keys] at keys
  rw [message.payloads_signatures] at signatures
  rw [message.payloads_amount, List.singleton_inj] at amount
  have whole : ∀ key ∈ slots.keys, key.length = 48 := by
    rw [← keys]
    exact message.length_keys
  have left := slots.pokedContent_eq creates whole
  rw [← value, ← keys, ← signatures, ← amount] at left
  exact ⟨content, untouched, left⟩

/-- The string that is shown is the text of the keys exactly if it is as long,
and the amount does not change it. -/
theorem takeWhile_shownKeys_iff (message : AcceptedCreate build)
    (creates : message.left.content.directive = DirectiveCreateValidator) :
    (shownKeys message.left.content).takeWhile (fun byte => byte ≠ 0) =
        message.text ↔
      min 10 message.keys.length ≤ message.count ∧
        covered 66 message.amount 368 message.text = message.text ∧
        (message.keys.length < 10 -> message.keys.length < message.count ->
          byteAfter 66 message.amount (368 + 13 * message.keys.length)
            message.leftBehind = 0) := by
  obtain ⟨content, untouched, -, count, list⟩ := message.exists_content
  have length := message.length_text
  have proper : 0 ∉ message.text := zero_not_mem_keysText _
  have text : (content.blsKeyStr.splice 0 message.text).read 0
      message.text.length = message.text :=
    Region.read_splice_self _ 0 _ (by omega)
  have most : (if message.count > 10 then 10 else message.count) =
      min 10 message.count := by
    split <;> omega
  unfold shownKeys
  dsimp only
  rw [if_pos creates, count, most,
    Region.takeWhile_read_iff _ proper, list,
    Region.read_overlay _ (by omega), text, Nat.add_zero]
  refine and_congr (by omega) (and_congr_right' ?_)
  have behind (few : message.keys.length < 10) :
      ((content.blsKeyStr.splice 0 message.text).overlay 368 66
        message.amount).get message.text.length =
        byteAfter 66 message.amount (368 + 13 * message.keys.length)
          message.leftBehind := by
    have here : message.text.length = 13 * message.keys.length := by omega
    have beyond : (content.blsKeyStr.splice 0 message.text).get
        (13 * message.keys.length) = message.leftBehind := by
      rw [Region.get_splice _ _ _ _ (by omega), if_neg (by omega)]
      exact untouched.list _ (by omega)
    rw [here, Region.get_overlay _ _ _ _ _ (by omega), beyond]
    rfl
  constructor
  · intro ends few fewer
    rw [← behind few]
    exact ends (by omega)
  · intro ends inside
    have few : message.keys.length < 10 := by omega
    rw [behind few]
    exact ends few (by omega)

end AcceptedCreate

theorem listsKeys_iff_covers (message : AcceptedCreate build) :
    ListsKeys message ↔ message.Covers := by
  obtain ⟨content, -, directive, count, -⟩ := message.exists_content
  constructor
  · intro lists
    obtain ⟨enough, spares, ends⟩ :=
      (message.takeWhile_shownKeys_iff lists.creates).mp
        ((showsKeys_iff lists.creates _).mp lists.shows)
    exact ⟨directive ▸ lists.creates, count ▸ lists.counted, enough, spares,
      ends⟩
  · intro covers
    have creates : message.left.content.directive =
        DirectiveCreateValidator := directive.trans covers.creates
    exact ⟨creates, count ▸ covers.counted, (showsKeys_iff creates _).mpr
      ((message.takeWhile_shownKeys_iff creates).mpr
        ⟨covers.enough, covers.spares, covers.ends⟩)⟩

/-- There are no more signatures than items that are visited. -/
theorem AcceptedCreate.length_signatures_le (message : AcceptedCreate build) :
    message.signatures.length ≤ 1088 := by
  have visited := @length_stakingVisits_le (.joined build.stringsSize)
    message.buf (stakingStart message.bytes.length)
  have fits := message.received.fits
  have less : (payloads .blssignature message.visits).length ≤
      message.visits.length := by
    rw [payloads, List.length_map]
    exact List.length_filter_le _ _
  rw [message.payloads_signatures] at less
  have most : message.visits.length ≤ message.bytes.length + 64 := visited
  omega

/-- An amount that ends before the directive, 206 bytes behind its start, covers
nothing. -/
theorem covers_iff_counts {message : AcceptedCreate build}
    (short : message.amount.length ≤ 206) :
    message.Covers ↔ message.Counts := by
  have directive : pokeUint32 272 66 message.amount DirectiveCreateValidator =
      DirectiveCreateValidator := pokeUint32_of_disjoint (Or.inr (by omega))
  have count : message.count = message.signatures.length :=
    pokeUint32_of_disjoint (Or.inr (by omega))
  have text : covered 66 message.amount 368 message.text = message.text :=
    covered_of_disjoint (by omega)
  have behind : byteAfter 66 message.amount (368 + 13 * message.keys.length)
      message.leftBehind = message.leftBehind :=
    byteAfter_of_disjoint (Or.inr (by omega))
  have most := message.length_signatures_le
  constructor
  · intro covers
    have ends := covers.ends
    rw [count, behind] at ends
    exact ⟨count ▸ covers.enough, ends⟩
  · intro counts
    refine ⟨directive, by omega, count ▸ counts.enough, text, ?_⟩
    rw [count, behind]
    exact counts.ends

/-- A new validator at an address, with its keys and signatures. -/
def newValidator (validator : List UInt8)
    (keys signatures : List (List UInt8)) : List UInt8 :=
  (Item.list [
    .number DirectiveCreateValidator,
    .list [
      .string validator,
      .list [.string (ascii "Alice"), .string [], .string [], .string [],
        .string []],
      .list [.list [.number 1], .list [.number 2], .list [.number 1]],
      .number 1,
      .number 2,
      .list (keys.map .string),
      .list (signatures.map .string),
      .number 1]]).encode

/-- Two keys and one signature. -/
def oneSignature : List UInt8 :=
  newValidator (List.replicate 20 0x5b)
    [List.replicate 48 0xaa, List.replicate 48 0xbb] [List.replicate 96 0xcc]

/-- One key and two signatures, behind an address of 98 bytes. -/
def longAddress : List UInt8 :=
  newValidator (List.replicate 98 0x5b) [List.replicate 48 0xaa]
    [List.replicate 96 0xcc, List.replicate 96 0xdd]

/-- A new validator that is seen to be accepted. -/
theorem exists_acceptedCreate {bytes amount : List UInt8}
    {keys signatures : List (List UInt8)} (fits : bytes.length ≤ 1024)
    (sees : (processStakingIn build.stringsSize (Region.ofList bytes)
      (stakingStart bytes.length)).toOption.map Prod.fst = some 0)
    (listed : payloads .blspubkey (stakingVisitsIn build.stringsSize
      (Region.ofList bytes) (stakingStart bytes.length)) = keys)
    (signed : payloads .blssignature (stakingVisitsIn build.stringsSize
      (Region.ofList bytes) (stakingStart bytes.length)) = signatures)
    (ends : payloads .amount (stakingVisitsIn build.stringsSize
      (Region.ofList bytes) (stakingStart bytes.length)) = [amount])
    (some : keys ≠ []) (wholeKeys : ∀ key ∈ keys, key.length = 48)
    (wholeSignatures : ∀ signature ∈ signatures, signature.length = 96) :
    ∃ message : AcceptedCreate build, message.buf = Region.ofList bytes ∧
      message.bytes = bytes ∧ message.keys = keys ∧
      message.signatures = signatures ∧ message.amount = amount := by
  obtain ⟨⟨code, left⟩, returns, rfl⟩ := exists_of_view Prod.fst sees
  exact ⟨⟨⟨_, bytes, left, received_ofList fits, returns⟩, keys, signatures,
    amount, listed, signed, ends, some, wholeKeys, wholeSignatures⟩, rfl, rfl,
    rfl, rfl, rfl⟩

end LedgerOne
