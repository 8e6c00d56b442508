import LedgerOne.Firmware.TransferReview
import LedgerOne.Messages.Transfer

/-!
# The writes of a transfer's review

The array `toAddr` has room for the 42 characters of an address, but
`bech32_get_address` also writes the NUL behind them.  On the Nano X every
review makes this write, on the Nano S every review that is taken up.  No other
write of a review leaves its array.
-/

namespace LedgerOne

/-! ## Recording the writes -/

/-- The writes of a press. -/
def pressWrites (env : Env) :
    (build : Build) -> Device build -> Press -> Device build -> List Write
  | .nanoS, device, press, next =>
      writesOf (transferOperations env device.ctx device.screen press next.ctx)
        device.ctx.display
  | .nanoX, device, press, _ =>
      if device.screen = .approvalTxFlow ∧ press = .accept then
        writesOf [.put TransferArray.hash 0 (env.keccak device.ctx.message)]
          device.ctx.display
      else []

/-- The packet with which a message of a transfer is finished. -/
def FinishesTransfer (apdu : Apdu) (ctx : Ctx build) : Prop :=
  apdu.signing = some .tx ∧ apdu.p2 = P2_FINISH ∧
    ¬Signing.tx.Refused apdu ctx

instance (apdu : Apdu) (ctx : Ctx build) :
    Decidable (FinishesTransfer apdu ctx) :=
  inferInstanceAs (Decidable (_ ∧ _ ∧ _))

/-- The writes of a step into the strings of a transfer's review. -/
def transferWrites (env : Env) (build : Build) (device : Device build)
    (event : Event) (next : Device build) : List Write :=
  match event with
  | .press press => pressWrites env build device press next
  | .apdu apdu =>
      if FinishesTransfer apdu device.ctx then
        writesOf (reviewTxOperations build next.ctx.txContent)
          (Signing.tx.finished apdu device.ctx).display
      else []

/-- The application, with all the writes of transfer reviews. -/
def recordingTransfers (env : Env) (build : Build) :
    Machine Fault (Device build × List Write) Event Effect :=
  (firmware env build).watch fun written device event next =>
    written ++ transferWrites env build device event next

/-! ## Which writes stay inside -/

/-- The write of `bech32_get_address` into `toAddr`. -/
def addressWrite (address : Region 20) : Write :=
  ⟨TransferArray.toAddr, 0, addressText address ++ [0]⟩

theorem not_inside_addressWrite (address : Region 20) :
    ¬(addressWrite address).Inside := by
  have length := length_addressText address
  show ¬0 + (addressText address ++ [0]).length ≤ 42
  rw [List.length_append, List.length_singleton]
  omega

section Inside

open TransferArray

variable (env : Env) {content : TxContent} {ctx : Ctx .nanoS}

theorem stays_shardText (content : TxContent) :
    (.put shardStr 0 (shardText content) : Operation build).Stays := by
  have short := length_shardText content
  exact Operation.stays_put (by rwa [Nat.zero_add])

theorem stays_hash (bytes : List UInt8) :
    (.put hash 0 (env.keccak bytes) : Operation build).Stays :=
  Operation.stays_put (by
    rw [env.length_keccak]
    decide)

/-- Every write of a press stays inside, unless the press takes up the
review. -/
theorem stays_transferOperations {screen : Screen} (press : Press)
    (next : Ctx .nanoS) (stage : TransferStage content ctx screen)
    (short : content.value.length.toNat ≤ 32)
    (other : ¬(screen = .signTxApprove ∧ press = .releasedRight)) :
    ∀ operation ∈ transferOperations env ctx screen press next,
      operation.Stays := by
  intro operation member
  unfold transferOperations at member
  split at member
  next => exact absurd ⟨rfl, rfl⟩ other
  next =>
    obtain rfl := List.mem_singleton.mp member
    exact Operation.stays_copy (by decide)
  next =>
    obtain rfl := List.mem_singleton.mp member
    exact Operation.stays_copy (by decide)
  next =>
    obtain rfl | windowed := List.mem_cons.mp member
    · exact Operation.stays_amount (stage.keeps ▸ short) (by decide)
        (by decide)
    · obtain rfl := List.mem_singleton.mp windowed
      exact Operation.stays_window (by decide)
  next =>
    obtain rfl := List.mem_singleton.mp member
    exact Operation.stays_copy (le_trans (Nat.min_le_left _ _) (by decide))
  next =>
    obtain rfl := List.mem_singleton.mp member
    exact Operation.stays_copy (le_trans (Nat.min_le_left _ _) (by decide))
  next =>
    obtain rfl := List.mem_singleton.mp member
    exact stays_shardText _
  next =>
    obtain rfl := List.mem_singleton.mp member
    exact stays_shardText _
  next =>
    obtain rfl := List.mem_singleton.mp member
    exact stays_hash env _
  next => cases member

/-- Of the writes that take up the review only the one of the address leaves
its array. -/
theorem inside_takesUp {next : Ctx .nanoS} {write : Write}
    (member : write ∈ writesOf (transferOperations env ctx .signTxApprove
      .releasedRight next) ctx.display) :
    write.Inside ∨ write = addressWrite next.txContent.destination := by
  obtain rfl | later := List.mem_cons.mp member
  · exact Or.inr rfl
  · refine Or.inl (stays_writesOf
      [.copy partialAddrStr SignTxn.toAddr 12, .put partialAddrStr 12 [0]]
      ?_ _ write later)
    intro operation listed
    obtain rfl | ended := List.mem_cons.mp listed
    · exact Operation.stays_copy (by decide)
    · obtain rfl := List.mem_singleton.mp ended
      exact Operation.stays_put (by decide)

end Inside

/-! ## Runs -/

/-- The first press that a waiting review reacts to takes it up. -/
def takesUp : List Press -> Bool
  | [] => false
  | .releasedRight :: _ => true
  | .releasedLeft :: _ => false
  | _ :: rest => takesUp rest

/-- The presses go through without a fault, and what they write is what they
leave and meets a condition. -/
def PressesWrite (env : Env) (device : Device build) (presses : List Press)
    (post : List Write -> Prop) : Prop :=
  ∀ written, ∃ last more outputs,
    (recordingTransfers env build).run (presses.map .press) (device, written) =
      .ok ((last, written ++ more), outputs) ∧
    last.ctx.display.strings = (device.ctx.display.performed more).strings ∧
    post more

section Runs

variable (env : Env) {content : TxContent}

theorem pressesWrite_nil (device : Device build) {post : List Write -> Prop}
    (nothing : post []) : PressesWrite env device [] post := by
  intro written
  refine ⟨device, [], [], ?_, rfl, nothing⟩
  rw [List.append_nil]
  rfl

/-- One press, and then the others. -/
theorem pressesWrite_cons {device : Device build} {press : Press}
    {rest : List Press} (outcome : Outcome build) {post : List Write -> Prop}
    (presses : pressed env build device press = .ok outcome)
    (leaves : outcome.device.ctx.display.strings =
      (device.ctx.display.performed (pressWrites env build device press
        outcome.caught.1)).strings)
    (continues : PressesWrite env outcome.caught.1 rest fun more =>
      post (pressWrites env build device press outcome.caught.1 ++ more)) :
    PressesWrite env device (press :: rest) post := by
  intro written
  have steps : (firmware env build).step device (.press press) =
      .ok (outcome.caught.1, outcome.caught.2) := step_of_pressed press presses
  obtain ⟨last, more, outputs, runs, left, meets⟩ := continues
    (written ++ pressWrites env build device press outcome.caught.1)
  have recorded := Machine.run_step (Machine.step_watch _ _ steps) runs
  rw [List.append_assoc] at recorded
  refine ⟨last, _, _, recorded, ?_, meets⟩
  rw [left, performed_append, caught_ctx]
  exact performed_congr leaves more

theorem PressesWrite.mono {env : Env} {device : Device build}
    {presses : List Press} {post weaker : List Write -> Prop}
    (writes : PressesWrite env device presses post)
    (implies : ∀ written, post written -> weaker written) :
    PressesWrite env device presses weaker := by
  intro written
  obtain ⟨last, more, outputs, runs, left, meets⟩ := writes written
  exact ⟨last, more, outputs, runs, left, implies more meets⟩

/-- Once the review is taken up, every write stays inside. -/
theorem pressesWrite_takenUp (short : content.value.length.toNat ≤ 32)
    (presses : List Press) (device : Device .nanoS)
    (stage : TransferStage content device.ctx device.screen)
    (later : device.screen ≠ .signTxApprove) :
    PressesWrite env device presses fun more =>
      ∀ write ∈ more, write.Inside := by
  induction presses generalizing device with
  | nil => exact pressesWrite_nil env device (by simp)
  | cons press rest inductionHypothesis =>
      obtain ⟨outcome, presses, step⟩ :=
        pressed_transferStep env device.io device.screen stage short press
      have stays := stays_writesOf _ (stays_transferOperations env press
        outcome.caught.1.ctx stage short fun first => later first.1)
        device.ctx.display
      apply pressesWrite_cons env outcome presses (by
        simpa [pressWrites] using step.writes)
      apply (inductionHypothesis outcome.caught.1 (by simpa using step.stage)
        (by simpa using fun waits => later (step.waits waits))).mono
      intro more inside write member
      obtain first | others := List.mem_append.mp member
      · exact stays write first
      · exact inside write others

/-- The writes of a review stay inside their arrays exactly if it is never
taken up, and otherwise only the address leaves its array. -/
def OnlyAddressLeaves (build : Build) (content : TxContent)
    (presses : List Press) (written : List Write) : Prop :=
  ((∀ write ∈ written, write.Inside) ↔
      build = .nanoS ∧ takesUp presses = false) ∧
    ∀ write ∈ written,
      write.Inside ∨ write = addressWrite content.destination

/-- A review that waits is taken up, rejected, or goes on waiting. -/
theorem pressesWrite_waiting (short : content.value.length.toNat ≤ 32)
    (presses : List Press) {ctx : Ctx .nanoS} {io : Region 260}
    (parses : ctx.Parses content) :
    PressesWrite env (⟨ctx, .signTxApprove, io⟩ : Device .nanoS) presses
      (OnlyAddressLeaves .nanoS content presses) := by
  induction presses with
  | nil => exact pressesWrite_nil env _ ⟨by simp [takesUp], by simp⟩
  | cons press rest inductionHypothesis =>
      cases press with
      | releasedLeft =>
          refine pressesWrite_cons env (Device.reject
            ⟨ctx, .signTxApprove, io⟩) rfl rfl ?_
          have idle : PressesWrite env (Device.reject
              (⟨ctx, .signTxApprove, io⟩ : Device .nanoS)).caught.1 rest fun more =>
                ∀ write ∈ more, write.Inside :=
            pressesWrite_takenUp env short rest _
              (show TransferStage content ctx .idle from trivial)
              (fun waits => by cases waits)
          apply idle.mono
          intro more inside
          exact ⟨iff_of_true inside ⟨rfl, rfl⟩, fun write member =>
            Or.inl (inside write member)⟩
      | releasedRight =>
          obtain ⟨outcome, presses, screen, keeps, step⟩ :=
            signTxApprove_takesUp env io parses
          refine pressesWrite_cons env outcome presses (by
            simpa [pressWrites] using step.writes) ?_
          have later := pressesWrite_takenUp env short rest
            outcome.caught.1 (by simpa using step.stage)
            (by
              rw [caught_screen, screen]
              decide)
          apply later.mono
          intro more inside
          have named : outcome.caught.1.ctx.txContent = content := by
            rw [caught_ctx, keeps]
          refine ⟨iff_of_false ?_ fun both => Bool.noConfusion both.2, ?_⟩
          · intro all
            refine not_inside_addressWrite content.destination (all _ ?_)
            rw [← named]
            exact List.mem_append_left _ (List.mem_cons_self ..)
          · intro write member
            obtain first | others := List.mem_append.mp member
            · exact named ▸ inside_takesUp env first
            · exact Or.inl (inside write others)
      | _ =>
          exact pressesWrite_cons env
            { device := ⟨ctx, .signTxApprove, io⟩ } rfl rfl
            inductionHypothesis

/-- The presses on the flow of a transfer, and on the main menu. -/
theorem pressed_nanoX_transfer (device : Device .nanoX)
    (screen : device.screen = .approvalTxFlow ∨ device.screen = .idle)
    (press : Press) :
    ∃ outcome, pressed env .nanoX device press = .ok outcome ∧
      (outcome.device.screen = .approvalTxFlow ∨
        outcome.device.screen = .idle) ∧
      outcome.device.ctx.display.strings =
        (device.ctx.display.performed (pressWrites env .nanoX device press
          outcome.caught.1)).strings := by
  obtain ⟨ctx, current, io⟩ := device
  dsimp only at screen
  obtain rfl | rfl := screen
  · cases press with
    | accept =>
        have stores : ctx.display.write SignTxn.hash
            (env.keccak ctx.message) =
              .ok (ctx.display.put SignTxn.hash (env.keccak ctx.message)) :=
          ctx.display.write_eq (by
            rw [env.length_keccak]
            decide)
        exact ⟨_, congrArg (· >>= _) stores, Or.inr rfl, rfl⟩
    | cancel => exact ⟨_, rfl, Or.inr rfl, rfl⟩
    | _ => exact ⟨_, rfl, Or.inl rfl, rfl⟩
  · exact ⟨_, rfl, Or.inr rfl, rfl⟩

/-- On the Nano X the presses write nothing but the hash. -/
theorem pressesWrite_nanoX (presses : List Press) (device : Device .nanoX)
    (screen : device.screen = .approvalTxFlow ∨ device.screen = .idle) :
    PressesWrite env device presses fun more =>
      ∀ write ∈ more, write.Inside := by
  induction presses generalizing device with
  | nil => exact pressesWrite_nil env device (by simp)
  | cons press rest inductionHypothesis =>
      obtain ⟨outcome, presses, stays, leaves⟩ :=
        pressed_nanoX_transfer env device screen press
      apply pressesWrite_cons env outcome presses leaves
      apply (inductionHypothesis outcome.caught.1 (by simpa using stays)).mono
      intro more inside write member
      obtain first | others := List.mem_append.mp member
      · unfold pressWrites at first
        dsimp only at first
        split at first
        · refine stays_writesOf [.put TransferArray.hash 0
            (env.keccak device.ctx.message)] ?_ _ write first
          intro operation listed
          obtain rfl := List.mem_singleton.mp listed
          exact stays_hash env _
        · cases first
      · exact inside write others

end Runs

/-- The writes of a finished message and of the presses that follow. -/
theorem run_review (env : Env) {device opened : Device build}
    {front : List Apdu} {last : Apdu} {replies : List Effect}
    {outcome : Outcome build}
    (quiet : ∀ apdu ∈ front, apdu.p2 ≠ P2_FINISH)
    (runs : (firmware env build).run (front.map .apdu) device =
      .ok (opened, replies))
    (steps : (firmware env build).step opened (.apdu last) =
      .ok (outcome.caught.1, outcome.caught.2))
    (finishing : FinishesTransfer last opened.ctx)
    (leaves : outcome.device.ctx.display.strings =
      ((Signing.tx.finished last opened.ctx).display.performed
        (writesOf (reviewTxOperations build outcome.device.ctx.txContent)
          (Signing.tx.finished last opened.ctx).display)).strings)
    {presses : List Press} (post : List Write -> Prop)
    (writes : PressesWrite env outcome.caught.1 presses fun more =>
      post (writesOf (reviewTxOperations build outcome.device.ctx.txContent)
        (Signing.tx.finished last opened.ctx).display ++ more)) :
    ∃ reviewed writes outputs,
      (recordingTransfers env build).run
          ((front ++ [last]).map .apdu ++ presses.map .press) (device, []) =
        .ok ((reviewed, writes), outputs) ∧
      reviewed.ctx.display.strings =
        ((Signing.tx.finished last opened.ctx).display.performed
          writes).strings ∧
      post writes := by
  have begins := Machine.run_watch_quiet (fun written device event next =>
      written ++ transferWrites env build device event next) []
    (fun event member before after => by
      obtain ⟨apdu, listed, rfl⟩ := List.mem_map.mp member
      exact if_neg fun finishes => quiet apdu listed finishes.2.1) runs
  have finished : transferWrites env build opened (.apdu last)
      outcome.caught.1 = writesOf (reviewTxOperations build
        outcome.device.ctx.txContent)
        (Signing.tx.finished last opened.ctx).display := by
    rw [transferWrites, if_pos finishing, caught_ctx]
  obtain ⟨reviewed, more, outputs, goesOn, left, meets⟩ := writes
    ([] ++ transferWrites env build opened (.apdu last) outcome.caught.1)
  have recorded := Machine.run_append begins
    (Machine.run_step (Machine.step_watch _ _ steps) goesOn)
  rw [List.nil_append, finished] at recorded
  have all : (front ++ [last]).map Event.apdu ++ presses.map .press =
      front.map .apdu ++ .apdu last :: presses.map .press := by simp
  rw [all]
  refine ⟨reviewed, _, _, recorded, ?_, meets⟩
  rw [left, performed_append, caught_ctx]
  exact performed_congr leaves more

/-- Of the strings of a review on the Nano X only the address leaves its
array. -/
theorem inside_reviewTxOperations {content : TxContent}
    (short : content.value.length.toNat ≤ 32) (display : Display .nanoX)
    {write : Write}
    (member : write ∈ writesOf (reviewTxOperations .nanoX content) display) :
    write.Inside ∨ write = addressWrite content.destination := by
  obtain rfl | later := List.mem_cons.mp member
  · exact Or.inr rfl
  refine Or.inl (stays_writesOf
    [.amount TransferArray.amountStr 0 (some TransferArray.amountLength)
        content.value,
      .put TransferArray.shardStr 0 (shardText content)]
    ?_ _ write later)
  intro operation listed
  obtain rfl | ended := List.mem_cons.mp listed
  · exact Operation.stays_amount short (by decide) (by decide)
  · obtain rfl := List.mem_singleton.mp ended
    exact stays_shardText content

/-- The strings of a transfer's review: for every accepted transfer with an
amount of at most 32 bytes, in every session and whatever the user presses
then, all writes of the review stay inside their arrays exactly on a Nano S
whose user does not take up the review.  The only write that leaves its array
is the one of the recipient's address, by its NUL.  The recorded writes, into
zeroed strings, are all that the session and the presses leave in them. -/
theorem transferWrites_inside_iff (env : Env) (device : Device build)
    {front : List Apdu} {last : Apdu}
    (session : Signing.tx.Session front last)
    (fits : (messageOf (front ++ [last])).length ≤ 1020)
    {context : TxContext}
    (accepts : processTx (Region.ofList (messageOf (front ++ [last])))
      (Signing.tx.start (messageOf (front ++ [last])).length) =
        .ok (0, context))
    (short : context.content.value.length.toNat ≤ 32)
    (presses : List Press) :
    ∃ reviewed writes outputs,
      (recordingTransfers env build).run
          ((front ++ [last]).map .apdu ++ presses.map .press) (device, []) =
        .ok ((reviewed, writes), outputs) ∧
      (∃ cleared, Display.Agrees SignTxn.size cleared {} ∧
        reviewed.ctx.display.strings =
          (cleared.performed writes).strings) ∧
      OnlyAddressLeaves build context.content presses writes := by
  obtain ⟨opened, replies, runs, _, presents, blank, finishes⟩ :=
    run_session env device session fits
  have parses : processTx (Signing.tx.finished last opened.ctx).buf
      (Signing.tx.finished last opened.ctx).txContext = .ok (0, context) := by
    rw [presents.buf, presents.txContext]
    exact accepts
  obtain ⟨outcome, reviews, screen, buf, txContext, stores⟩ :=
    reviewTx_raises env (opened.received last) parses short
  have steps : (firmware env build).step opened (.apdu last) =
      .ok (outcome.caught.1, outcome.caught.2) := by
    rw [finishes]
    show (reviewTx env build _ _).map Outcome.caught = _
    rw [reviews]
    rfl
  have finishing : FinishesTransfer last opened.ctx :=
    ⟨session.addressed, session.finish, fits_of_presents presents fits⟩
  have operations : reviewTxOperations build outcome.device.ctx.txContent =
      reviewTxOperations build context.content := by
    cases build with
    | nanoS => rfl
    | nanoX => rw [Ctx.txContent, txContext]
  suffices writes : PressesWrite env outcome.caught.1 presses fun more =>
      OnlyAddressLeaves build context.content presses (writesOf
        (reviewTxOperations build outcome.device.ctx.txContent)
        (Signing.tx.finished last opened.ctx).display ++ more) by
    have leaves : outcome.device.ctx.display.strings =
        ((Signing.tx.finished last opened.ctx).display.performed
          (writesOf (reviewTxOperations build outcome.device.ctx.txContent)
            (Signing.tx.finished last opened.ctx).display)).strings := by
      rw [operations]
      exact stores
    obtain ⟨reviewed, written, outputs, all, left, only⟩ := run_review env
      session.more runs steps finishing leaves
      (OnlyAddressLeaves build context.content presses) writes
    exact ⟨reviewed, written, outputs, all, ⟨_, blank, left⟩, only⟩
  rw [operations]
  cases build with
  | nanoS =>
      dsimp only at txContext
      have parsed : outcome.caught.1.ctx.Parses context.content :=
        ⟨0, context, by rw [caught_ctx, buf, txContext, parses], rfl⟩
      have waits : outcome.caught.1 = ⟨outcome.caught.1.ctx, .signTxApprove,
          outcome.caught.1.io⟩ := by
        rw [← show outcome.caught.1.screen = .signTxApprove by
          rw [caught_screen, screen]
          rfl]
      rw [waits]
      apply (pressesWrite_waiting env short presses parsed).mono
      intro more ⟨exactly, only⟩
      have title : ∀ write ∈ writesOf (reviewTxOperations .nanoS
          context.content) (Signing.tx.finished last opened.ctx).display,
          write.Inside := by
        intro write member
        obtain rfl := List.mem_singleton.mp member
        decide
      refine ⟨?_, ?_⟩
      · rw [List.forall_mem_append, exactly]
        exact ⟨And.right, fun both => ⟨title, both⟩⟩
      · rw [List.forall_mem_append]
        exact ⟨fun write member => Or.inl (title write member), only⟩
  | nanoX =>
      apply (pressesWrite_nanoX env presses outcome.caught.1
        (Or.inl (by rw [caught_screen, screen]; rfl))).mono
      intro more inside
      refine ⟨iff_of_false ?_ (by simp), ?_⟩
      · intro all
        exact not_inside_addressWrite _
          (all (addressWrite context.content.destination)
            (List.mem_append_left _ (List.mem_cons_self ..)))
      · rw [List.forall_mem_append]
        exact ⟨fun write => inside_reviewTxOperations short _,
          fun write member => Or.inl (inside write member)⟩

/-- A transfer of one token, in one packet. -/
def oneTokenPacket : Apdu :=
  Signing.tx.packet P1_FIRST P2_FINISH oneToken.encode length_oneToken_le

/-- The transfer of one token, taken up on a Nano S. -/
theorem transferWrites_inside_oneToken :
    ∃ context, processTx (Region.ofList (messageOf ([] ++ [oneTokenPacket])))
        (Signing.tx.start (messageOf ([] ++ [oneTokenPacket])).length) =
          .ok (0, context) ∧
      ∃ reviewed writes outputs,
        (recordingTransfers (.ofTables [] []) .nanoS).run
            (([] ++ [oneTokenPacket]).map .apdu ++
              [Press.releasedRight].map .press) (.boot .nanoS, []) =
          .ok ((reviewed, writes), outputs) ∧
        (∃ cleared, Display.Agrees SignTxn.size cleared {} ∧
          reviewed.ctx.display.strings =
            (cleared.performed writes).strings) ∧
        OnlyAddressLeaves .nanoS context.content [.releasedRight] writes := by
  obtain ⟨⟨code, context⟩, accepts, seen⟩ := exists_of_view
    (fun result : Int × TxContext => (result.1, result.2.content.value.length))
    (show (processTx (Region.ofList (messageOf ([] ++ [oneTokenPacket])))
      (Signing.tx.start (messageOf ([] ++ [oneTokenPacket])).length)
        ).toOption.map _ = some (0, 8) by decide +kernel)
  obtain ⟨rfl, short⟩ := Prod.mk.inj seen
  exact ⟨context, accepts, transferWrites_inside_iff (.ofTables [] [])
    (.boot .nanoS) (.single rfl rfl rfl) (by decide +kernel) accepts
    (by rw [short]; decide) [.releasedRight]⟩

/-- The transfer is accepted, and the writes of its review on a Nano X do not
all stay inside. -/
theorem not_inside_oneToken :
    (processTx (Region.ofList oneToken.encode) (Signing.tx.start
        oneToken.encode.length)).toOption.map Prod.fst = some 0 ∧
      ¬∀ reviewed writes outputs,
        (recordingTransfers (.ofTables [] []) .nanoX).run
            [.apdu oneTokenPacket] (.boot .nanoX, []) =
          .ok ((reviewed, writes), outputs) ->
        ∀ write ∈ writes, write.Inside := by
  refine ⟨by decide +kernel, ?_⟩
  intro inside
  obtain ⟨⟨⟨reviewed, writes⟩, outputs⟩, runs, leaves⟩ := exists_of_view
    (fun result : (Device .nanoX × List Write) × List Effect =>
      result.1.2.all fun write => decide write.Inside)
    (show ((recordingTransfers (.ofTables [] []) .nanoX).run
      [.apdu oneTokenPacket] (.boot .nanoX, [])).toOption.map _ =
        some false by decide +kernel)
  have all : (writes.all fun write => decide write.Inside) = true :=
    List.all_eq_true.mpr fun write member =>
      decide_eq_true (inside _ _ _ runs write member)
  rw [all] at leaves
  cases leaves

end LedgerOne
