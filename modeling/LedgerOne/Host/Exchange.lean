import LedgerOne.Host.Framer

/-!
# Exchanges over reports

What is written in reports is read from them again, and an answer is read
exactly when it is what whole and well numbered reports carry.
-/

namespace LedgerOne

/-- A report as the device sends it: of 64 bytes. -/
def filled (report : List UInt8) : List UInt8 :=
  report ++ List.replicate (64 - report.length) 0

/-! ## Reports that are written -/

section Written

@[simp] theorem length_reportHeader (seq : UInt16) :
    (reportHeader seq).length = 5 :=
  rfl

theorem drop_filled (seq : UInt16) (chunk : List UInt8) :
    (filled (reportHeader seq ++ chunk)).drop 5 =
      chunk ++ List.replicate (59 - chunk.length) 0 := by
  rw [filled, List.append_assoc, List.drop_left' (length_reportHeader seq),
    List.length_append, length_reportHeader]
  congr 2
  omega

theorem numbered_zipIdx {pieces : List (List UInt8)}
    (short : ∀ chunk ∈ pieces, chunk.length ≤ 59) (first : Nat) :
    Numbered (UInt16.ofNat first) ((pieces.zipIdx first).map
      fun chunk =>
        filled (reportHeader (UInt16.ofNat chunk.2) ++ chunk.1)) := by
  induction pieces generalizing first with
  | nil => trivial
  | cons chunk pieces inductionHypothesis =>
      have few := short chunk List.mem_cons_self
      rw [List.zipIdx_cons, List.map_cons]
      dsimp only
      refine ⟨?_, ?_, ?_⟩
      · rw [filled, List.length_append, List.length_replicate,
          List.length_append, length_reportHeader]
        omega
      · rw [filled, List.append_assoc]
        exact List.take_left' (length_reportHeader _)
      · have next : UInt16.ofNat first + 1 = UInt16.ofNat (first + 1) :=
          (UInt16.ofNat_add first 1).symm
        rw [next]
        exact inductionHypothesis
          (fun other member => short other (List.mem_cons_of_mem _ member)) _

/-- The reports of a message are whole and numbered from zero on. -/
theorem numbered_writtenReports (p : List UInt8) :
    Numbered 0 ((writtenReports p).map filled) := by
  rw [writtenReports, List.map_map]
  exact numbered_zipIdx
    (fun _ member => (length_of_mem_chunks (by decide) member).2) 0

theorem carried_zipIdx (pieces : List (List UInt8)) (first : Nat) :
    carried ((pieces.zipIdx first).map fun chunk =>
        filled (reportHeader (UInt16.ofNat chunk.2) ++ chunk.1)) =
      pieces.flatMap fun chunk =>
        chunk ++ List.replicate (59 - chunk.length) 0 := by
  induction pieces generalizing first with
  | nil => rfl
  | cons chunk pieces inductionHypothesis =>
      rw [List.zipIdx_cons, List.map_cons, carried_cons, inductionHypothesis,
        List.flatMap_cons, drop_filled]

/-- They carry the length of the message, the message and zeros. -/
theorem carried_writtenReports (p : List UInt8) :
    ∃ count, count < 59 ∧ carried ((writtenReports p).map filled) =
      putUint16 p.length ++ p ++ List.replicate count 0 := by
  obtain ⟨count, few, fills⟩ := flatMap_chunks_filled
    (show 0 < 59 by decide) (0 : UInt8) (putUint16 p.length ++ p)
  refine ⟨count, few, ?_⟩
  rw [writtenReports, List.map_map]
  exact (carried_zipIdx _ 0).trans fills

end Written

/-! ## Answers that are read -/

section Answers

variable {ρ : Type} (rw : ReadWriter ρ)

theorem HidFramer.pending_reset (hf : HidFramer) : hf.reset.pending = [] :=
  rfl

/-- After a reset the longest answer can be read. -/
theorem readingRoom_reset (hf : HidFramer) (port : ρ) :
    2 ^ 16 + 2 ≤ readingRoom (hf.reset, port) := by
  show 2 ^ 16 + 2 ≤ 59 * (2 ^ 16 - 1 - 0) + 0
  decide

theorem beNat_lt_of_length_two {buf : List UInt8} (two : buf.length = 2) :
    beNat buf < 2 ^ 16 := by
  have bound := beNat_lt buf
  rw [two] at bound
  exact bound

theorem putUint16_beNat {buf : List UInt8} (two : buf.length = 2) :
    putUint16 (beNat buf) = buf := by
  obtain ⟨high, low, rfl⟩ := List.length_eq_two.mp two
  have highSmall := high.toNat_lt
  have lowSmall := low.toNat_lt
  rw [beNat_pair, putUint16, List.cons.injEq, List.cons.injEq,
    ← UInt8.toNat_inj, ← UInt8.toNat_inj, UInt8.toNat_ofNat',
    UInt8.toNat_ofNat']
  refine ⟨?_, ?_, rfl⟩ <;> omega

theorem receiveAnswer_of_length {state mid : HidFramer × ρ}
    {buf : List UInt8}
    (reads : readFull (hidRead rw) HostError.late 2 state =
      some (.ok (buf, mid))) :
    receiveAnswer rw state =
      readFull (hidRead rw) HostError.late (beNat buf) mid := by
  rw [receiveAnswer, reads]

/-- The length is read before the answer. -/
theorem exists_length_of_receiveAnswer {state next : HidFramer × ρ}
    {resp : List UInt8}
    (receives : receiveAnswer rw state = some (.ok (resp, next))) :
    ∃ buf mid, readFull (hidRead rw) HostError.late 2 state =
        some (.ok (buf, mid)) ∧
      readFull (hidRead rw) HostError.late (beNat buf) mid =
        some (.ok (resp, next)) := by
  cases reads : readFull (hidRead rw) HostError.late 2 state with
  | none =>
      rw [receiveAnswer, reads] at receives
      cases receives
  | some result =>
      cases result with
      | error error =>
          rw [receiveAnswer, reads] at receives
          cases receives
      | ok result =>
          rw [receiveAnswer_of_length rw reads] at receives
          exact ⟨result.1, result.2, rfl, receives⟩

/-- What comes after an answer is not looked at. -/
theorem upcoming_pending (state : HidFramer × ρ) :
    Upcoming rw state.2 state state.1.pending :=
  ⟨[], .none, trivial, (List.append_nil _).symm⟩

/-- Nothing is left to fetch if less than a report is. -/
theorem Upcoming.arrived {rw : ReadWriter ρ} {last : ρ}
    {state : HidFramer × ρ} {rest : List UInt8}
    (upcoming : Upcoming rw last state rest) (few : rest.length < 59) :
    state.2 = last := by
  obtain ⟨reports, delivers, numbered, rfl⟩ := upcoming
  cases delivers with
  | none => rfl
  | next reads goesOn =>
      have whole := numbered.1
      rw [carried_cons, List.length_append, List.length_append,
        List.length_drop, whole] at few
      omega

/-- An answer that comes next is read. -/
theorem receiveAnswer_upcoming {hf : HidFramer} {port last : ρ}
    {resp rest : List UInt8} (small : resp.length < 2 ^ 16)
    (upcoming : Upcoming rw last (hf.reset, port)
      (putUint16 resp.length ++ (resp ++ rest))) :
    ∃ next, receiveAnswer rw (hf.reset, port) = some (.ok (resp, next)) ∧
      Upcoming rw last next rest := by
  have streams := streams_hidRead rw last
  have roomy := readingRoom_reset hf port
  have two_le : 2 ≤ readingRoom (hf.reset, port) := le_trans (by decide) roomy
  obtain ⟨mid, first, later⟩ := streams.readFull_upcoming two_le upcoming
    (by rw [List.length_append]; exact Nat.le_add_right 2 _)
  have left := streams.room_of_readFull two_le first
  have header : (putUint16 resp.length ++ (resp ++ rest)).take 2 =
      putUint16 resp.length := List.take_left' rfl
  have behind : (putUint16 resp.length ++ (resp ++ rest)).drop 2 =
      resp ++ rest := List.drop_left' rfl
  rw [header] at first
  rw [behind] at later
  obtain ⟨next, second, goesOn⟩ := streams.readFull_upcoming
    (small.le.trans (Nat.le_of_add_le_add_right (roomy.trans left))) later
    (by rw [List.length_append]; exact Nat.le_add_right _ _)
  refine ⟨next, ?_, ?_⟩
  · rw [receiveAnswer_of_length rw first, beNat_putUint16 small, second,
      List.take_left' rfl]
  · rwa [List.drop_left' rfl] at goesOn

/-- An answer is read exactly when whole reports that are numbered from zero
on carry its length and then the answer. -/
theorem receiveAnswer_iff (hf : HidFramer) (port : ρ) (resp : List UInt8) :
    (∃ next, receiveAnswer rw (hf.reset, port) = some (.ok (resp, next))) ↔
      resp.length < 2 ^ 16 ∧ ∃ reports last, rw.Delivers port reports last ∧
        Numbered 0 reports ∧
        putUint16 resp.length ++ resp <+: carried reports := by
  have roomy := readingRoom_reset hf port
  have two_le : 2 ≤ readingRoom (hf.reset, port) := le_trans (by decide) roomy
  constructor
  · rintro ⟨next, receives⟩
    obtain ⟨buf, mid, first, second⟩ :=
      exists_length_of_receiveAnswer rw receives
    have streams := streams_hidRead rw next.2
    have left := streams.room_of_readFull two_le first
    have two := (streams.length_of_readFull two_le first)
    have small := beNat_lt_of_length_two two
    have enough : beNat buf ≤ readingRoom mid :=
      small.le.trans (Nat.le_of_add_le_add_right (roomy.trans left))
    have length := streams.length_of_readFull enough second
    have later := streams.upcoming_of_readFull enough second
      (upcoming_pending rw next)
    obtain ⟨reports, delivers, numbered, content⟩ :=
      streams.upcoming_of_readFull two_le first later
    refine ⟨length ▸ small, reports, next.2, delivers, numbered, ?_⟩
    rw [HidFramer.pending_reset, List.nil_append] at content
    rw [length, putUint16_beNat two, ← content, ← List.append_assoc]
    exact List.prefix_append _ _
  · rintro ⟨small, reports, last, delivers, numbered, rest, content⟩
    have upcoming : Upcoming rw last (hf.reset, port)
        (putUint16 resp.length ++ (resp ++ rest)) :=
      ⟨reports, delivers, numbered, by
        rw [← List.append_assoc, content]
        rfl⟩
    obtain ⟨next, receives, -⟩ := receiveAnswer_upcoming rw small upcoming
    exact ⟨next, receives⟩

/-- Waiting for an answer ends. -/
theorem isSome_receiveAnswer (hf : HidFramer) (port : ρ) :
    (receiveAnswer rw (hf.reset, port)).isSome := by
  have streams := streams_hidRead rw port
  have roomy := readingRoom_reset hf port
  have two_le : 2 ≤ readingRoom (hf.reset, port) := le_trans (by decide) roomy
  have ends : (readFull (hidRead rw) HostError.late 2
      (hf.reset, port)).isSome :=
    streams.isSome_readFull two_le
  obtain ⟨result, first⟩ := Option.isSome_iff_exists.mp ends
  cases result with
  | error error =>
      rw [receiveAnswer, first]
      rfl
  | ok result =>
      obtain ⟨buf, mid⟩ := result
      have left := streams.room_of_readFull two_le first
      have small := beNat_lt_of_length_two
        (streams.length_of_readFull two_le first)
      rw [receiveAnswer_of_length rw first]
      exact streams.isSome_readFull
        (small.le.trans (Nat.le_of_add_le_add_right (roomy.trans left)))

/-- What `hidFramer.Write` makes of an answer is read as the answer, and
nothing behind it. -/
theorem receiveAnswer_written (hf : HidFramer) {port last : ρ}
    {resp : List UInt8} (small : resp.length < 2 ^ 16)
    (delivers : rw.Delivers port ((writtenReports resp).map filled) last) :
    ∃ next, receiveAnswer rw (hf.reset, port) =
      some (.ok (resp, next, last)) := by
  obtain ⟨count, few, content⟩ := carried_writtenReports resp
  have upcoming : Upcoming rw last (hf.reset, port)
      (putUint16 resp.length ++ (resp ++ List.replicate count 0)) :=
    ⟨_, delivers, numbered_writtenReports resp, by
      rw [content, List.append_assoc]
      rfl⟩
  obtain ⟨⟨next, port⟩, receives, goesOn⟩ :=
    receiveAnswer_upcoming rw small upcoming
  have arrived := goesOn.arrived (by rwa [List.length_replicate])
  subst arrived
  exact ⟨next, receives⟩

/-- The device takes a request in reports and sends an answer in reports. -/
def ReadWriter.Answers (port : ρ) (request answer : List UInt8) (last : ρ) :
    Prop :=
  ∃ asked, rw.writeAll (writtenReports request) port = .ok asked ∧
    rw.Delivers asked ((writtenReports answer).map filled) last

/-- An exchange gets the answer, whatever was read before. -/
theorem apduExchange_answers (apdu : APDU) (hf : HidFramer) {port last : ρ}
    {answer : List UInt8} (short : apdu.payload.length ≤ 255)
    (small : answer.length < 2 ^ 16)
    (answers : rw.Answers port apdu.bytes answer last) :
    ∃ next, apduExchange rw apdu (hf, port) =
      some (.ok (answer, next, last)) := by
  obtain ⟨asked, writes, delivers⟩ := answers
  obtain ⟨next, receives⟩ := receiveAnswer_written rw hf small delivers
  refine ⟨next, ?_⟩
  rw [apduExchange, if_neg (Nat.not_lt.mpr short), hidWrite]
  dsimp only
  rw [writes]
  exact receives

/-! ## Exchanges one after the other -/

/-- Exchange requests one after the other. -/
def exchangeAll : List APDU -> HidFramer × ρ ->
    Option (Except HostError (List (List UInt8) × HidFramer × ρ))
  | [], state => some (.ok ([], state))
  | apdu :: apdus, state =>
      match apduExchange rw apdu state with
      | none => none
      | some (.error error) => some (.error error)
      | some (.ok (resp, next)) =>
          (exchangeAll apdus next).map fun result =>
            result.map fun later => (resp :: later.1, later.2)

/-- The device answers one request after the other. -/
inductive ReadWriter.AnswersAll (rw : ReadWriter ρ) :
    ρ -> List (APDU × List UInt8) -> ρ -> Prop
  | none {port : ρ} : AnswersAll rw port [] port
  | next {port next last : ρ} {apdu : APDU} {answer : List UInt8}
      {later : List (APDU × List UInt8)}
      (short : apdu.payload.length ≤ 255) (small : answer.length < 2 ^ 16)
      (answers : rw.Answers port apdu.bytes answer next)
      (goesOn : AnswersAll rw next later last) :
      AnswersAll rw port ((apdu, answer) :: later) last

/-- Every request gets its own answer, and no answer is lost or mixed up with
the next one. -/
theorem exchangeAll_answers (hf : HidFramer) {port last : ρ}
    {exchanges : List (APDU × List UInt8)}
    (answers : rw.AnswersAll port exchanges last) :
    ∃ next, exchangeAll rw (exchanges.map Prod.fst) (hf, port) =
      some (.ok (exchanges.map Prod.snd, next, last)) := by
  induction answers generalizing hf with
  | none => exact ⟨hf, rfl⟩
  | next short small answers goesOn inductionHypothesis =>
      obtain ⟨after, exchanged⟩ :=
        apduExchange_answers rw _ hf short small answers
      obtain ⟨ended, later⟩ := inductionHypothesis after
      refine ⟨ended, ?_⟩
      rw [List.map_cons, exchangeAll, exchanged]
      dsimp only
      rw [later]
      rfl

end Answers

/-! ## A device that replays reports -/

/-- A device that takes every report and sends those that it is given. -/
def replayed : ReadWriter (List (List UInt8)) where
  read port :=
    match port with
    | [] => .error .eof
    | report :: reports => .ok (report, reports)
  write port _ := .ok port

theorem replayed_delivers (reports more : List (List UInt8)) :
    replayed.Delivers (reports ++ more) reports more := by
  induction reports with
  | nil => exact .none
  | cons report reports inductionHypothesis =>
      exact .next rfl inductionHypothesis

theorem replayed_writeAll (reports port : List (List UInt8)) :
    replayed.writeAll reports port = .ok port := by
  induction reports with
  | nil => rfl
  | cons report reports inductionHypothesis => exact inductionHypothesis

theorem replayed_answers (request answer : List UInt8)
    (more : List (List UInt8)) :
    replayed.Answers ((writtenReports answer).map filled ++ more) request
      answer more :=
  ⟨_, replayed_writeAll _ _, replayed_delivers _ _⟩

/-- A hundred zeros, which come in two reports. -/
def zeros : List UInt8 := List.replicate 100 0

theorem length_zeros : zeros.length < 2 ^ 16 := by
  rw [zeros, List.length_replicate]
  decide

/-- A request for the version. -/
def versionRequest : APDU := ⟨0xe0, 0x01, 0, 0, []⟩

theorem replayed_twice (first second : List UInt8)
    (small : first.length < 2 ^ 16) (also : second.length < 2 ^ 16) :
    replayed.AnswersAll ((writtenReports first).map filled ++
        ((writtenReports second).map filled ++ []))
      [(versionRequest, first), (versionRequest, second)] [] :=
  .next (Nat.zero_le _) small (replayed_answers _ _ _)
    (.next (Nat.zero_le _) also (replayed_answers _ _ _) .none)

/-- A long answer and a short one. -/
theorem exchangeAll_answers_zeros :
    ∃ next, exchangeAll replayed [versionRequest, versionRequest] (.opened,
        (writtenReports zeros).map filled ++
          ((writtenReports [0x90, 0x00]).map filled ++ [])) =
      some (.ok ([zeros, [0x90, 0x00]], next, [])) := by
  have answered := exchangeAll_answers replayed .opened
    (replayed_twice zeros [0x90, 0x00] length_zeros (by decide))
  rw [List.map_cons, List.map_cons, List.map_nil] at answered
  exact answered

end LedgerOne
