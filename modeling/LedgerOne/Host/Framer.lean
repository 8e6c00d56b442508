import LedgerOne.Lib.Bytes
import LedgerOne.Lib.Chunks
import LedgerOne.Lib.Reading

/-!
# Reports (`oneledger.go`)

Requests and answers go through the device in numbered reports of 64 bytes.
`hidFramer` cuts what is written into reports and puts what is read together,
and `apduFramer` sends a request and waits for the answer.
`wallet/nano_S_driver.go` has the same code.
-/

namespace LedgerOne

/-- An error of the device, or one of package `io`. -/
inductive DeviceError
  | eof
  | unexpectedEOF
  | failed (code : Nat)
  deriving DecidableEq

/-- A device: what reading a report gets and what writing one does. -/
structure ReadWriter (ρ : Type) where
  read : ρ -> Except DeviceError (List UInt8 × ρ)
  write : ρ -> List UInt8 -> Except DeviceError ρ

/-- How an exchange fails. -/
inductive HostError
  | device (error : DeviceError)
  /-- `bad channel ID 0x%x`. -/
  | badChannelID (channelID : Nat)
  /-- `bad command tag 0x%x`. -/
  | badCommandTag (commandTag : UInt8)
  /-- `bad sequence number %v (expected %v)`. -/
  | badSequenceNumber (seq expected : UInt16)
  | panic (text : String)
  deriving DecidableEq

/-- `binary.BigEndian.PutUint16`. -/
def putUint16 (value : Nat) : List UInt8 :=
  [UInt8.ofNat (value / 2 ^ 8), UInt8.ofNat value]

/-- The start of a report. -/
def reportHeader (seq : UInt16) : List UInt8 :=
  putUint16 0x0101 ++ [0x05] ++ putUint16 seq.toNat

/-! ## Writing -/

/-- The reports that `hidFramer.Write` makes. -/
def writtenReports (p : List UInt8) : List (List UInt8) :=
  (chunks 59 (putUint16 p.length ++ p)).zipIdx.map fun chunk =>
    reportHeader (UInt16.ofNat chunk.2) ++ chunk.1

section Framers

variable {ρ : Type} (rw : ReadWriter ρ)

/-- Write reports one after the other. -/
def ReadWriter.writeAll : List (List UInt8) -> ρ -> Except HostError ρ
  | [], port => .ok port
  | report :: reports, port =>
      match rw.write port report with
      | .error error => .error (.device error)
      | .ok next => ReadWriter.writeAll reports next

/-- `hidFramer.Write`. -/
def hidWrite (p : List UInt8) (port : ρ) : Except HostError ρ :=
  rw.writeAll (writtenReports p) port

/-! ## Reading -/

/-- `hidFramer`: the number of the next report, the last report and how much
of it has been read. -/
structure HidFramer where
  seq : UInt16
  buf : Region 64
  pos : Nat
  pos_le : pos ≤ 64

/-- A framer that has read nothing. -/
def HidFramer.opened : HidFramer := ⟨0, .zero, 0, Nat.zero_le _⟩

theorem drained_le {pos : Nat} (inside : pos ≤ 64) (count : Nat) :
    pos + min count (64 - pos) ≤ 64 := by
  omega

theorem filled_le (count : Nat) : 5 + min count 59 ≤ 64 := by
  omega

/-- `hidFramer.Reset`. -/
def HidFramer.reset (hf : HidFramer) : HidFramer := { hf with seq := 0 }

/-- More of the last report has been read. -/
def HidFramer.drain (hf : HidFramer) (count : Nat) : HidFramer :=
  { hf with
    pos := hf.pos + min count (64 - hf.pos)
    pos_le := drained_le hf.pos_le count }

/-- The next report has been fetched, and its start been read. -/
def HidFramer.fill (hf : HidFramer) (buf : Region 64) (count : Nat) :
    HidFramer where
  seq := hf.seq + 1
  buf := buf
  pos := 5 + min count 59
  pos_le := filled_le count

/-- `hidFramer.Read`. -/
def hidRead : Reader HostError (HidFramer × ρ) UInt8 := fun (hf, port) count =>
  if 0 < hf.seq ∧ hf.pos ≠ 64 then
    .ok (hf.buf.read hf.pos (min count (64 - hf.pos)), hf.drain count, port)
  else
    match rw.read port with
    | .error error => .error (.device error)
    | .ok (packet, next) =>
        if packet.length ≠ 64 then
          .error (.panic "read less than 64 bytes from HID")
        else
          let buf : Region 64 := .ofList packet
          let channelID := beNat (buf.read 0 2)
          let commandTag := buf.get 2
          let seq := UInt16.ofNat (beNat (buf.read 3 2))
          if channelID ≠ 0x0101 then .error (.badChannelID channelID)
          else if commandTag ≠ 0x05 then .error (.badCommandTag commandTag)
          else if seq ≠ hf.seq then .error (.badSequenceNumber seq hf.seq)
          else .ok (buf.read 5 (min count 59), hf.fill buf count, next)

/-! ## Exchanges -/

/-- `APDU`. -/
structure APDU where
  cla : UInt8
  ins : UInt8
  p1 : UInt8
  p2 : UInt8
  payload : List UInt8

def APDU.bytes (apdu : APDU) : List UInt8 :=
  [apdu.cla, apdu.ins, apdu.p1, apdu.p2, UInt8.ofNat apdu.payload.length] ++
    apdu.payload

/-- `io.ReadFull` reports the end of its input as unexpected if it has read
something. -/
def HostError.late : HostError -> HostError
  | .device .eof => .device .unexpectedEOF
  | error => error

/-- The length and the payload of an answer. -/
def receiveAnswer (state : HidFramer × ρ) :
    Option (Except HostError (List UInt8 × HidFramer × ρ)) :=
  match readFull (hidRead rw) HostError.late 2 state with
  | some (.ok (buf, next)) =>
      readFull (hidRead rw) HostError.late (beNat buf) next
  | other => other

/-- `apduFramer.Exchange`. -/
def apduExchange (apdu : APDU) (state : HidFramer × ρ) :
    Option (Except HostError (List UInt8 × HidFramer × ρ)) :=
  if 255 < apdu.payload.length then
    some (.error (.panic "APDU payload cannot exceed 255 bytes"))
  else
    match hidWrite rw apdu.bytes state.2 with
    | .error error => some (.error error)
    | .ok port => receiveAnswer rw (state.1.reset, port)

end Framers

/-! ## What is upcoming -/

/-- Reading from the device gets these reports. -/
inductive ReadWriter.Delivers {ρ : Type} (rw : ReadWriter ρ) :
    ρ -> List (List UInt8) -> ρ -> Prop
  | none {port : ρ} : Delivers rw port [] port
  | next {port next last : ρ} {report : List UInt8}
      {reports : List (List UInt8)} (reads : rw.read port = .ok (report, next))
      (goesOn : Delivers rw next reports last) :
      Delivers rw port (report :: reports) last

/-- Whole reports that are numbered from a number on. -/
def Numbered (seq : UInt16) : List (List UInt8) -> Prop
  | [] => True
  | report :: reports => report.length = 64 ∧
      report.take 5 = reportHeader seq ∧ Numbered (seq + 1) reports

/-- What the reports carry. -/
def carried (reports : List (List UInt8)) : List UInt8 :=
  reports.flatMap fun report => report.drop 5

theorem carried_cons (report : List UInt8) (reports : List (List UInt8)) :
    carried (report :: reports) = report.drop 5 ++ carried reports :=
  rfl

/-- What is left of the last report. -/
def HidFramer.pending (hf : HidFramer) : List UInt8 :=
  if 0 < hf.seq then hf.buf.read hf.pos (64 - hf.pos) else []

/-- The bytes that come before the device has gone on to a state. -/
def Upcoming {ρ : Type} (rw : ReadWriter ρ) (last : ρ)
    (state : HidFramer × ρ) (content : List UInt8) : Prop :=
  ∃ reports, rw.Delivers state.2 reports last ∧
    Numbered state.1.seq reports ∧ content = state.1.pending ++ carried reports

/-- The bytes that can be read before the numbers start again. -/
def readingRoom {ρ : Type} (state : HidFramer × ρ) : Nat :=
  59 * (2 ^ 16 - 1 - state.1.seq.toNat) + state.1.pending.length

section Reports

/-- The parts of a report. -/
theorem read_report {report : List UInt8} (whole : report.length = 64)
    (start count : Nat) (inside : start + count ≤ 64) :
    (Region.ofList report : Region 64).read start count =
      (report.drop start).take count := by
  have same := Region.toList_ofList report whole
  rw [Region.toList_eq_read] at same
  have dropped := Region.drop_read (Region.ofList report : Region 64) 0 64 start
  have taken := Region.take_read (Region.ofList report : Region 64) (0 + start)
    (64 - start) count
  rw [same] at dropped
  rw [← dropped, Nat.min_eq_left (by omega), Nat.zero_add] at taken
  exact taken.symm

theorem beNat_putUint16 {value : Nat} (small : value < 2 ^ 16) :
    beNat (putUint16 value) = value := by
  simp only [putUint16, beNat, List.foldl_cons, List.foldl_nil,
    UInt8.toNat_ofNat']
  omega

theorem beNat_pair (high low : UInt8) :
    beNat [high, low] = 256 * high.toNat + low.toNat := by
  simp [beNat]

/-- A 16-bit number is told by its bytes. -/
theorem putUint16_eq_iff (high low : UInt8) (value : UInt16) :
    [high, low] = putUint16 value.toNat ↔
      UInt16.ofNat (beNat [high, low]) = value := by
  have bound := value.toNat_lt
  have highSmall := high.toNat_lt
  have lowSmall := low.toNat_lt
  rw [putUint16, List.cons.injEq, List.cons.injEq, ← UInt8.toNat_inj,
    ← UInt8.toNat_inj, ← UInt16.toNat_inj, beNat_pair, UInt8.toNat_ofNat',
    UInt8.toNat_ofNat', UInt16.toNat_ofNat']
  constructor
  · rintro ⟨first, second, -⟩
    omega
  · intro same
    refine ⟨?_, ?_, rfl⟩ <;> omega

/-- The checks of `hidFramer.Read` let the reports with the right header
through. -/
theorem take_five_iff {report : List UInt8} (whole : report.length = 64)
    (seq : UInt16) :
    report.take 5 = reportHeader seq ↔
      beNat ((Region.ofList report : Region 64).read 0 2) = 0x0101 ∧
      (Region.ofList report : Region 64).get 2 = 0x05 ∧
      UInt16.ofNat (beNat ((Region.ofList report : Region 64).read 3 2)) =
        seq := by
  have front := read_report whole 0 5 (by decide)
  rw [List.drop_zero] at front
  generalize (Region.ofList report : Region 64) = buf at front ⊢
  have channel : beNat (buf.read 0 2) = 0x0101 ↔
      [buf.get 0, buf.get 1] = putUint16 0x0101 := by
    have highSmall := (buf.get 0).toNat_lt
    have lowSmall := (buf.get 1).toNat_lt
    have first : buf.read 0 2 = [buf.get 0, buf.get 1] := by
      rw [Region.read_succ, Region.read_succ, Region.read_zero_count]
    rw [first, beNat_pair, putUint16, List.cons.injEq, List.cons.injEq,
      ← UInt8.toNat_inj, ← UInt8.toNat_inj, UInt8.toNat_ofNat',
      UInt8.toNat_ofNat']
    constructor
    · intro same
      refine ⟨?_, ?_, rfl⟩ <;> omega
    · rintro ⟨high, low, -⟩
      omega
  have number := putUint16_eq_iff (buf.get 3) (buf.get 4) seq
  have last : buf.read 3 2 = [buf.get 3, buf.get 4] := by
    rw [Region.read_succ, Region.read_succ, Region.read_zero_count]
  have split : buf.read 0 5 = [buf.get 0, buf.get 1] ++ [buf.get 2] ++
      [buf.get 3, buf.get 4] := by
    simp only [Region.read_succ, Region.read_zero_count]
    rfl
  rw [channel, last, ← number, ← front, split, reportHeader]
  simp only [putUint16, List.cons_append, List.nil_append, List.cons.injEq]
  tauto

end Reports

section Streams

variable {ρ : Type} (rw : ReadWriter ρ)

/-- What a read leaves of a part of a report. -/
theorem read_drained (buf : Region 64) (pos count : Nat) :
    buf.read pos (min count (64 - pos)) ++
        buf.read (pos + min count (64 - pos))
          (64 - (pos + min count (64 - pos))) =
      buf.read pos (64 - pos) := by
  have front := buf.take_read pos (64 - pos) count
  have back := buf.drop_read pos (64 - pos) (min count (64 - pos))
  have taken : (buf.read pos (64 - pos)).take (min count (64 - pos)) =
      buf.read pos (min count (64 - pos)) := by
    rw [buf.take_read, Nat.min_assoc, Nat.min_self]
  rw [← taken, show 64 - (pos + min count (64 - pos)) =
    64 - pos - min count (64 - pos) by omega, ← back, List.take_append_drop]

/-- A report that has passed the checks. -/
theorem hidRead_report {hf : HidFramer} {port next : ρ} {packet : List UInt8}
    (drained : ¬(0 < hf.seq ∧ hf.pos ≠ 64))
    (reads : rw.read port = .ok (packet, next)) (count : Nat)
    (whole : packet.length = 64) (header : packet.take 5 = reportHeader hf.seq) :
    hidRead rw (hf, port) count =
      .ok ((Region.ofList packet : Region 64).read 5 (min count 59),
        hf.fill (.ofList packet) count, next) := by
  obtain ⟨channel, tag, number⟩ := (take_five_iff whole hf.seq).mp header
  unfold hidRead
  dsimp only
  rw [if_neg drained, reads]
  dsimp only
  rw [if_neg (by simpa using whole), if_neg (by simpa using channel),
    if_neg (by simpa using tag), if_neg (by simpa using number)]

/-- The two ways in which `hidFramer.Read` succeeds. -/
theorem hidRead_cases {hf : HidFramer} {port : ρ} {count : Nat}
    {items : List UInt8} {next : HidFramer × ρ}
    (reads : hidRead rw (hf, port) count = .ok (items, next)) :
    ((0 < hf.seq ∧ hf.pos ≠ 64) ∧
      items = hf.buf.read hf.pos (min count (64 - hf.pos)) ∧
      next = (hf.drain count, port)) ∨
    (¬(0 < hf.seq ∧ hf.pos ≠ 64) ∧ ∃ packet after,
      rw.read port = .ok (packet, after) ∧ packet.length = 64 ∧
      packet.take 5 = reportHeader hf.seq ∧
      items = (Region.ofList packet : Region 64).read 5 (min count 59) ∧
      next = (hf.fill (.ofList packet) count, after)) := by
  by_cases drained : 0 < hf.seq ∧ hf.pos ≠ 64
  · unfold hidRead at reads
    dsimp only at reads
    rw [if_pos drained] at reads
    cases reads
    exact Or.inl ⟨drained, rfl, rfl⟩
  · refine Or.inr ⟨drained, ?_⟩
    have fetches := reads
    unfold hidRead at reads
    dsimp only at reads
    rw [if_neg drained] at reads
    cases fetched : rw.read port with
    | error error =>
        rw [fetched] at reads
        cases reads
    | ok result =>
        obtain ⟨packet, after⟩ := result
        rw [fetched] at reads
        dsimp only at reads
        split_ifs at reads with whole channel tag number
        have header := (take_five_iff (not_not.mp whole) hf.seq).mpr
          ⟨not_not.mp channel, not_not.mp tag, not_not.mp number⟩
        cases reads
        exact ⟨packet, after, rfl, not_not.mp whole, header, rfl, rfl⟩

theorem HidFramer.length_pending (hf : HidFramer) :
    hf.pending.length = if 0 < hf.seq then 64 - hf.pos else 0 := by
  unfold pending
  split_ifs
  · exact Region.length_read _ _ _
  · rfl

/-- Nothing is left of a report when the next one is read. -/
theorem HidFramer.pending_drained {hf : HidFramer}
    (drained : ¬(0 < hf.seq ∧ hf.pos ≠ 64)) : hf.pending = [] := by
  unfold pending
  split_ifs with started
  · have end_ : hf.pos = 64 := not_not.mp fun other => drained ⟨started, other⟩
    rw [end_]
    rfl
  · rfl

theorem toNat_succ_seq {seq : UInt16} (more : seq.toNat < 2 ^ 16 - 1) :
    (seq + 1).toNat = seq.toNat + 1 := by
  rw [UInt16.toNat_add]
  exact Nat.mod_eq_of_lt (show seq.toNat + 1 < 2 ^ 16 by omega)

theorem succ_seq_pos {seq : UInt16} (more : seq.toNat < 2 ^ 16 - 1) :
    0 < seq + 1 := by
  rw [UInt16.lt_iff_toNat_lt, toNat_succ_seq more]
  exact Nat.succ_pos _

/-- The numbers do not start again while there is room. -/
theorem seq_lt_of_room {hf : HidFramer} {port : ρ} {count : Nat}
    (drained : ¬(0 < hf.seq ∧ hf.pos ≠ 64)) (some : 0 < count)
    (roomy : count ≤ readingRoom (hf, port)) :
    hf.seq.toNat < 2 ^ 16 - 1 := by
  rw [readingRoom, HidFramer.pending_drained drained, List.length_nil] at roomy
  dsimp only at roomy
  omega

/-- What the rest of a report holds. -/
theorem pending_fill {report : List UInt8} (whole : report.length = 64)
    {hf : HidFramer} (more : hf.seq.toNat < 2 ^ 16 - 1) (count : Nat) :
    report.drop 5 = (Region.ofList report : Region 64).read 5 (min count 59) ++
      (hf.fill (.ofList report) count).pending := by
  have parts := read_drained (.ofList report) 5 count
  have all := read_report whole 5 59 (by decide)
  rw [List.take_of_length_le (by rw [List.length_drop]; omega)] at all
  rw [HidFramer.pending, HidFramer.fill, if_pos (succ_seq_pos more)]
  exact (parts.trans all).symm

theorem pending_drain {hf : HidFramer} (started : 0 < hf.seq) (count : Nat) :
    hf.pending = hf.buf.read hf.pos (min count (64 - hf.pos)) ++
      (hf.drain count).pending := by
  rw [HidFramer.pending, HidFramer.pending, HidFramer.drain, if_pos started,
    if_pos started, read_drained]

/-- `hidFramer.Read` goes through what the reports carry. -/
theorem streams_hidRead (last : ρ) :
    Streams (hidRead rw) (Upcoming rw last) readingRoom where
  portion := by
    rintro ⟨hf, port⟩ count items next some roomy reads
    obtain ⟨⟨started, inside⟩, rfl, rfl⟩ |
      ⟨drained, packet, after, -, whole, header, rfl, rfl⟩ :=
        hidRead_cases rw reads
    · have bound := hf.pos_le
      rw [Region.length_read]
      refine ⟨by omega, by omega, ?_⟩
      rw [readingRoom, readingRoom, HidFramer.length_pending,
        HidFramer.length_pending, HidFramer.drain, if_pos started,
        if_pos started]
      dsimp only
      omega
    · have more := seq_lt_of_room drained some roomy
      rw [Region.length_read]
      refine ⟨by omega, by omega, ?_⟩
      rw [readingRoom, readingRoom, HidFramer.pending_drained drained,
        HidFramer.length_pending, HidFramer.fill,
        if_pos (succ_seq_pos more), toNat_succ_seq more, List.length_nil]
      dsimp only
      omega
  fetches := by
    rintro ⟨hf, port⟩ count content ⟨reports, delivers, numbered, rfl⟩
      some roomy present
    dsimp only at delivers numbered roomy present ⊢
    by_cases drained : 0 < hf.seq ∧ hf.pos ≠ 64
    · refine ⟨hf.buf.read hf.pos (min count (64 - hf.pos)),
        (hf.drain count, port), (hf.drain count).pending ++ carried reports,
        ?_, ?_, reports, delivers, numbered, rfl⟩
      · unfold hidRead
        dsimp only
        rw [if_pos drained]
      · rw [← List.append_assoc, ← pending_drain drained.1]
    · have empty := HidFramer.pending_drained drained
      have more := seq_lt_of_room drained some roomy
      cases delivers with
      | none => simp [empty, carried] at present
      | next reads goesOn =>
          rename_i after report reports
          obtain ⟨whole, header, numbered⟩ := numbered
          refine ⟨_, _, (hf.fill (.ofList report) count).pending ++
            carried reports, hidRead_report rw drained reads count whole header,
            ?_, reports, goesOn, numbered, rfl⟩
          rw [empty, List.nil_append, carried_cons,
            pending_fill whole more count, List.append_assoc]
  fetched := by
    rintro ⟨hf, port⟩ count items next rest some roomy reads
      ⟨reports, delivers, numbered, rfl⟩
    obtain ⟨⟨started, inside⟩, rfl, rfl⟩ |
      ⟨drained, packet, after, fetches, whole, header, rfl, rfl⟩ :=
        hidRead_cases rw reads
    · refine ⟨reports, delivers, numbered, ?_⟩
      rw [← List.append_assoc, ← pending_drain started]
    · have more := seq_lt_of_room drained some roomy
      refine ⟨packet :: reports, .next fetches delivers,
        ⟨whole, header, numbered⟩, ?_⟩
      rw [HidFramer.pending_drained drained, List.nil_append, carried_cons,
        pending_fill whole more count, List.append_assoc]

end Streams

end LedgerOne
