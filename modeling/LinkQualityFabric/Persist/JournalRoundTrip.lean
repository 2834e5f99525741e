import LinkQualityFabric.Persist.JournalScan
import LinkQualityFabric.Persist.JournalWriter

/-! What is written is read back.

The writer bounds the body of a record and the reader bounds the whole payload, and the writer numbers
records modulo 2^64 while the reader does not read past a wrap. The file of any run of accepted calls is
a header and the accepted records since the last compaction; a reader returns them all exactly when each
of them is one the reader can return. -/
namespace Lqf
open Foundations
set_option autoImplicit false

namespace JournalReader

/-- The reading of a file returned `records` and came to a clean end. -/
def ReadsBack (records : List JournalRecord) (outcome : List JournalRecord × JournalReader) : Prop :=
  outcome.1 = records ∧ outcome.2.reachedEnd = true ∧ outcome.2.report.tornTail = false ∧
    outcome.2.report.degraded = false

instance (records : List JournalRecord) (outcome : List JournalRecord × JournalReader) :
    Decidable (ReadsBack records outcome) := inferInstanceAs (Decidable (_ ∧ _))

variable {reader : JournalReader} {record : JournalRecord} {before after : Bytes} (config : JournalConfig)
  (records : List JournalRecord)

theorem next_of_fits (hgoing : reader.reachedEnd = false) (hlimit : ¬ reader.atLimit)
    (hcontents : reader.contents = before ++ (encodeRecordBytes record ++ after))
    (hoffset : reader.lastGoodOffset = before.length) (hfits : Fits reader.config record)
    (horder : InOrder reader.expectedOrdinal record.ordinal) :
    reader.next = (some record, reader.advance record.kind (recordPayload record)) := by
  have hframe : frameAt reader.config reader.contents reader.lastGoodOffset = .intact (recordPayload record) := by
    rw [hcontents, hoffset]
    exact frameAt_record hfits before after
  have hkind : payloadKind (recordPayload record) = some record.kind := by
    rw [payloadKind_recordPayload, if_neg hfits.2.2]
  rw [next_of_recognised hgoing hlimit hframe hkind (by rw [payloadOrdinal_recordPayload]; exact horder),
    payloadOrdinal_recordPayload, body_recordPayload]

theorem drain_ends {rest : Bytes} {torn : Bool} (fuel : ℕ) (reader : JournalReader) (before : Bytes)
    (hgoing : reader.reachedEnd = false) (htorn : reader.report.tornTail = false)
    (hdegraded : reader.report.degraded = false)
    (hcontents : reader.contents = before ++ (encodeRecords records ++ rest))
    (hoffset : reader.lastGoodOffset = before.length) (hrest : frameAt reader.config rest 0 = .atEnd ∧ torn = false ∨
      (frameAt reader.config rest 0 = .shortHeader ∨ frameAt reader.config rest 0 = .shortBody) ∧ torn = true)
    (hreadable : Readable reader.config reader.expectedOrdinal records) (hfuel : records.length < fuel)
    (hlimit : (drain fuel reader).2.report.limitReached = false ∨
      reader.report.recordsRead + records.length < reader.config.maxRecoveryRecords ∧
        reader.report.bytesRead + (encodeRecords records).length < reader.config.maxRecoveryBytes) :
    (drain fuel reader).1 = records ∧ (drain fuel reader).2.reachedEnd = true ∧
      (drain fuel reader).2.report.tornTail = torn ∧ (drain fuel reader).2.report.degraded = false ∧
      (drain fuel reader).2.report.limitReached = reader.report.limitReached ∧
      (drain fuel reader).2.lastGoodOffset = reader.lastGoodOffset + (encodeRecords records).length := by
  induction records generalizing fuel reader before with
  | nil =>
    obtain ⟨fuel, rfl⟩ : ∃ less, fuel = less + 1 := ⟨fuel - 1, by simp at hfuel; omega⟩
    have hnot : ¬ reader.atLimit := by
      rcases hlimit with hlimit | hbounds
      · exact not_atLimit hgoing hlimit
      · simp only [atLimit, encodeRecords_nil, List.length_nil] at hbounds ⊢
        omega
    have hframe : frameAt reader.config reader.contents reader.lastGoodOffset = frameAt reader.config rest 0 := by
      rw [hcontents, hoffset]
      exact frameAt_append reader.config before rest 0
    obtain ⟨after, hnext, hstops⟩ := next_of_unrecognised hgoing hnot (by
      intro payload hpayload
      rw [hframe] at hpayload
      rcases hrest with ⟨h, -⟩ | ⟨h | h, -⟩ <;> rw [h] at hpayload <;> cases hpayload)
    have htears := hstops.torn_iff
    have hdamages := hstops.degraded_iff
    rw [TornAt, hframe, htorn] at htears
    rw [TornAt, hframe, hdegraded] at hdamages
    rw [drain, hnext]
    refine ⟨rfl, hstops.reachedEnd, ?_, ?_, hstops.limitReached, hstops.lastGoodOffset⟩
    · rcases hrest with ⟨h, rfl⟩ | ⟨h | h, rfl⟩ <;> simpa [h] using htears
    · rcases hrest with ⟨h, -⟩ | ⟨h | h, -⟩ <;> simpa [h] using hdamages
  | cons record more ih =>
    obtain ⟨fuel, rfl⟩ : ∃ less, fuel = less + 1 := ⟨fuel - 1, by simp at hfuel; omega⟩
    have hlength : (encodeRecords (record :: more)).length =
        (recordHeaderBytes + (recordPayload record).length) + (encodeRecords more).length := by
      rw [encodeRecords_cons, List.length_append, encodeRecordBytes_length, recordPayload_length]
    rw [hlength, List.length_cons] at hlimit
    have hnot : ¬ reader.atLimit := by
      rcases hlimit with hlimit | hbounds
      · exact not_atLimit hgoing hlimit
      · simp only [atLimit]
        omega
    obtain ⟨hfits, horder, hbehind⟩ := hreadable
    rw [encodeRecords_cons, List.append_assoc] at hcontents
    rw [drain, next_of_fits hgoing hnot hcontents hoffset hfits horder] at hlimit ⊢
    obtain ⟨hreturned, hflags⟩ := ih fuel (reader.advance record.kind (recordPayload record))
      (before ++ encodeRecordBytes record) hgoing htorn hdegraded (by rw [List.append_assoc]; exact hcontents)
      (by simp [advance, hoffset, recordHeaderBytes]) hrest
      (by rw [advance, payloadOrdinal_recordPayload]; exact hbehind) (by simpa using hfuel)
      (hlimit.imp_right fun hbounds => by simp only [advance]; omega)
    rw [hlength, ← Nat.add_assoc]
    exact ⟨congrArg (record :: ·) hreturned, hflags⟩

theorem drain_readsBack_iff (fuel : ℕ) (reader : JournalReader) (before : Bytes) (hgoing : reader.reachedEnd = false)
    (htorn : reader.report.tornTail = false) (hdegraded : reader.report.degraded = false)
    (hcontents : reader.contents = before ++ encodeRecords records) (hoffset : reader.lastGoodOffset = before.length)
    (hfuel : records.length < fuel) (hlimit : (drain fuel reader).2.report.limitReached = false) :
    ReadsBack records (drain fuel reader) ↔ Readable reader.config reader.expectedOrdinal records := by
  constructor
  · rintro ⟨hreturned, -⟩
    rw [← hreturned]
    exact (drain_scanned fuel reader).readable
  · intro hreadable
    obtain ⟨hreturned, hend, htears, hdamages, -⟩ := drain_ends records fuel reader before hgoing htorn hdegraded
      (by rw [List.append_nil]; exact hcontents) hoffset (.inl ⟨frameAt_nil _ 0, rfl⟩) hreadable hfuel (.inl hlimit)
    exact ⟨hreturned, hend, htears, hdamages⟩

/-- Each ordinal is the next one modulo 2^64. -/
def Numbered (records : List JournalRecord) : Prop :=
  records.IsChain (fun first second => second.ordinal = first.ordinal + 1)

theorem readable_some_iff (expected : UInt64) (hfirst : ∀ record ∈ records.head?, record.ordinal = expected)
    (hnumbered : Numbered records) :
    Readable config (some expected) records ↔ ∀ record ∈ records, Fits config record ∧ record.ordinal ≠ 0 := by
  induction records generalizing expected with
  | nil => simp [Readable]
  | cons record rest ih =>
    obtain rfl := hfirst record rfl
    have hrest := ih (record.ordinal + 1) (List.isChain_cons.mp hnumbered).1 (List.isChain_cons.mp hnumbered).2
    simp [Readable, hrest, InOrder, and_assoc]

theorem readable_none_iff (hnumbered : Numbered records) : Readable config none records ↔
      (∀ record ∈ records, Fits config record) ∧ ∀ record ∈ records.tail, record.ordinal ≠ 0 := by
  cases records with
  | nil => simp [Readable]
  | cons record rest =>
    have hrest := readable_some_iff config rest (record.ordinal + 1) (List.isChain_cons.mp hnumbered).1
      (List.isChain_cons.mp hnumbered).2
    simp only [Readable, hrest, InOrder, List.forall_mem_cons, List.tail_cons, forall_and, and_assoc]
    simp

end JournalReader

namespace BackgroundJournal
open JournalReader (Fits ReadsBack Readable Numbered)

/-- The records a run has accepted since its last compaction, the snapshot first. -/
def keep (records : List JournalRecord) : JournalEvent × Outcome Unit → List JournalRecord
  | (.append kind ordinal body, .ok ()) => records ++ [⟨kind, ordinal, body⟩]
  | (.compact _ snapshotOrdinal snapshotBody, .ok ()) => [⟨.snapshot, snapshotOrdinal, snapshotBody⟩]
  | _ => records

def accepted (trace : List (JournalEvent × Outcome Unit)) : List JournalRecord := trace.foldl keep []

theorem accepted_snoc (trace : List (JournalEvent × Outcome Unit)) (entry : JournalEvent × Outcome Unit) :
    accepted (trace ++ [entry]) = keep (accepted trace) entry := by
  rw [accepted, List.foldl_concat, accepted]

structure Kept (config : JournalConfig) (records : List JournalRecord) (journal : BackgroundJournal) : Prop where
  config_eq : journal.config = config
  holds : ∃ epoch wallNanos, Holds (buildFileHeader epoch wallNanos) records journal
  last_eq : journal.lastEnqueued = records.getLast?.map JournalRecord.ordinal
  numbered : Numbered records
  sized : ∀ record ∈ records, record.body.length ≤ config.maxRecordBytes

variable {config : JournalConfig} {journal : BackgroundJournal}

theorem kept_start {io : StartIo} {disk : Disk} {epoch : UInt64} {wallNanos : Int64}
    (hstart : start io config disk epoch wallNanos = .ok journal) (hempty : disk.journal.getD [] = []) :
    Kept config [] journal := by
  simp only [start, Outcome.check_bind_eq_ok, hempty, if_true, startFresh] at hstart
  obtain ⟨-, -, -, hfresh⟩ := hstart
  cases hshort : io.headerShort with
  | some count => simp [hshort, fail] at hfresh
  | none =>
    simp only [hshort, Outcome.check_bind_eq_ok] at hfresh
    obtain rfl := Except.ok.inj hfresh.2
    exact ⟨rfl, ⟨epoch, wallNanos, rfl, [], by simp [started], rfl⟩, rfl, List.isChain_nil, by simp⟩

section Steps
variable {config : JournalConfig} {records : List JournalRecord} {journal : BackgroundJournal}
variable {after : BackgroundJournal}

theorem Kept.append {kind : JournalRecordKind} {ordinal : UInt64} {body : Bytes} (h : Kept config records journal)
    (happend : journal.append kind ordinal body = .ok after) :
    Kept config (records ++ [⟨kind, ordinal, body⟩]) after := by
  obtain ⟨hconfig, ⟨epoch, wallNanos, hholds⟩, hlast, hnumbered, hsized⟩ := h
  have hafter := hholds.append happend
  obtain ⟨-, hbody, -, -, -, -, hnext, rfl⟩ := append_eq_ok.mp happend
  refine ⟨hconfig, ⟨epoch, wallNanos, hafter⟩, by simp, ?_, ?_⟩
  · refine List.isChain_append.mpr ⟨hnumbered, List.isChain_singleton _, ?_⟩
    intro last hmem next hnextMem
    obtain rfl : ⟨kind, ordinal, body⟩ = next := by simpa using hnextMem
    exact hnext last.ordinal (by rw [hlast]; exact Option.mem_map_of_mem _ hmem)
  · intro record hrecord
    rcases List.mem_append.mp hrecord with hold | hnew
    · exact hsized record hold
    · obtain rfl : record = ⟨kind, ordinal, body⟩ := by simpa using hnew
      rw [← hconfig]
      exact hbody

section
variable (h : Kept config records journal)
include h

theorem Kept.step (hconfig : after.config = journal.config) (hlast : after.lastEnqueued = journal.lastEnqueued)
    (hstep : ∀ header, Holds header records journal → Holds header records after) : Kept config records after := by
  obtain ⟨epoch, wallNanos, hholds⟩ := h.holds
  exact ⟨hconfig.trans h.config_eq, ⟨epoch, wallNanos, hstep _ hholds⟩, hlast.trans h.last_eq, h.numbered, h.sized⟩

theorem Kept.take : Kept config records journal.take := by
  refine h.step (Continues.take journal).config ?_ fun _ => Holds.take
  unfold BackgroundJournal.take
  split <;> rfl

theorem Kept.finish : Kept config records (journal.finish none) := by
  refine h.step (Continues.finish journal none).config ?_ fun _ => Holds.finish
  unfold BackgroundJournal.finish
  split <;> rfl

theorem Kept.drainQueue (count : ℕ) : Kept config records (drainQueue count [] journal) := by
  induction count generalizing journal with
  | zero => exact h
  | succ count ih => exact ih h.take.finish

theorem Kept.awaitIdle : Kept config records (journal.awaitIdle []) := by
  unfold BackgroundJournal.awaitIdle
  split
  · exact h.drainQueue _
  · exact h

end

theorem replaceFile_granted (snapshot : JournalRecord) (idle : BackgroundJournal) :
    replaceFile {} snapshot idle = (.ok (), { idle with
      contents := buildFileHeader 0 0 ++ encodeRecordBytes snapshot, temporary := none
      position := some (buildFileHeader 0 0 ++ encodeRecordBytes snapshot).length
      expected := some (snapshot.ordinal + 1), lastEnqueued := some snapshot.ordinal }) := by
  simp [replaceFile, writeTemporary, reopen]

theorem Kept.compact {snapshotOrdinal : UInt64} {snapshotBody : Bytes} (h : Kept config records journal) :
    Kept config (keep records (.compact {} snapshotOrdinal snapshotBody,
      (journal.compact {} snapshotOrdinal snapshotBody).1)) (journal.compact {} snapshotOrdinal snapshotBody).2 := by
  rcases compact_cases {} snapshotOrdinal snapshotBody journal with
    ⟨_, _, hcompact, rfl | rfl⟩ | ⟨hbody, hpending, hcompact⟩
  · rw [hcompact]
    exact h
  · rw [hcompact]
    exact h.awaitIdle
  · rw [hcompact, replaceFile_granted]
    refine ⟨h.awaitIdle.config_eq, ⟨0, 0, rfl, [⟨.snapshot, snapshotOrdinal, snapshotBody⟩], by simp, ?_⟩, rfl,
      List.isChain_singleton _, ?_⟩
    · rw [pending] at hpending
      simp [keep, pending, hpending]
    · intro record hrecord
      obtain rfl : record = ⟨.snapshot, snapshotOrdinal, snapshotBody⟩ := by simpa [keep] using hrecord
      rw [← h.config_eq]
      exact hbody

theorem Kept.respond {event : JournalEvent} (h : Kept config records journal) (hgranted : Granted event) :
    Kept config (keep records (event, (journal.respond event).1)) (journal.respond event).2 := by
  cases event with
  | append kind ordinal body =>
    cases happend : journal.append kind ordinal body with
    | ok after => simpa [BackgroundJournal.respond, happend, keep] using h.append happend
    | error status => simpa [BackgroundJournal.respond, happend, keep] using h
  | take => exact h.take
  | finish short =>
    obtain rfl : short = none := hgranted
    exact h.finish
  | compact io snapshotOrdinal snapshotBody =>
    obtain rfl : io = {} := hgranted
    exact h.compact

end Steps

theorem kept_run (h : Kept config [] journal) {events : List JournalEvent}
    (hgranted : ∀ event ∈ events, Granted event) :
    Kept config (accepted (machine.trace journal events)) (machine.final journal events) := by
  refine machine.history_invariant (P := fun trace state => Kept config (accepted trace) state) ?_ h
    (machine.meets_of_forall journal hgranted)
  intro past state event hkept hevent
  rw [accepted_snoc]
  exact hkept.respond hevent

/-- Every record a run accepts is read back, in order and to a clean end, exactly when none of them is too
long once the reader counts its ordinal and kind, none has the sentinel kind, and the ordinals behind the
first record have not wrapped. -/
theorem accepted_readable_iff (config : JournalConfig) (hconfig : config.validate = .ok ()) (startIo : StartIo)
    (disk : Disk) (hempty : disk.journal.getD [] = []) (epoch : UInt64) (wallNanos : Int64)
    (journal : BackgroundJournal) (hstart : start startIo config disk epoch wallNanos = .ok journal)
    (events : List JournalEvent) (hgranted : ∀ event ∈ events, Granted event) (openIo : OpenIo)
    (temporary : Option Bytes) (reader : JournalReader) (opened : Disk)
    (hopen : JournalReader.openReader openIo config
      ⟨some ((machine.final journal events).settle []).contents, temporary⟩ = (.inr reader, opened))
    (hlimit : reader.readAll.2.report.limitReached = false) :
    ReadsBack (accepted (machine.trace journal events)) reader.readAll ↔
      (∀ record ∈ accepted (machine.trace journal events),
        recordPrefixBytes + record.body.length ≤ config.maxRecordBytes ∧ record.kind ≠ .count) ∧
      ∀ record ∈ (accepted (machine.trace journal events)).tail, record.ordinal ≠ 0 := by
  obtain ⟨-, ⟨headerEpoch, headerWall, hholds⟩, -, hnumbered, hsized⟩ := kept_run (kept_start hstart hempty) hgranted
  have hmax := (JournalConfig.bounds_of_validate hconfig).2.1
  have hheader := buildFileHeader_length headerEpoch headerWall
  have hcontents := hholds.settle
  rw [hcontents] at hopen
  obtain rfl := JournalReader.openReader_existing hopen rfl (JournalReader.header_append_ne_nil hheader _)
  have hsize : ∀ record ∈ accepted (machine.trace journal events),
      recordPrefixBytes + record.body.length < 2 ^ 32 := by
    intro record hrecord
    have hbody := hsized record hrecord
    simp only [recordPrefixBytes]
    omega
  have hlong := encodeRecords_length_le (accepted (machine.trace journal events))
  rw [JournalReader.readAll, JournalReader.drain_readsBack_iff _ _ _ _ rfl rfl rfl rfl hheader.symm
    (by simp only [JournalReader.freshReader, List.length_append]; omega) hlimit]
  refine (JournalReader.readable_none_iff _ _ hnumbered).trans ?_
  refine and_congr_left' (forall₂_congr fun record hrecord => ?_)
  exact ⟨fun hfits => ⟨hfits.1, hfits.2.2⟩, fun h => ⟨h.1, hsize record hrecord, h.2⟩⟩

def smallJournal : JournalConfig :=
  { JournalConfig.defaults with enabled := true, path := text "journal", maxRecordBytes := 64 }

/-- An append, a compaction and an append behind it are read back. -/
theorem compacted_read_back :
    let journal := started smallJournal (buildFileHeader 0 0)
    let events := [.append .policy 1 [7], .take, .finish none, .compact {} 1 [8], .append .evidence 2 [9]]
    let settled := (machine.final journal events).settle []
    let reader : JournalReader :=
      { config := smallJournal, contents := settled.contents, report := { opened := true, headerValid := true }
        lastGoodOffset := fileHeaderBytes, expectedOrdinal := none, reachedEnd := false }
    ReadsBack (accepted (machine.trace journal events)) reader.readAll := by
  intro journal events settled reader
  exact (accepted_readable_iff smallJournal rfl {} ⟨none, none⟩ rfl 0 0 journal rfl events (by decide) {} none reader
    ⟨some settled.contents, none⟩ (by decide +kernel) (by decide +kernel)).mpr (by decide +kernel)

/-- A body of 60 bytes is accepted under a limit of 64 and read as a torn tail. -/
theorem long_body_unreadable :
    let journal := started smallJournal (buildFileHeader 0 0)
    let event := JournalEvent.append .evidence 1 (List.replicate 60 0)
    let settled := (machine.final journal [event]).settle []
    smallJournal.validate = .ok () ∧ start {} smallJournal ⟨none, none⟩ 0 0 = .ok journal ∧
      machine.trace journal [event] = [(event, .ok ())] ∧
      (JournalReader.openReader {} smallJournal ⟨some settled.contents, none⟩).1.getRight?.map (fun reader =>
        (reader.readAll.1, reader.readAll.2.report.limitReached, reader.readAll.2.report.tornTail)) =
        some ([], false, true) := by
  intro journal event settled
  exact ⟨rfl, rfl, by decide +kernel, by decide +kernel⟩

end BackgroundJournal

end Lqf
