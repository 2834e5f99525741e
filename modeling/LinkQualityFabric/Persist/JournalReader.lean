import LinkQualityFabric.Persist.JournalFormat

/-! Reading a journal back: `JournalReader` of `src/persist/journal.cpp`.

A reader stands behind the last record it has verified. Each call of `next` looks at the frame there and
either returns a record and moves on, or stops for good. It stops cleanly at the end of the file, with a
torn tail when the bytes look like an interrupted append, and degraded when they look like damage inside
the file; only a torn tail may be truncated away. -/
namespace Lqf
open Foundations
set_option autoImplicit false

structure RecoveryReport where
  opened : Bool := false
  headerValid : Bool := false
  tornTail : Bool := false
  degraded : Bool := false
  truncatedFile : Bool := false
  tempDiscarded : Bool := false
  snapshotLoaded : Bool := false
  limitReached : Bool := false
  recordsRead : ℕ := 0
  bytesRead : ℕ := 0
  bytesDiscarded : ℕ := 0
  firstBadOffset : ℕ := 0
  detail : Text := []
  status : Option Status := none
  deriving DecidableEq, Repr, Inhabited

/-- The files next to each other at the journal's path: the journal and a compaction's temporary file. -/
structure Disk where
  journal : Option Bytes
  temporary : Option Bytes
  deriving DecidableEq, Repr, Inhabited

/-- What the file system grants to one `sync_file`. -/
structure SyncIo where
  flushOk : Bool := true
  fsyncOk : Bool := true
  deriving DecidableEq, Repr, Inhabited

def syncFile (io : SyncIo) (durable : Bool) : Outcome Unit := do
  refuseIf (io.flushOk = false) .io (text "flush failed")
  refuseIf (durable = true ∧ io.fsyncOk = false) .io (text "fsync failed")

@[simp] theorem syncFile_granted (durable : Bool) : syncFile {} durable = .ok () := by
  cases durable <;> rfl

/-- What the file system grants to one call of `open`. -/
structure OpenIo where
  removeOk : Bool := true
  openOk : Bool := true
  headerBytesWritten : ℕ := fileHeaderBytes
  sync : SyncIo := {}
  deriving DecidableEq, Repr, Inhabited

/-- An open reader. `expectedOrdinal` is empty until a record has been read. -/
structure JournalReader where
  config : JournalConfig
  contents : Bytes
  report : RecoveryReport
  lastGoodOffset : ℕ
  expectedOrdinal : Option UInt64
  reachedEnd : Bool
  deriving DecidableEq, Repr, Inhabited

namespace JournalReader

/-! ## Opening -/

/-- The report of a reader that could not be opened is kept for the caller. -/
abbrev Opened : Type := (Status × RecoveryReport) ⊕ JournalReader

def openFresh (io : OpenIo) (config : JournalConfig) (report : RecoveryReport) : Opened × Bytes :=
  let fresh := buildFileHeader 0 0
  if io.headerBytesWritten < fileHeaderBytes then
    (.inl (⟨.io, text "journal header could not be written"⟩, report), fresh.take io.headerBytesWritten)
  else
    match syncFile io.sync true with
    | .error status => (.inl (status, report), fresh)
    | .ok () =>
      (.inr { config, contents := fresh, report := { report with headerValid := true },
              lastGoodOffset := fileHeaderBytes, expectedOrdinal := none, reachedEnd := true }, fresh)

def openExisting (config : JournalConfig) (report : RecoveryReport) (contents : Bytes) : Opened :=
  let header := readAt contents 0 fileHeaderBytes
  if header.length < fileHeaderBytes then
    .inl (⟨.corrupt, text "journal header is truncated"⟩,
      { report with tornTail := true, detail := text "journal header is truncated",
                    bytesDiscarded := fileHeaderBytes - header.length, firstBadOffset := 0 })
  else
    match validateFileHeader header with
    | .error status => .inl (status, { report with status := some status, detail := status.message })
    | .ok () =>
      .inr { config, contents, report := { report with headerValid := true },
             lastGoodOffset := fileHeaderBytes, expectedOrdinal := none, reachedEnd := false }

/-- A leftover temporary file is removed first; a missing or empty journal gets a fresh header. -/
def openReader (io : OpenIo) (config : JournalConfig) (disk : Disk) : Opened × Disk :=
  let report : RecoveryReport := { tempDiscarded := disk.temporary.isSome }
  if disk.temporary.isSome ∧ io.removeOk = false then
    (.inl (⟨.io, text "an interrupted compaction left a temporary file that could not be removed: " ++
      text "file could not be removed: " ++ config.path ++ text ".tmp"⟩, report), disk)
  else if io.openOk = false then
    (.inl (⟨.io, text "journal file could not be opened for recovery"⟩, report), { disk with temporary := none })
  else
    let opened := { report with opened := true }
    let contents := disk.journal.getD []
    if contents = [] then
      let (result, written) := openFresh io config opened
      (result, { journal := some written, temporary := none })
    else (openExisting config opened contents, { journal := some contents, temporary := none })

/-! ## The next record -/

def tear (reader : JournalReader) (detail : Text) : JournalReader :=
  { reader with reachedEnd := true,
                report := { reader.report with tornTail := true, firstBadOffset := reader.lastGoodOffset, detail } }

def degrade (reader : JournalReader) (detail : Text) : JournalReader :=
  { reader with reachedEnd := true,
                report := { reader.report with degraded := true, firstBadOffset := reader.lastGoodOffset, detail } }

def stopAtLimit (reader : JournalReader) (detail : Text) : JournalReader :=
  { reader with reachedEnd := true, report := { reader.report with limitReached := true, detail } }

def scanChunkBytes : ℕ := 65536

/-- The read loop of the scan: whole chunks until the limit is passed or the file ends. -/
def scanBuffer (contents : Bytes) (limit : ℕ) : ℕ → ℕ → ℕ → Bytes
  | 0, _, _ => []
  | fuel + 1, position, total =>
    if total < limit ∧ readAt contents position scanChunkBytes ≠ [] then
      readAt contents position scanChunkBytes ++
        scanBuffer contents limit fuel (position + (readAt contents position scanChunkBytes).length)
          (total + (readAt contents position scanChunkBytes).length)
    else []

/-- The test of the scan at one offset of its buffer. -/
def intactAt (config : JournalConfig) (buffer : Bytes) (offset : ℕ) : Bool :=
  decide (recordPrefixBytes ≤ lengthField buffer offset ∧ lengthField buffer offset ≤ config.maxRecordBytes ∧
    offset + recordHeaderBytes + lengthField buffer offset ≤ buffer.length ∧
    (crc32c (readAt buffer (offset + recordHeaderBytes) (lengthField buffer offset))).toNat =
      checksumField buffer offset)

def intactRecordFollows (config : JournalConfig) (contents : Bytes) (fromOffset : ℕ) : Bool :=
  let buffer := scanBuffer contents config.maxRecoveryBytes (contents.length + 1) fromOffset 0
  (List.range (buffer.length + 1 - recordHeaderBytes)).any (intactAt config buffer)

/-- The ordinal is the one behind the last record; the expected one has wrapped when it is zero. -/
def InOrder (expected : Option UInt64) (ordinal : UInt64) : Prop :=
  ∀ next ∈ expected, next ≠ 0 ∧ ordinal = next

instance (expected : Option UInt64) (ordinal : UInt64) : Decidable (InOrder expected ordinal) :=
  inferInstanceAs (Decidable (∀ next ∈ expected, _))

def advance (reader : JournalReader) (kind : JournalRecordKind) (payload : Bytes) : JournalReader :=
  { reader with
    lastGoodOffset := reader.lastGoodOffset + (recordHeaderBytes + payload.length)
    expectedOrdinal := some (payloadOrdinal payload + 1)
    report := { reader.report with
      recordsRead := reader.report.recordsRead + 1
      bytesRead := reader.report.bytesRead + (recordHeaderBytes + payload.length)
      snapshotLoaded := reader.report.snapshotLoaded || kind = .snapshot } }

def accept (reader : JournalReader) (payload : Bytes) : Option JournalRecord × JournalReader :=
  match payloadKind payload, reader.expectedOrdinal with
  | none, _ =>
    (none, reader.degrade (text "a record kind is not recognised; recovery stopped conservatively"))
  | some kind, none =>
    (some ⟨kind, payloadOrdinal payload, payload.drop recordPrefixBytes⟩, reader.advance kind payload)
  | some kind, some expected =>
    if payloadOrdinal payload ≤ expected - 1 then
      (none, reader.degrade (text "journal ordinals are not strictly increasing; recovery stopped"))
    else if payloadOrdinal payload ≠ expected then
      (none, reader.degrade (text "journal ordinals have a gap; recovery stopped conservatively"))
    else (some ⟨kind, payloadOrdinal payload, payload.drop recordPrefixBytes⟩, reader.advance kind payload)

def atLimit (reader : JournalReader) : Prop :=
  reader.config.maxRecoveryRecords ≤ reader.report.recordsRead ∨
    reader.config.maxRecoveryBytes ≤ reader.report.bytesRead

instance (reader : JournalReader) : Decidable reader.atLimit := inferInstanceAs (Decidable (_ ∨ _))

def next (reader : JournalReader) : Option JournalRecord × JournalReader :=
  if reader.reachedEnd then (none, reader)
  else if reader.atLimit then
    (none, reader.stopAtLimit (text "recovery stopped at the configured record or byte limit"))
  else
    match frameAt reader.config reader.contents reader.lastGoodOffset with
    | .atEnd => (none, { reader with reachedEnd := true })
    | .shortHeader =>
      (none, reader.tear (text "a record header is truncated at the end of the journal"))
    | .badLength => (none, reader.tear (text "a record length is outside the permitted range"))
    | .shortBody => (none, reader.tear (text "a record body is truncated at the end of the journal"))
    | .badChecksum =>
      if intactRecordFollows reader.config reader.contents (reader.lastGoodOffset + recordHeaderBytes) then
        (none, reader.degrade (text "a record checksum does not match and intact records follow it"))
      else (none, reader.tear (text "a record checksum does not match at the end of the journal"))
    | .intact payload => reader.accept payload

/-- The replay loop: every record `next` returns, until it returns none. -/
def drain : ℕ → JournalReader → List JournalRecord × JournalReader
  | 0, reader => ([], reader)
  | fuel + 1, reader =>
    match reader.next with
    | (none, after) => ([], after)
    | (some record, after) => (record :: (drain fuel after).1, (drain fuel after).2)

/-- Every record takes at least one byte, so the length of the file bounds the loop. -/
def readAll (reader : JournalReader) : List JournalRecord × JournalReader :=
  drain (reader.contents.length + 1) reader

/-! ## Repair -/

structure RepairIo where
  sizeOpenOk : Bool := true
  sizeReadOk : Bool := true
  flushOk : Bool := true
  truncateOk : Bool := true
  sync : SyncIo := {}
  deriving DecidableEq, Repr, Inhabited

def truncateTail (io : RepairIo) (reader : JournalReader) : Outcome Unit × JournalReader :=
  let truncated := { reader with contents := reader.contents.take reader.lastGoodOffset }
  match syncFile io.sync true with
  | .error status => (.error status, truncated)
  | .ok () =>
    (.ok (), { truncated with
      report := { reader.report with
        bytesDiscarded := reader.contents.length - reader.lastGoodOffset
        truncatedFile := true
        detail := reader.report.detail ++ (if reader.report.detail = [] then [] else text "; ") ++
          text "the damaged tail was truncated to the last verified record" } })

def repairTornTail (io : RepairIo) (reader : JournalReader) : Outcome Unit × JournalReader :=
  if reader.report.tornTail = false then
    (fail .refused (text "the journal tail is intact; no repair is performed"), reader)
  else if io.sizeOpenOk = false then
    (fail .notFound (text "file could not be opened: " ++ reader.config.path), reader)
  else if io.sizeReadOk = false then (fail .io (text "file size could not be read"), reader)
  else if io.flushOk = false then (fail .io (text "journal flush before repair failed"), reader)
  else if io.truncateOk = false then
    (fail .io (text "journal could not be truncated to the last good record"), reader)
  else truncateTail io reader

/-! ## What one call of `next` does -/

/-- The payload is of a record a reader that expects `expected` returns. -/
def Recognised (expected : Option UInt64) (payload : Bytes) : Prop :=
  (payloadKind payload).isSome ∧ InOrder expected (payloadOrdinal payload)

/-- The frame at `offset` makes a reader report a torn tail. -/
def TornAt (config : JournalConfig) (contents : Bytes) (offset : ℕ) : Prop :=
  match frameAt config contents offset with
  | .shortHeader => True
  | .badLength => True
  | .shortBody => True
  | .badChecksum => intactRecordFollows config contents (offset + recordHeaderBytes) = false
  | _ => False

theorem le_pred_iff {ordinal expected : UInt64} (h : expected ≠ 0) : ordinal ≤ expected - 1 ↔ ordinal < expected := by
  have hpos : 1 ≤ expected.toNat := by
    have : expected.toNat ≠ 0 := fun h0 => h (UInt64.toNat_inj.mp h0)
    omega
  have hsub : (expected - 1).toNat = expected.toNat - 1 :=
    UInt64.toNat_sub_of_le _ _ (UInt64.le_iff_toNat_le.mpr hpos)
  rw [UInt64.le_iff_toNat_le, UInt64.lt_iff_toNat_lt, hsub]
  omega

variable {payload : Bytes} {kind : JournalRecordKind}

theorem accept_recognised {reader : JournalReader} (hkind : payloadKind payload = some kind)
    (horder : InOrder reader.expectedOrdinal (payloadOrdinal payload)) : reader.accept payload =
      (some ⟨kind, payloadOrdinal payload, payload.drop recordPrefixBytes⟩, reader.advance kind payload) := by
  rw [accept, hkind]
  cases hexp : reader.expectedOrdinal with
  | none => rfl
  | some expected =>
    obtain ⟨hne, heq⟩ := horder expected hexp
    have hle : ¬ expected ≤ expected - 1 := by
      rw [le_pred_iff hne, UInt64.lt_iff_toNat_lt]
      omega
    simp only [heq, if_neg hle, ne_eq, not_true_eq_false, if_false]

theorem accept_unrecognised {reader : JournalReader} (h : ¬ Recognised reader.expectedOrdinal payload) :
    ∃ detail, reader.accept payload = (none, reader.degrade detail) := by
  rw [accept]
  cases hkind : payloadKind payload with
  | none => exact ⟨_, rfl⟩
  | some kind =>
    cases hexp : reader.expectedOrdinal with
    | none =>
      rw [hexp] at h
      exact absurd ⟨by rw [hkind]; rfl, by intro next hnext; cases hnext⟩ h
    | some expected =>
      dsimp only
      split
      · exact ⟨_, rfl⟩
      · next hle =>
        split
        · exact ⟨_, rfl⟩
        · next hne =>
          rw [not_not] at hne
          refine absurd ⟨by rw [hkind]; rfl, ?_⟩ h
          intro next hnext
          obtain rfl : expected = next := by rw [hexp] at hnext; exact Option.some.inj hnext
          refine ⟨?_, hne⟩
          intro hzero
          apply hle
          rw [hzero]
          exact UInt64.le_iff_toNat_le.mpr (Nat.le_of_lt_succ (payloadOrdinal payload).toNat_lt)

variable {reader : JournalReader}

theorem next_of_atLimit (hgoing : reader.reachedEnd = false) (hlimit : reader.atLimit) :
    reader.next = (none, reader.stopAtLimit (text "recovery stopped at the configured record or byte limit")) := by
  simp only [next, hgoing, Bool.false_eq_true, if_false, if_pos hlimit]

theorem next_of_recognised (hgoing : reader.reachedEnd = false) (hlimit : ¬ reader.atLimit)
    (hframe : frameAt reader.config reader.contents reader.lastGoodOffset = .intact payload)
    (hkind : payloadKind payload = some kind) (horder : InOrder reader.expectedOrdinal (payloadOrdinal payload)) :
    reader.next =
      (some ⟨kind, payloadOrdinal payload, payload.drop recordPrefixBytes⟩, reader.advance kind payload) := by
  simp only [next, hgoing, Bool.false_eq_true, if_false, if_neg hlimit, hframe]
  exact accept_recognised hkind horder

/-- The frame in front of `reader` is not returned, and `after` is the reader behind it. The flags of the report say
which kind of end it was. -/
structure Stops (reader after : JournalReader) : Prop where
  reachedEnd : after.reachedEnd = true
  contents_eq : after.contents = reader.contents
  lastGoodOffset : after.lastGoodOffset = reader.lastGoodOffset
  expectedOrdinal : after.expectedOrdinal = reader.expectedOrdinal
  recordsRead : after.report.recordsRead = reader.report.recordsRead
  limitReached : after.report.limitReached = reader.report.limitReached
  torn_iff : after.report.tornTail = true ↔
    reader.report.tornTail = true ∨ TornAt reader.config reader.contents reader.lastGoodOffset
  degraded_iff : after.report.degraded = true ↔ reader.report.degraded = true ∨
    frameAt reader.config reader.contents reader.lastGoodOffset ≠ .atEnd ∧
      ¬ TornAt reader.config reader.contents reader.lastGoodOffset

theorem next_of_unrecognised (hgoing : reader.reachedEnd = false) (hlimit : ¬ reader.atLimit)
    (hframe : ∀ payload, frameAt reader.config reader.contents reader.lastGoodOffset = .intact payload →
      ¬ Recognised reader.expectedOrdinal payload) : ∃ after, reader.next = (none, after) ∧ Stops reader after := by
  simp only [next, hgoing, Bool.false_eq_true, if_false, if_neg hlimit]
  cases hf : frameAt reader.config reader.contents reader.lastGoodOffset with
  | atEnd => exact ⟨_, rfl, rfl, rfl, rfl, rfl, rfl, rfl, by simp [TornAt, hf], by simp [hf]⟩
  | shortHeader => exact ⟨_, rfl, rfl, rfl, rfl, rfl, rfl, rfl, by simp [tear, TornAt, hf], by simp [tear, TornAt, hf]⟩
  | badLength => exact ⟨_, rfl, rfl, rfl, rfl, rfl, rfl, rfl, by simp [tear, TornAt, hf], by simp [tear, TornAt, hf]⟩
  | shortBody => exact ⟨_, rfl, rfl, rfl, rfl, rfl, rfl, rfl, by simp [tear, TornAt, hf], by simp [tear, TornAt, hf]⟩
  | badChecksum =>
    cases hscan : intactRecordFollows reader.config reader.contents (reader.lastGoodOffset + recordHeaderBytes) with
    | true =>
      exact ⟨_, rfl, rfl, rfl, rfl, rfl, rfl, rfl, by simp [degrade, TornAt, hf, hscan],
        by simp [degrade, TornAt, hf, hscan]⟩
    | false =>
      exact ⟨_, rfl, rfl, rfl, rfl, rfl, rfl, rfl, by simp [tear, TornAt, hf, hscan], by simp [tear, TornAt, hf, hscan]⟩
  | intact payload =>
    obtain ⟨detail, haccept⟩ := accept_unrecognised (hframe payload hf)
    exact ⟨_, haccept, rfl, rfl, rfl, rfl, rfl, rfl, by simp [degrade, TornAt, hf], by simp [degrade, TornAt, hf]⟩

theorem next_cases (hgoing : reader.reachedEnd = false) : (reader.atLimit ∧
      reader.next = (none, reader.stopAtLimit (text "recovery stopped at the configured record or byte limit"))) ∨
    (∃ payload kind, frameAt reader.config reader.contents reader.lastGoodOffset = .intact payload ∧
      payloadKind payload = some kind ∧ InOrder reader.expectedOrdinal (payloadOrdinal payload) ∧ reader.next =
        (some ⟨kind, payloadOrdinal payload, payload.drop recordPrefixBytes⟩, reader.advance kind payload)) ∨
    ((∀ payload, frameAt reader.config reader.contents reader.lastGoodOffset = .intact payload →
      ¬ Recognised reader.expectedOrdinal payload) ∧ ∃ after, reader.next = (none, after) ∧ Stops reader after) := by
  by_cases hlimit : reader.atLimit
  · exact .inl ⟨hlimit, next_of_atLimit hgoing hlimit⟩
  · by_cases hknown : ∃ payload, frameAt reader.config reader.contents reader.lastGoodOffset = .intact payload ∧
        Recognised reader.expectedOrdinal payload
    · obtain ⟨payload, hframe, hsome, horder⟩ := hknown
      obtain ⟨kind, hkind⟩ := Option.isSome_iff_exists.mp hsome
      exact .inr (.inl ⟨payload, kind, hframe, hkind, horder, next_of_recognised hgoing hlimit hframe hkind horder⟩)
    · have hframe : ∀ payload, frameAt reader.config reader.contents reader.lastGoodOffset = .intact payload →
          ¬ Recognised reader.expectedOrdinal payload := fun payload hpayload hrec => hknown ⟨payload, hpayload, hrec⟩
      exact .inr (.inr ⟨hframe, next_of_unrecognised hgoing hlimit hframe⟩)

theorem not_atLimit {fuel : ℕ} (hgoing : reader.reachedEnd = false)
    (hlimit : (drain (fuel + 1) reader).2.report.limitReached = false) : ¬ reader.atLimit := by
  intro hat
  rw [drain, next_of_atLimit hgoing hat] at hlimit
  simp [stopAtLimit] at hlimit

end JournalReader

end Lqf
