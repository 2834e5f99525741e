import LinkQualityFabric.Foundations.Run
import LinkQualityFabric.Persist.JournalReader

/-! The journal that is written in the background: `BackgroundJournal` of `src/persist/journal.cpp`.

Callers append to a bounded queue and a writer thread moves the queue into the file, one record at a
time. The file is its bytes and the position of the stream on it. Compaction waits for the writer, closes
the stream, writes a snapshot to a temporary file and renames it over the journal. Every call is one step
under its lock; what the file system grants to a step is an argument of it. -/
namespace Lqf
open Foundations
set_option autoImplicit false

structure BackgroundJournal where
  config : JournalConfig
  contents : Bytes
  temporary : Option Bytes
  /-- The stream on the file, while one is open. -/
  position : Option ℕ
  queue : List JournalRecord
  /-- The record the writer has taken from the queue and not yet finished. -/
  writing : Option JournalRecord
  isOpen : Bool
  accepting : Bool
  stopping : Bool
  failure : Option Status
  lastEnqueued : Option UInt64
  expected : Option UInt64
  deriving DecidableEq, Repr, Inhabited

namespace BackgroundJournal

/-! ## Opening -/

structure StartIo where
  removeOk : Bool := true
  openOk : Bool := true
  headerShort : Option ℕ := none
  sync : SyncIo := {}
  deriving DecidableEq, Repr, Inhabited

def started (config : JournalConfig) (contents : Bytes) : BackgroundJournal :=
  { config, contents, temporary := none, position := some contents.length, queue := [], writing := none,
    isOpen := true, accepting := true, stopping := false, failure := none, lastEnqueued := none, expected := none }

def startFresh (io : StartIo) (config : JournalConfig) (epoch : UInt64) (wallNanos : Int64) :
    Outcome BackgroundJournal :=
  match io.headerShort with
  | some _ => fail .io (text "journal header could not be written")
  | none => do
    syncFile io.sync config.fsyncOnFlush
    return started config (buildFileHeader epoch wallNanos)

/-- Construction and `open`. -/
def start (io : StartIo) (config : JournalConfig) (disk : Disk) (epoch : UInt64) (wallNanos : Int64) :
    Outcome BackgroundJournal := do
  refuseIf (config.enabled = false) .refused (text "the journal is disabled by configuration")
  refuseIf (disk.temporary.isSome ∧ io.removeOk = false) .io
    (text "file could not be removed: " ++ config.path ++ text ".tmp")
  refuseIf (io.openOk = false) .io (text "journal file could not be opened for append")
  if disk.journal.getD [] = [] then startFresh io config epoch wallNanos
  else return started config (disk.journal.getD [])

/-! ## Appending -/

def append (journal : BackgroundJournal) (kind : JournalRecordKind) (ordinal : UInt64) (body : Bytes) :
    Outcome BackgroundJournal := do
  refuseIf (journal.config.enabled = false) .refused (text "the journal is disabled by configuration")
  refuseIf (journal.config.maxRecordBytes < body.length) .limitExceeded
    (text "journal record exceeds the record limit")
  refuseIf (journal.isOpen = false ∨ journal.accepting = false) .unavailable
    (text "the journal is not accepting records")
  journal.failure.elim (.ok ()) .error
  refuseIf (journal.config.maxQueueDepth ≤ journal.queue.length) .busy
    (text "journal queue is full; the record was refused")
  refuseIf (∃ last ∈ journal.lastEnqueued, ordinal ≠ last + 1) .internal
    (text "journal ordinals must increase by exactly one; the record was refused")
  return { journal with lastEnqueued := some ordinal, queue := journal.queue ++ [⟨kind, ordinal, body⟩] }

def hasCapacity (journal : BackgroundJournal) : Bool :=
  journal.config.enabled && journal.isOpen && journal.accepting && journal.failure.isNone &&
    decide (journal.queue.length < journal.config.maxQueueDepth)

/-! ## The writer -/

def take (journal : BackgroundJournal) : BackgroundJournal :=
  match journal.writing, journal.queue with
  | none, record :: rest => { journal with writing := some record, queue := rest }
  | _, _ => journal

def putBytes (journal : BackgroundJournal) (position : ℕ) (data : Bytes) : BackgroundJournal :=
  { journal with contents := writeAt journal.contents position data, position := some (position + data.length) }

/-- A failed write ends the writer and drops what is queued. -/
def failWith (journal : BackgroundJournal) (status : Status) : BackgroundJournal :=
  { journal with writing := none, failure := some status, queue := [] }

def bookWritten (journal : BackgroundJournal) (record : JournalRecord) : BackgroundJournal :=
  { journal with writing := none, expected := some (record.ordinal + 1) }

/-- The writer finishes the record it has taken; a short write transfers `count` bytes and fails. -/
def finish (journal : BackgroundJournal) (short : Option ℕ) : BackgroundJournal :=
  match journal.writing, journal.position, short with
  | none, _, _ => journal
  | some _, none, _ => journal.failWith ⟨.unavailable, text "journal file is not open"⟩
  | some record, some position, none => (journal.putBytes position (encodeRecordBytes record)).bookWritten record
  | some record, some position, some count =>
    (journal.putBytes position ((encodeRecordBytes record).take count)).failWith
      ⟨.io, text "journal record could not be written"⟩

def pending (journal : BackgroundJournal) : List JournalRecord := journal.writing.toList ++ journal.queue

def drainQueue : ℕ → List (Option ℕ) → BackgroundJournal → BackgroundJournal
  | 0, _, journal => journal
  | count + 1, shorts, journal => drainQueue count shorts.tail (journal.take.finish (shorts.headD none))

/-- The writer runs until it is idle; `shorts` lists its writes, complete where the list has ended. -/
def settle (journal : BackgroundJournal) (shorts : List (Option ℕ)) : BackgroundJournal :=
  drainQueue journal.pending.length shorts journal

/-- `idle_cv_.wait`: a failed or closed journal is not waited for. -/
def awaitIdle (journal : BackgroundJournal) (shorts : List (Option ℕ)) : BackgroundJournal :=
  if journal.isOpen ∧ journal.failure = none then journal.settle shorts else journal

/-! ## Flushing and stopping -/

structure FlushIo where
  writes : List (Option ℕ) := []
  sync : SyncIo := {}
  deriving DecidableEq, Repr, Inhabited

def flushIdle (io : FlushIo) (journal : BackgroundJournal) : Outcome Unit × BackgroundJournal :=
  if journal.isOpen = false then (fail .unavailable (text "the journal is not open"), journal)
  else
    match journal.failure, journal.position, syncFile io.sync journal.config.fsyncOnFlush with
    | some status, _, _ => (.error status, journal)
    | none, some _, .error status => (.error status, { journal with failure := some status })
    | none, _, _ => (.ok (), journal)

def flush (io : FlushIo) (journal : BackgroundJournal) : Outcome Unit × BackgroundJournal :=
  if journal.config.enabled = false then
    (fail .refused (text "the journal is disabled by configuration"), journal)
  else flushIdle io (journal.awaitIdle io.writes)

structure StopIo where
  writes : List (Option ℕ) := []
  writerSync : SyncIo := {}
  closeSync : SyncIo := {}
  deriving DecidableEq, Repr, Inhabited

/-- The writer drains the queue and synchronises the file before it ends. -/
def joinWriter (io : StopIo) (journal : BackgroundJournal) : BackgroundJournal :=
  let drained := journal.settle io.writes
  match drained.position, syncFile io.writerSync journal.config.fsyncOnFlush with
  | some _, .error status => { drained with failure := some status }
  | _, _ => drained

def closeResult (io : StopIo) (journal : BackgroundJournal) : Outcome Unit :=
  match journal.failure, journal.position, syncFile io.closeSync journal.config.fsyncOnFlush with
  | some status, _, _ => .error status
  | none, some _, .error status => .error status
  | none, _, _ => .ok ()

def stop (io : StopIo) (journal : BackgroundJournal) : Outcome Unit × BackgroundJournal :=
  let joined := joinWriter io { journal with stopping := true, accepting := false }
  (closeResult io joined, { joined with position := none, isOpen := false, accepting := false })

/-! ## Compaction -/

structure CompactIo where
  writes : List (Option ℕ) := []
  createOk : Bool := true
  headerShort : Option ℕ := none
  snapshotShort : Option ℕ := none
  sync : SyncIo := {}
  renameOk : Bool := true
  reopenOk : Bool := true
  fallbackOk : Bool := true
  deriving DecidableEq, Repr, Inhabited

/-- The temporary file, or the status of the first step that failed and what it left of the file. -/
def writeTemporary (io : CompactIo) (config : JournalConfig) (snapshot : JournalRecord) :
    Except (Status × Option Bytes) Bytes :=
  let header := buildFileHeader 0 0
  let encoded := encodeRecordBytes snapshot
  match io.createOk, io.headerShort, io.snapshotShort, syncFile io.sync config.fsyncOnFlush with
  | false, _, _, _ => .error (⟨.io, text "compaction temporary file could not be created"⟩, none)
  | true, some count, _, _ =>
    .error (⟨.io, text "compaction header could not be written"⟩, some (header.take count))
  | true, none, some count, _ =>
    .error (⟨.io, text "compaction snapshot could not be written"⟩, some (header ++ encoded.take count))
  | true, none, none, .error status => .error (status, some (header ++ encoded))
  | true, none, none, .ok () => .ok (header ++ encoded)

/-- The stream was closed for the compaction; it is opened again at the start of the file, or the
journal is closed. -/
def fallBack (io : CompactIo) (status : Status) (journal : BackgroundJournal) :
    Outcome Unit × BackgroundJournal :=
  if io.fallbackOk then (.error status, { journal with position := some 0 })
  else
    (.error status, { journal with position := none, failure := some status, isOpen := false, accepting := false })

def reopen (io : CompactIo) (snapshotOrdinal : UInt64) (journal : BackgroundJournal) :
    Outcome Unit × BackgroundJournal :=
  if io.reopenOk then
    (.ok (), { journal with
      position := some journal.contents.length
      expected := some (snapshotOrdinal + 1)
      lastEnqueued := some snapshotOrdinal })
  else fallBack io ⟨.io, text "journal could not be reopened after compaction"⟩ journal

def replaceFile (io : CompactIo) (snapshot : JournalRecord) (journal : BackgroundJournal) :
    Outcome Unit × BackgroundJournal :=
  match writeTemporary io journal.config snapshot, io.renameOk with
  | .error (status, left), _ => fallBack io status { journal with temporary := left.or journal.temporary }
  | .ok fresh, false =>
    fallBack io ⟨.io, text "atomic replace failed"⟩ { journal with temporary := some fresh }
  | .ok fresh, true => reopen io snapshot.ordinal { journal with contents := fresh, temporary := none }

def Superseded (journal : BackgroundJournal) (snapshotOrdinal : UInt64) : Prop :=
  ∃ next ∈ journal.expected, snapshotOrdinal + 1 < next

instance (journal : BackgroundJournal) (snapshotOrdinal : UInt64) :
    Decidable (journal.Superseded snapshotOrdinal) := inferInstanceAs (Decidable (∃ next ∈ journal.expected, _))

def compactIdle (io : CompactIo) (snapshot : JournalRecord) (journal : BackgroundJournal) :
    Outcome Unit × BackgroundJournal :=
  if journal.isOpen = false then (fail .unavailable (text "the journal is not open"), journal)
  else
    match journal.failure with
    | some status => (.error status, journal)
    | none =>
      if journal.Superseded snapshot.ordinal then
        (fail .internal (text "compaction was requested for an ordinal that is already superseded"), journal)
      else replaceFile io snapshot journal

def compact (io : CompactIo) (snapshotOrdinal : UInt64) (snapshotBody : Bytes) (journal : BackgroundJournal) :
    Outcome Unit × BackgroundJournal :=
  if journal.config.enabled = false then
    (fail .refused (text "the journal is disabled by configuration"), journal)
  else if journal.config.maxRecordBytes < snapshotBody.length then
    (fail .limitExceeded (text "snapshot exceeds the journal record limit; compaction refused"), journal)
  else compactIdle io ⟨.snapshot, snapshotOrdinal, snapshotBody⟩ (journal.awaitIdle io.writes)

/-! ## Runs -/

inductive JournalEvent where
  | append (kind : JournalRecordKind) (ordinal : UInt64) (body : Bytes)
  | take
  | finish (short : Option ℕ)
  | compact (io : CompactIo) (snapshotOrdinal : UInt64) (snapshotBody : Bytes)
  deriving DecidableEq, Repr

def respond (journal : BackgroundJournal) : JournalEvent → Outcome Unit × BackgroundJournal
  | .append kind ordinal body =>
    match journal.append kind ordinal body with
    | .ok after => (.ok (), after)
    | .error status => (.error status, journal)
  | .take => (.ok (), journal.take)
  | .finish short => (.ok (), journal.finish short)
  | .compact io snapshotOrdinal snapshotBody => journal.compact io snapshotOrdinal snapshotBody

def machine : Machine BackgroundJournal JournalEvent (Outcome Unit) := ⟨respond⟩

def Granted : JournalEvent → Prop
  | .finish short => short = none
  | .compact io _ _ => io = {}
  | _ => True

instance (event : JournalEvent) : Decidable (Granted event) := by
  cases event <;> unfold Granted <;> infer_instance

end BackgroundJournal

end Lqf
