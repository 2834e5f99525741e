import LinkQualityFabric.Persist.JournalWriter

/-! The threads of a background journal: `writer_loop`, `append`, `flush`, `compact` and `stop` of
`src/persist/journal.cpp`, step by step.

A step is a section under the queue lock, one piece of work on the file behind it, a notification, or the taking
of the compaction lock. Any number of calls stand at any of their places at once; the compaction lock is held by
the calls that have passed it. A wait on a condition variable is a place of its own, which only a notification or
a spurious wake-up ends. A compaction replaces the file in one step, which is all the stream sees of it as long as the
writer waits in its loop: a writer that `stop` has sent out of the loop would use the stream meanwhile. -/
namespace Lqf
open Foundations
set_option autoImplicit false

/-! ## Places -/

inductive WriterPlace where
  /-- About to test the predicate of its wait. -/
  | ready
  | asleep
  /-- With a record taken from the queue. -/
  | taken
  | wrote (result : Outcome Unit)
  /-- Behind the loop. -/
  | leaving
  | failing (status : Status)
  | closing
  | ended
  deriving DecidableEq, Repr

/-- Where a call stands. A flush carries how many records were accepted before it was called. -/
inductive CallPlace where
  | appendWaits (record : JournalRecord)
  | appendHolds (record : JournalRecord)
  | appendNotifies
  | appended (answer : Outcome Unit)
  | flushWaits (before : ℕ)
  | flushTests (before : ℕ)
  | flushSleeps (before : ℕ)
  | flushed (before : ℕ) (answer : Outcome Unit)
  | compactWaits (snapshot : JournalRecord)
  | compactTests (snapshot : JournalRecord)
  | compactSleeps (snapshot : JournalRecord)
  | compactReplaces (snapshot : JournalRecord)
  | compactResumes (answer : Outcome Unit)
  | compactNotifies (answer : Outcome Unit)
  | compacted (answer : Outcome Unit)
  | stopMarks
  | stopNotifies (join : Bool)
  | stopJoins
  | stopCloses
  | stopped (answer : Outcome Unit)
  deriving DecidableEq, Repr

namespace CallPlace

def shared : CallPlace → Bool
  | appendHolds _ | appendNotifies | flushTests _ | flushSleeps _ => true
  | _ => false

def unique : CallPlace → Bool
  | compactTests _ | compactSleeps _ | compactReplaces _ | compactResumes _ | compactNotifies _ => true
  | _ => false

def holds (place : CallPlace) : Bool := place.unique || place.shared

def returned : CallPlace → Bool
  | appended _ | flushed _ _ | compacted _ | stopped _ => true
  | _ => false

def stops : CallPlace → Bool
  | stopMarks | stopNotifies _ | stopJoins | stopCloses => true
  | _ => false

/-- What a notification of `idle_cv_` makes of a place. -/
def wake : CallPlace → CallPlace
  | flushSleeps before => flushTests before
  | compactSleeps snapshot => compactTests snapshot
  | place => place

end CallPlace

/-! ## The journal and its threads -/

structure ThreadedJournal where
  journal : BackgroundJournal
  paused : Bool
  writer : WriterPlace
  /-- `stop` has joined the writer. -/
  joined : Bool
  calls : List CallPlace
  /-- The file as it was opened, every record `append` has accepted, the last snapshot and how many records were
  accepted before it. No step reads these. -/
  opened : Bytes
  accepted : List JournalRecord
  snapshot : Option JournalRecord
  covered : ℕ
  deriving DecidableEq, Repr

inductive JournalCall where
  | append (record : JournalRecord)
  | flush
  | compact (ordinal : UInt64) (body : Bytes)
  | stop
  deriving DecidableEq, Repr

structure ThreadIo where
  short : Option ℕ := none
  sync : SyncIo := {}
  compaction : BackgroundJournal.CompactIo := {}
  deriving DecidableEq, Repr

inductive ThreadEvent where
  | call (call : JournalCall)
  | caller (index : ℕ) (io : ThreadIo)
  | writer (io : ThreadIo)
  | wakeCaller (index : ℕ)
  | wakeWriter
  deriving DecidableEq, Repr

namespace BackgroundJournal

/-- The predicate that `flush` and `compact` wait for. -/
def Quiescent (journal : BackgroundJournal) : Prop :=
  journal.queue = [] ∧ journal.writing = none ∨ journal.failure.isSome = true ∨ journal.isOpen = false

instance (journal : BackgroundJournal) : Decidable journal.Quiescent := inferInstanceAs (Decidable (_ ∧ _ ∨ _ ∨ _))

def Wanted (journal : BackgroundJournal) (paused : Bool) : Prop :=
  journal.queue ≠ [] ∧ paused = false ∨ journal.stopping = true ∨ journal.failure.isSome = true

instance (journal : BackgroundJournal) (paused : Bool) : Decidable (journal.Wanted paused) :=
  inferInstanceAs (Decidable (_ ∧ _ ∨ _ ∨ _))

end BackgroundJournal

namespace ThreadedJournal
open BackgroundJournal

def start (journal : BackgroundJournal) : ThreadedJournal where
  journal := journal
  paused := false
  writer := .ready
  joined := false
  calls := []
  opened := journal.contents
  accepted := []
  snapshot := none
  covered := 0

def notifyIdle (state : ThreadedJournal) : ThreadedJournal := { state with calls := state.calls.map CallPlace.wake }

def notifyQueue (state : ThreadedJournal) : ThreadedJournal :=
  { state with writer := if state.writer = .asleep then .ready else state.writer }

/-! ## The writer -/

/-- The wait of the loop and the section behind it. -/
def writerTest (state : ThreadedJournal) : ThreadedJournal :=
  if ¬ state.journal.Wanted state.paused then { state with writer := .asleep }
  else if state.paused then state.notifyQueue
  else if state.journal.queue = [] then
    if state.journal.stopping ∨ state.journal.failure.isSome then { state with writer := .leaving } else state
  else { state with journal := state.journal.take, writer := .taken }

/-- The record goes to the file without a lock. -/
def writerWrite (io : ThreadIo) (state : ThreadedJournal) : ThreadedJournal :=
  match state.journal.writing, state.journal.position, io.short with
  | none, _, _ => state
  | some _, none, _ =>
    { state with writer := .wrote (fail .unavailable (text "journal file is not open")) }
  | some record, some position, none =>
    { state with journal := state.journal.putBytes position (encodeRecordBytes record), writer := .wrote (.ok ()) }
  | some record, some position, some count =>
    { state with
      journal := state.journal.putBytes position ((encodeRecordBytes record).take count)
      writer := .wrote (fail .io (text "journal record could not be written")) }

def writerBook (result : Outcome Unit) (state : ThreadedJournal) : ThreadedJournal :=
  match result, state.journal.writing with
  | .ok (), some record => { state with journal := state.journal.bookWritten record, writer := .ready }.notifyIdle
  | .ok (), none => { state with writer := .ready }.notifyIdle
  | .error status, _ => { state with journal := state.journal.failWith status, writer := .ready }.notifyIdle

def writerSync (io : ThreadIo) (state : ThreadedJournal) : ThreadedJournal :=
  match state.journal.position, syncFile io.sync state.journal.config.fsyncOnFlush with
  | some _, .error status => { state with writer := .failing status }
  | _, _ => { state with writer := .closing }

def writerStep (io : ThreadIo) (state : ThreadedJournal) : ThreadedJournal :=
  match state.writer with
  | .ready => state.writerTest
  | .asleep => state
  | .taken => state.writerWrite io
  | .wrote result => state.writerBook result
  | .leaving => state.writerSync io
  | .failing status => { state with journal := { state.journal with failure := some status }, writer := .closing }
  | .closing => { state with journal := { state.journal with writing := none }, writer := .ended }.notifyIdle
  | .ended => state

/-! ## The calls -/

def enter (state : ThreadedJournal) : JournalCall → CallPlace
  | .append record =>
    if state.journal.config.enabled = false then
      .appended (fail .refused (text "the journal is disabled by configuration"))
    else if state.journal.config.maxRecordBytes < record.body.length then
      .appended (fail .limitExceeded (text "journal record exceeds the record limit"))
    else .appendWaits record
  | .flush =>
    if state.journal.config.enabled = false then
      .flushed state.accepted.length (fail .refused (text "the journal is disabled by configuration"))
    else .flushWaits state.accepted.length
  | .compact ordinal body =>
    if state.journal.config.enabled = false then
      .compacted (fail .refused (text "the journal is disabled by configuration"))
    else if state.journal.config.maxRecordBytes < body.length then
      .compacted (fail .limitExceeded (text "snapshot exceeds the journal record limit; compaction refused"))
    else .compactWaits ⟨.snapshot, ordinal, body⟩
  | .stop => .stopMarks

def appendSection (record : JournalRecord) (state : ThreadedJournal) : ThreadedJournal × CallPlace :=
  match state.journal.append record.kind record.ordinal record.body with
  | .error status => (state, .appended (.error status))
  | .ok after => ({ state with journal := after, accepted := state.accepted ++ [record] }, .appendNotifies)

def flushSection (io : ThreadIo) (before : ℕ) (state : ThreadedJournal) : ThreadedJournal × CallPlace :=
  if state.journal.Quiescent then
    ({ state with journal := (flushIdle { sync := io.sync } state.journal).2 },
      .flushed before (flushIdle { sync := io.sync } state.journal).1)
  else (state, .flushSleeps before)

def compactSection (snapshot : JournalRecord) (state : ThreadedJournal) : ThreadedJournal × CallPlace :=
  if ¬ state.journal.Quiescent then (state, .compactSleeps snapshot)
  else if state.journal.isOpen = false then (state, .compacted (fail .unavailable (text "the journal is not open")))
  else
    match state.journal.failure with
    | some status => (state, .compacted (.error status))
    | none =>
      if state.journal.Superseded snapshot.ordinal then
        (state, .compacted (fail .internal
          (text "compaction was requested for an ordinal that is already superseded")))
      else ({ state with paused := true }, .compactReplaces snapshot)

def compactReplace (io : ThreadIo) (snapshot : JournalRecord) (state : ThreadedJournal) : ThreadedJournal × CallPlace :=
  match replaceFile io.compaction snapshot state.journal with
  | (.ok (), after) =>
    ({ state with journal := after, snapshot := some snapshot, covered := state.accepted.length },
      .compactResumes (.ok ()))
  | (.error status, after) => ({ state with journal := after }, .compactResumes (.error status))

def stopMark (state : ThreadedJournal) : ThreadedJournal × CallPlace :=
  (if state.journal.isOpen ∨ state.joined = false then
      { state with journal := { state.journal with stopping := true, accepting := false } }
    else state,
    .stopNotifies (!state.joined))

def stopClose (io : ThreadIo) (state : ThreadedJournal) : ThreadedJournal × CallPlace :=
  ({ state with journal := { state.journal with position := none, isOpen := false, accepting := false } },
    .stopped (closeResult { closeSync := io.sync } state.journal))

/-- The next step of a call, or nothing while it is blocked or has returned. -/
def act (io : ThreadIo) (state : ThreadedJournal) : CallPlace → Option (ThreadedJournal × CallPlace)
  | .appendWaits record => if state.calls.any CallPlace.unique then none else some (state, .appendHolds record)
  | .appendHolds record => some (state.appendSection record)
  | .appendNotifies => some (state.notifyQueue, .appended (.ok ()))
  | .flushWaits before => if state.calls.any CallPlace.unique then none else some (state, .flushTests before)
  | .flushTests before => some (state.flushSection io before)
  | .compactWaits snapshot =>
    if state.calls.any CallPlace.holds then none else some (state, .compactTests snapshot)
  | .compactTests snapshot => some (state.compactSection snapshot)
  | .compactReplaces snapshot => some (state.compactReplace io snapshot)
  | .compactResumes answer => some ({ state with paused := false }, .compactNotifies answer)
  | .compactNotifies answer => some (state.notifyQueue, .compacted answer)
  | .stopMarks => some state.stopMark
  | .stopNotifies join => some (state.notifyQueue, if join then .stopJoins else .stopCloses)
  | .stopJoins => if state.writer = .ended then some ({ state with joined := true }, .stopCloses) else none
  | .stopCloses => some (state.stopClose io)
  | .flushSleeps _ | .compactSleeps _ => none
  | .appended _ | .flushed _ _ | .compacted _ | .stopped _ => none

def callerStep (index : ℕ) (io : ThreadIo) (state : ThreadedJournal) : ThreadedJournal :=
  match state.calls[index]?.bind (state.act io) with
  | none => state
  | some (after, place) => { after with calls := after.calls.set index place }

def wakeCaller (index : ℕ) (state : ThreadedJournal) : ThreadedJournal :=
  match state.calls[index]? with
  | none => state
  | some place => { state with calls := state.calls.set index place.wake }

/-- The owner of the journal calls `stop`, and no second time before it has returned. -/
def step (state : ThreadedJournal) : ThreadEvent → ThreadedJournal
  | .call call =>
    if call = .stop ∧ state.calls.any CallPlace.stops then state
    else { state with calls := state.calls ++ [state.enter call] }
  | .caller index io => state.callerStep index io
  | .writer io => state.writerStep io
  | .wakeCaller index => state.wakeCaller index
  | .wakeWriter => state.notifyQueue

def machine : Machine ThreadedJournal ThreadEvent Unit := ⟨fun state event => ((), state.step event)⟩

def threadConfig : JournalConfig := { JournalConfig.defaults with enabled := true, path := text "journal" }

def Granted : ThreadEvent → Prop
  | .caller _ io => io = {}
  | .writer io => io = {}
  | _ => True

end ThreadedJournal

end Lqf
