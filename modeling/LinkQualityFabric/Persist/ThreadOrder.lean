import LinkQualityFabric.Persist.JournalRoundTrip
import LinkQualityFabric.Persist.ThreadInvariant

/-! Interleavings in which the file system fails nothing.

At every moment the file is what it was opened with, or the last snapshot, and behind it the accepted records in
the order in which they were enqueued, each once, up to the place the writer has come to. -/
namespace Lqf.ThreadedJournal
open Foundations
set_option autoImplicit false
set_option maxRecDepth 10000

open BackgroundJournal

/-! ## What the file is -/

/-- What the records accepted since the last compaction stand behind. -/
def head (state : ThreadedJournal) : Bytes :=
  state.snapshot.elim state.opened fun snapshot => buildFileHeader 0 0 ++ encodeRecordBytes snapshot

/-- The file has a prefix of the records accepted since the last compaction, and the first `count` accepted records
are in it or were accepted before that. -/
def InFile (state : ThreadedJournal) (count : ℕ) : Prop :=
  ∃ written, state.journal.contents = state.head ++ encodeRecords written ∧
    written <+: state.accepted.drop state.covered ∧ count ≤ state.covered + written.length

structure Orderly (state : ThreadedJournal) : Prop where
  file : state.InFile 0
  flushed : ∀ before, .flushed before (.ok ()) ∈ state.calls → state.InFile before
  stopped : ∀ answer, .stopped answer ∈ state.calls → state.InFile state.accepted.length

/-! ## The invariant -/

def unwritten (state : ThreadedJournal) : List JournalRecord :=
  (if state.writer = .taken then state.journal.writing.toList else []) ++ state.journal.queue

structure Filed (state : ThreadedJournal) : Prop where
  unfailed : state.journal.failure = none
  wrote : ∀ result, state.writer = .wrote result → result = .ok ()
  synced : ∀ status, state.writer ≠ .failing status
  position : state.writer ≠ .ended → state.journal.position = some state.journal.contents.length
  covered : state.covered ≤ state.accepted.length
  written : ∃ written, state.journal.contents = state.head ++ encodeRecords written ∧
    state.accepted.drop state.covered = written ++ state.unwritten

def PlaceFiled (state : ThreadedJournal) : CallPlace → Prop
  | .flushWaits before | .flushTests before | .flushSleeps before => before ≤ state.accepted.length
  | .flushed before (.ok ()) => before + state.unwritten.length ≤ state.accepted.length
  | _ => True

structure Kept (state : ThreadedJournal) : Prop where
  sane : state.Sane
  filed : state.Filed
  places : ∀ place ∈ state.calls, state.PlaceFiled place

variable {state : ThreadedJournal}

theorem unwritten_idle (h : state.Core) (hidle : state.Idle) : state.unwritten = [] := by
  have hnot : state.writer ≠ .taken := by
    intro htaken
    have hwriting := h.writing
    rw [htaken, hidle.2] at hwriting
    cases hwriting
  rw [unwritten, if_neg hnot, hidle.1]
  rfl

theorem Filed.inFile (h : state.Filed) {count : ℕ} (hcount : count + state.unwritten.length ≤ state.accepted.length) :
    state.InFile count := by
  obtain ⟨written, hcontents, hrecords⟩ := h.written
  have hlength := congrArg List.length hrecords
  rw [List.length_drop, List.length_append] at hlength
  have hcovered := h.covered
  exact ⟨written, hcontents, ⟨state.unwritten, hrecords.symm⟩, by omega⟩

theorem Kept.orderly (h : state.Kept) : state.Orderly where
  file := by
    obtain ⟨written, hcontents, hrecords⟩ := h.filed.written
    exact ⟨written, hcontents, ⟨state.unwritten, hrecords.symm⟩, Nat.zero_le _⟩
  flushed := fun before hflushed => h.filed.inFile (h.places _ hflushed)
  stopped := by
    intro answer hstopped
    refine h.filed.inFile ?_
    rw [unwritten_idle h.sane.core (h.sane.core.idle (h.sane.places _ hstopped))]
    exact le_rfl

theorem start_kept {io : StartIo} {config : JournalConfig} {disk : Disk} {epoch : UInt64} {wallNanos : Int64}
    {journal : BackgroundJournal} (h : BackgroundJournal.start io config disk epoch wallNanos = .ok journal) :
    (start journal).Kept := by
  refine ⟨start_sane h, ?_, fun _ hplace => nomatch hplace⟩
  obtain ⟨-, rfl⟩ := start_eq_ok h
  exact ⟨rfl, nofun, nofun, fun _ => rfl, le_rfl, [], by simp [head, start, started], rfl⟩

/-! ## Steps of a call -/

section Calls
variable {state after : ThreadedJournal}

theorem PlaceFiled.imp {place : CallPlace} (h : state.PlaceFiled place)
    (haccepted : state.accepted.length ≤ after.accepted.length)
    (hunwritten : after.unwritten.length + state.accepted.length ≤ after.accepted.length + state.unwritten.length) :
    after.PlaceFiled place := by
  cases place with
  | flushWaits before => exact le_trans h haccepted
  | flushTests before => exact le_trans h haccepted
  | flushSleeps before => exact le_trans h haccepted
  | flushed before answer =>
    cases answer with
    | error status => trivial
    | ok u =>
      have hbefore : before + state.unwritten.length ≤ state.accepted.length := h
      show before + after.unwritten.length ≤ after.accepted.length
      omega
  | _ => trivial

structure SameLedger (state after : ThreadedJournal) : Prop where
  opened : after.opened = state.opened
  accepted : after.accepted = state.accepted
  snapshot : after.snapshot = state.snapshot
  covered : after.covered = state.covered

theorem SameLedger.head (h : SameLedger state after) : after.head = state.head := by
  rw [ThreadedJournal.head, ThreadedJournal.head, h.opened, h.snapshot]

structure Keeps (state after : ThreadedJournal) (old new : CallPlace) : Prop where
  opened : after.opened = state.opened
  calls : after.calls = state.calls
  filed : after.Filed
  others : ∀ place, state.PlaceFiled place → after.PlaceFiled place
  place : state.PlaceFiled old → after.PlaceFiled new

theorem Filed.beside (h : state.Filed) (old new : CallPlace) (hfailure : after.journal.failure = state.journal.failure)
    (hcontents : after.journal.contents = state.journal.contents) (hqueue : after.journal.queue = state.journal.queue)
    (hwriting : after.journal.writing = state.journal.writing) (hposition : after.writer ≠ .ended →
      after.journal.position = state.journal.position) (hledger : SameLedger state after)
    (hcalls : after.calls = state.calls)
    (hwriter : after.writer = state.writer ∨ state.writer = .asleep ∧ after.writer = .ready)
    (hnew : state.PlaceFiled old → after.PlaceFiled new) : Keeps state after old new := by
  have hcases : ∀ place, place ≠ .ready → place ≠ .asleep → (after.writer = place ↔ state.writer = place) := by
    intro place hready hasleep
    rcases hwriter with hsame | ⟨hbefore, hafter⟩
    · rw [hsame]
    · rw [hbefore, hafter]
      exact ⟨fun hyes => absurd hyes.symm hready, fun hyes => absurd hyes.symm hasleep⟩
  have hunwritten : after.unwritten = state.unwritten := by
    simp only [unwritten, hcases .taken nofun nofun, hwriting, hqueue]
  refine ⟨hledger.opened, hcalls, ⟨hfailure.trans h.unfailed, ?_, ?_, ?_, ?_, ?_⟩, ?_, hnew⟩
  · exact fun result hwrote => h.wrote result ((hcases (.wrote result) nofun nofun).mp hwrote)
  · exact fun status hfailing => h.synced status ((hcases (.failing status) nofun nofun).mp hfailing)
  · intro hended
    rw [hposition hended, hcontents]
    exact h.position fun hyes => hended ((hcases .ended nofun nofun).mpr hyes)
  · rw [hledger.covered, hledger.accepted]
    exact h.covered
  · rw [hcontents, hledger.head, hledger.accepted, hledger.covered, hunwritten]
    exact h.written
  · intro place hplace
    exact hplace.imp (by rw [hledger.accepted]) (by rw [hunwritten, hledger.accepted, Nat.add_comm])

theorem Filed.notify (h : state.Filed) (old new : CallPlace)
    (hnew : state.PlaceFiled old → state.notifyQueue.PlaceFiled new) :
    Keeps state state.notifyQueue old new := by
  refine h.beside old new rfl rfl rfl rfl (fun _ => rfl) ⟨rfl, rfl, rfl, rfl⟩ rfl ?_ hnew
  unfold notifyQueue
  by_cases hasleep : state.writer = .asleep
  · exact .inr ⟨hasleep, by simp [hasleep]⟩
  · exact .inl (by simp [hasleep])

theorem Filed.append (h : state.Filed) (record : JournalRecord) {journal : BackgroundJournal}
    (happend : state.journal.append record.kind record.ordinal record.body = .ok journal) :
    Keeps state { state with journal := journal, accepted := state.accepted ++ [record] } (.appendHolds record)
      .appendNotifies := by
  obtain ⟨-, -, -, -, -, -, -, rfl⟩ := append_eq_ok.mp happend
  have hunwritten : unwritten { state with
      journal := { state.journal with
        lastEnqueued := some record.ordinal
        queue := state.journal.queue ++ [⟨record.kind, record.ordinal, record.body⟩] }
      accepted := state.accepted ++ [record] } = state.unwritten ++ [record] := by
    simp [unwritten]
  refine ⟨rfl, rfl, ⟨h.unfailed, h.wrote, h.synced, h.position, ?_, ?_⟩, ?_, fun _ => trivial⟩
  · rw [List.length_append]
    exact le_trans h.covered (Nat.le_add_right _ _)
  · obtain ⟨written, hcontents, hrecords⟩ := h.written
    refine ⟨written, hcontents, ?_⟩
    rw [hunwritten, List.drop_append_of_le_length h.covered, hrecords, List.append_assoc]
  · intro place hplace
    refine hplace.imp (by simp) ?_
    rw [hunwritten]
    simp only [List.length_append, List.length_singleton]
    omega

theorem flushIdle_granted (journal : BackgroundJournal) :
    (flushIdle {} journal).2 = journal ∧ ((flushIdle {} journal).1 = .ok () →
      journal.failure = none ∧ journal.isOpen = true) := by
  unfold flushIdle
  split
  · exact ⟨rfl, fun hok => nomatch hok⟩
  · next hopen =>
    split
    · exact ⟨rfl, fun hok => nomatch hok⟩
    · next hsync => simp at hsync
    · next hfailure _ => exact ⟨rfl, fun _ => ⟨by assumption, by simpa using hopen⟩⟩

theorem Filed.flush (hcore : state.Core) (h : state.Filed) (before : ℕ) :
    Keeps state (state.flushSection {} before).1 (.flushTests before) (state.flushSection {} before).2 := by
  unfold flushSection
  split
  · next hquiet =>
    obtain ⟨hsame, hok⟩ := flushIdle_granted state.journal
    refine h.beside _ _ (congrArg (·.failure) hsame) (congrArg (·.contents) hsame) (congrArg (·.queue) hsame)
      (congrArg (·.writing) hsame) (fun _ => congrArg (·.position) hsame) ⟨rfl, rfl, rfl, rfl⟩ rfl (.inl rfl) ?_
    intro hbefore
    have hbefore : before ≤ state.accepted.length := hbefore
    show PlaceFiled _ (.flushed before (flushIdle {} state.journal).1)
    cases hanswer : (flushIdle {} state.journal).1 with
    | error status => trivial
    | ok u =>
      obtain ⟨hfailure, hopen⟩ := hok hanswer
      have hunwritten := unwritten_idle hcore (idle_of_quiescent hquiet (by simp [hopen]) hfailure)
      show before + (unwritten { state with journal := (flushIdle {} state.journal).2 }).length ≤ state.accepted.length
      rw [hsame, hunwritten]
      exact hbefore
  · exact h.beside _ _ rfl rfl rfl rfl (fun _ => rfl) ⟨rfl, rfl, rfl, rfl⟩ rfl (.inl rfl) id

theorem Filed.replace (hcore : state.Core) (h : state.Filed) (hidle : state.Idle) (snapshot : JournalRecord) :
    Keeps state (state.compactReplace {} snapshot).1 (.compactReplaces snapshot) (state.compactReplace {} snapshot).2 := by
  have hunwritten := unwritten_idle hcore hidle
  unfold compactReplace
  rw [replaceFile_granted]
  refine ⟨rfl, rfl, ⟨h.unfailed, h.wrote, h.synced, fun _ => rfl, le_rfl, [], ?_, ?_⟩, ?_, fun _ => trivial⟩
  · exact (List.append_nil _).symm
  · show state.accepted.drop state.accepted.length = [] ++ state.unwritten
    rw [hunwritten, List.drop_length]
    rfl
  · exact fun place hplace => hplace.imp le_rfl (Nat.add_comm _ _).le

theorem Filed.act (hsane : state.Sane) (h : state.Filed) {index : ℕ} {old : CallPlace}
    (hold : state.calls[index]? = some old) {result : ThreadedJournal × CallPlace}
    (hact : state.act {} old = some result) : Keeps state result.1 old result.2 := by
  have hstay : ∀ new, (state.PlaceFiled old → state.PlaceFiled new) → Keeps state state old new := fun new hnew =>
    h.beside old new rfl rfl rfl rfl (fun _ => rfl) ⟨rfl, rfl, rfl, rfl⟩ rfl (.inl rfl) hnew
  cases old with
  | appendWaits record =>
    dsimp only [ThreadedJournal.act] at hact
    split at hact
    · cases hact
    · cases hact
      exact hstay _ fun _ => trivial
  | appendHolds record =>
    obtain rfl := Option.some.inj hact
    unfold appendSection
    split
    · exact hstay _ fun _ => trivial
    · next happend => exact h.append record happend
  | appendNotifies =>
    obtain rfl := Option.some.inj hact
    exact h.notify _ _ fun _ => trivial
  | flushWaits before =>
    dsimp only [ThreadedJournal.act] at hact
    split at hact
    · cases hact
    · cases hact
      exact hstay _ id
  | flushTests before =>
    obtain rfl := Option.some.inj hact
    exact h.flush hsane.core before
  | compactWaits snapshot =>
    dsimp only [ThreadedJournal.act] at hact
    split at hact
    · cases hact
    · cases hact
      exact hstay _ fun _ => trivial
  | compactTests snapshot =>
    obtain rfl := Option.some.inj hact
    unfold compactSection
    split
    · exact hstay _ fun _ => trivial
    · split
      · exact hstay _ fun _ => trivial
      · split
        · exact hstay _ fun _ => trivial
        · split
          · exact hstay _ fun _ => trivial
          · exact h.beside _ _ rfl rfl rfl rfl (fun _ => rfl) ⟨rfl, rfl, rfl, rfl⟩ rfl (.inl rfl) fun _ => trivial
  | compactReplaces snapshot =>
    obtain rfl := Option.some.inj hact
    exact h.replace hsane.core (hsane.places _ (List.mem_of_getElem? hold)).1 snapshot
  | compactResumes answer =>
    obtain rfl := Option.some.inj hact
    exact h.beside _ _ rfl rfl rfl rfl (fun _ => rfl) ⟨rfl, rfl, rfl, rfl⟩ rfl (.inl rfl) fun _ => trivial
  | compactNotifies answer =>
    obtain rfl := Option.some.inj hact
    exact h.notify _ _ fun _ => trivial
  | stopMarks =>
    obtain rfl := Option.some.inj hact
    unfold stopMark
    split
    · exact h.beside _ _ rfl rfl rfl rfl (fun _ => rfl) ⟨rfl, rfl, rfl, rfl⟩ rfl (.inl rfl) fun _ => trivial
    · exact h.beside _ _ rfl rfl rfl rfl (fun _ => rfl) ⟨rfl, rfl, rfl, rfl⟩ rfl (.inl rfl) fun _ => trivial
  | stopNotifies join =>
    obtain rfl := Option.some.inj hact
    cases join <;> exact h.notify _ _ fun _ => trivial
  | stopJoins =>
    dsimp only [ThreadedJournal.act] at hact
    split at hact
    · cases hact
      exact h.beside _ _ rfl rfl rfl rfl (fun _ => rfl) ⟨rfl, rfl, rfl, rfl⟩ rfl (.inl rfl) fun _ => trivial
    · cases hact
  | stopCloses =>
    obtain rfl := Option.some.inj hact
    have hended : state.writer = .ended := hsane.places _ (List.mem_of_getElem? hold)
    exact h.beside _ _ rfl rfl rfl rfl (fun hnot => absurd hended hnot) ⟨rfl, rfl, rfl, rfl⟩ rfl (.inl rfl)
      fun _ => trivial
  | flushSleeps before => cases hact
  | compactSleeps snapshot => cases hact
  | appended answer => cases hact
  | flushed before answer => cases hact
  | compacted answer => cases hact
  | stopped answer => cases hact

end Calls

/-! ## Steps of the writer -/

section Writer
variable {state : ThreadedJournal}

structure WriterKeeps (state after : ThreadedJournal) : Prop where
  opened : after.opened = state.opened
  calls : after.calls = state.calls ∨ after.calls = state.calls.map CallPlace.wake
  filed : after.Filed
  others : ∀ place, state.PlaceFiled place → after.PlaceFiled place

theorem Filed.moves (h : state.Filed) {after : ThreadedJournal} (hfailure : after.journal.failure = state.journal.failure)
    (hcontents : after.journal.contents = state.journal.contents)
    (hposition : after.journal.position = state.journal.position) (hledger : SameLedger state after)
    (hcalls : after.calls = state.calls ∨ after.calls = state.calls.map CallPlace.wake)
    (hunwritten : after.unwritten = state.unwritten) (hnot : state.writer ≠ .ended)
    (hwrote : ∀ result, after.writer ≠ .wrote result) (hsynced : ∀ status, after.writer ≠ .failing status) :
    WriterKeeps state after := by
  refine ⟨hledger.opened, hcalls,
    ⟨hfailure.trans h.unfailed, fun result hresult => absurd hresult (hwrote result), hsynced, ?_, ?_, ?_⟩, ?_⟩
  · intro _
    rw [hposition, hcontents]
    exact h.position hnot
  · rw [hledger.covered, hledger.accepted]
    exact h.covered
  · rw [hcontents, hledger.head, hledger.accepted, hledger.covered, hunwritten]
    exact h.written
  · intro place hplace
    exact hplace.imp (by rw [hledger.accepted]) (by rw [hunwritten, hledger.accepted, Nat.add_comm])

section
variable (hsane : state.Sane) (h : state.Filed)
include hsane h

theorem Filed.writerTest (hwriter : state.writer = .ready) : WriterKeeps state state.writerTest := by
  have hnot : state.writer ≠ .ended := by simp [hwriter]
  have hstill : ∀ writer, writer ≠ .taken → (∀ result, writer ≠ .wrote result) → (∀ status, writer ≠ .failing status) →
      WriterKeeps state { state with writer := writer } := by
    intro writer htaken hwrote hsynced
    refine h.moves rfl rfl rfl ⟨rfl, rfl, rfl, rfl⟩ (.inl rfl) ?_ hnot hwrote hsynced
    simp [unwritten, htaken, hwriter]
  unfold ThreadedJournal.writerTest
  split
  · exact hstill .asleep nofun nofun nofun
  · split
    · have hkeeps := h.notify .stopMarks .stopMarks fun _ => trivial
      exact ⟨rfl, .inl rfl, hkeeps.filed, hkeeps.others⟩
    · split
      · split
        · exact hstill .leaving nofun nofun nofun
        · exact ⟨rfl, .inl rfl, h, fun _ hplace => hplace⟩
      · next hqueue =>
        have hwriting := hsane.core.not_writing (by rw [hwriter]; rfl)
        obtain ⟨record, rest, hrecords⟩ := List.exists_cons_of_ne_nil hqueue
        refine h.moves ?_ ?_ ?_ ⟨rfl, rfl, rfl, rfl⟩ (.inl rfl) ?_ hnot nofun nofun
        · simp [BackgroundJournal.take, hwriting, hrecords]
        · simp [BackgroundJournal.take, hwriting, hrecords]
        · simp [BackgroundJournal.take, hwriting, hrecords]
        · simp [unwritten, BackgroundJournal.take, hwriting, hrecords, hwriter]

theorem Filed.writerWrite (hwriter : state.writer = .taken) : WriterKeeps state (state.writerWrite {}) := by
  have hnot : state.writer ≠ .ended := by simp [hwriter]
  have hwriting : state.journal.writing.isSome = true := by rw [hsane.core.writing, hwriter]; rfl
  obtain ⟨record, hrecord⟩ := Option.isSome_iff_exists.mp hwriting
  have hposition := h.position hnot
  have hbefore : state.unwritten = record :: state.journal.queue := by simp [unwritten, hwriter, hrecord]
  have hwrite : state.writerWrite {} = { state with
      journal := { state.journal with
        contents := state.journal.contents ++ encodeRecordBytes record
        position := some (state.journal.contents.length + (encodeRecordBytes record).length) }
      writer := .wrote (.ok ()) } := by
    simp [ThreadedJournal.writerWrite, hrecord, hposition, putBytes, writeAt_end]
  have hafter : (state.writerWrite {}).unwritten = state.journal.queue := by
    rw [hwrite]
    simp [unwritten]
  refine ⟨by rw [hwrite], .inl (by rw [hwrite]), ⟨?_, ?_, ?_, ?_, ?_, ?_⟩, ?_⟩
  · rw [hwrite]
    exact h.unfailed
  · rw [hwrite]
    intro result hresult
    cases hresult
    rfl
  · rw [hwrite]
    simp
  · rw [hwrite]
    intro _
    exact congrArg some (List.length_append).symm
  · rw [hwrite]
    exact h.covered
  · obtain ⟨written, hcontents, hrecords⟩ := h.written
    refine ⟨written ++ [record], ?_, ?_⟩
    · rw [hwrite]
      show state.journal.contents ++ _ = state.head ++ _
      rw [hcontents, encodeRecords_append, encodeRecords_cons, encodeRecords_nil, List.append_nil, List.append_assoc]
    · rw [hafter, List.append_assoc]
      rw [hbefore] at hrecords
      rw [hwrite]
      exact hrecords
  · intro place hplace
    refine hplace.imp (by rw [hwrite]) ?_
    rw [hafter, hbefore, hwrite, List.length_cons]
    dsimp only
    omega

theorem Filed.writerBook {result : Outcome Unit} (hwriter : state.writer = .wrote result) :
    WriterKeeps state (state.writerBook result) := by
  have hnot : state.writer ≠ .ended := by simp [hwriter]
  have hwriting : state.journal.writing.isSome = true := by rw [hsane.core.writing, hwriter]; rfl
  obtain ⟨record, hrecord⟩ := Option.isSome_iff_exists.mp hwriting
  obtain rfl := h.wrote result hwriter
  unfold ThreadedJournal.writerBook
  rw [hrecord]
  exact h.moves rfl rfl rfl ⟨rfl, rfl, rfl, rfl⟩ (.inr rfl)
    (by simp [unwritten, notifyIdle, bookWritten, hwriter]) hnot nofun nofun

theorem Filed.writerStep : WriterKeeps state (state.writerStep {}) := by
  unfold ThreadedJournal.writerStep
  split
  · next hwriter => exact h.writerTest hsane hwriter
  · exact ⟨rfl, .inl rfl, h, fun _ hplace => hplace⟩
  · next hwriter => exact h.writerWrite hsane hwriter
  · next hwriter => exact h.writerBook hsane hwriter
  · next hwriter =>
    have hnot : state.writer ≠ .ended := by simp [hwriter]
    unfold writerSync
    split
    · next hsync => simp at hsync
    · exact h.moves rfl rfl rfl ⟨rfl, rfl, rfl, rfl⟩ (.inl rfl) (by simp [unwritten, hwriter]) hnot nofun nofun
  · next status hwriter => exact absurd hwriter (h.synced status)
  · next hwriter =>
    have hnot : state.writer ≠ .ended := by simp [hwriter]
    exact h.moves rfl rfl rfl ⟨rfl, rfl, rfl, rfl⟩ (.inr rfl) (by simp [unwritten, notifyIdle, hwriter]) hnot nofun nofun
  · exact ⟨rfl, .inl rfl, h, fun _ hplace => hplace⟩

end

end Writer

/-! ## Every interleaving -/

section Runs
variable {state : ThreadedJournal}

theorem PlaceFiled.wake {place : CallPlace} (h : state.PlaceFiled place) : state.PlaceFiled place.wake := by
  cases place <;> exact h

structure Kept.After (state after : ThreadedJournal) : Prop where
  opened : after.opened = state.opened
  filed : after.Filed
  places : ∀ place ∈ after.calls, after.PlaceFiled place

theorem Filed.with_calls (h : state.Filed) (calls : List CallPlace) : Filed { state with calls := calls } :=
  { h with }

theorem PlaceFiled.with_calls {place : CallPlace} (h : state.PlaceFiled place) (calls : List CallPlace) :
    PlaceFiled { state with calls := calls } place := by
  cases place <;> exact h

theorem Kept.callerStep (h : state.Kept) (index : ℕ) : Kept.After state (state.callerStep index {}) := by
  unfold ThreadedJournal.callerStep
  cases hold : state.calls[index]? with
  | none => exact ⟨rfl, h.filed, h.places⟩
  | some place =>
    rw [Option.bind_some]
    cases hact : state.act {} place with
    | none => exact ⟨rfl, h.filed, h.places⟩
    | some result =>
      have hkeeps := h.filed.act h.sane hold hact
      obtain ⟨after, new⟩ := result
      refine ⟨hkeeps.opened, hkeeps.filed.with_calls _, ?_⟩
      intro other hother
      dsimp only at hother
      rw [hkeeps.calls] at hother
      rcases List.mem_or_eq_of_mem_set hother with hearlier | rfl
      · exact (hkeeps.others other (h.places other hearlier)).with_calls _
      · exact (hkeeps.place (h.places place (List.mem_of_getElem? hold))).with_calls _

theorem Kept.writerStep (h : state.Kept) : Kept.After state (state.writerStep {}) := by
  have hkeeps := h.filed.writerStep h.sane
  refine ⟨hkeeps.opened, hkeeps.filed, ?_⟩
  intro place hplace
  rcases hkeeps.calls with hsame | hwoken
  · rw [hsame] at hplace
    exact hkeeps.others place (h.places place hplace)
  · rw [hwoken] at hplace
    obtain ⟨earlier, hearlier, rfl⟩ := List.mem_map.mp hplace
    exact (hkeeps.others earlier (h.places earlier hearlier)).wake

theorem enter_filed (state : ThreadedJournal) (call : JournalCall) : state.PlaceFiled (state.enter call) := by
  cases call with
  | append record =>
    dsimp only [enter]
    split_ifs <;> trivial
  | flush =>
    dsimp only [enter]
    split_ifs
    · trivial
    · exact le_rfl
  | compact ordinal body =>
    dsimp only [enter]
    split_ifs <;> trivial
  | stop => trivial

theorem Kept.beside (h : state.Kept) (event : ThreadEvent) (hgranted : Granted event) :
    Kept.After state (state.step event) := by
  cases event with
  | call call =>
    dsimp only [ThreadedJournal.step]
    split
    · exact ⟨rfl, h.filed, h.places⟩
    · refine ⟨rfl, h.filed.with_calls _, ?_⟩
      intro place hplace
      rcases List.mem_append.mp hplace with hearlier | hlast
      · exact (h.places place hearlier).with_calls _
      · obtain rfl := List.mem_singleton.mp hlast
        exact (state.enter_filed call).with_calls _
  | caller index io =>
    obtain rfl : io = {} := hgranted
    exact h.callerStep index
  | writer io =>
    obtain rfl : io = {} := hgranted
    exact h.writerStep
  | wakeCaller index =>
    dsimp only [ThreadedJournal.step, ThreadedJournal.wakeCaller]
    split
    · exact ⟨rfl, h.filed, h.places⟩
    · next place hold =>
      refine ⟨rfl, h.filed.with_calls _, ?_⟩
      intro other hother
      rcases List.mem_or_eq_of_mem_set hother with hearlier | rfl
      · exact (h.places other hearlier).with_calls _
      · exact (h.places place (List.mem_of_getElem? hold)).wake.with_calls _
  | wakeWriter =>
    have hkeeps := h.filed.notify .stopMarks .stopMarks fun _ => trivial
    exact ⟨rfl, hkeeps.filed, fun place hplace => hkeeps.others place (h.places place hplace)⟩

end Runs

/-- In every interleaving the file holds the accepted records in order and each once, what was accepted before a
flush that has succeeded, and everything once `stop` has returned. -/
theorem records_in_order (io : StartIo) (config : JournalConfig) (disk : Disk) (epoch : UInt64) (wallNanos : Int64)
    (journal : BackgroundJournal) (hstart : BackgroundJournal.start io config disk epoch wallNanos = .ok journal)
    (events : List ThreadEvent) (hgranted : ∀ event ∈ events, Granted event) :
    (machine.final (start journal) events).Orderly ∧ (machine.final (start journal) events).opened =
      (if disk.journal.getD [] = [] then buildFileHeader epoch wallNanos else disk.journal.getD []) := by
  have hstep : ∀ state event, state.Kept ∧ state.opened = journal.contents → Granted event →
      (machine.step state event).2.Kept ∧ (machine.step state event).2.opened = journal.contents := by
    rintro state event ⟨hkept, hopened⟩ hevent
    have hafter := hkept.beside event hevent
    exact ⟨⟨hkept.sane.step event, hafter.filed, hafter.places⟩, hafter.opened.trans hopened⟩
  have hkept := machine.invariant hstep ⟨start_kept hstart, rfl⟩ (machine.meets_of_forall _ hgranted)
  obtain ⟨-, hjournal⟩ := start_eq_ok hstart
  exact ⟨hkept.1.orderly, hkept.2.trans (congrArg (·.contents) hjournal)⟩

def fiveCalls : List ThreadEvent :=
  [.call (.append ⟨.evidence, 0, []⟩), .caller 0 {}, .caller 0 {}, .call .flush, .caller 1 {}, .caller 1 {}, .caller 0 {},
    .writer {}, .writer {}, .writer {}, .caller 1 {}, .call (.compact 0 []), .caller 2 {}, .caller 2 {}, .caller 2 {},
    .caller 2 {}, .caller 2 {}, .call (.append ⟨.evidence, 1, []⟩), .caller 3 {}, .caller 3 {}, .call .stop, .caller 4 {},
    .caller 3 {}, .caller 4 {}, .writer {}, .writer {}, .writer {}, .writer {}, .writer {}, .writer {}, .caller 4 {},
    .caller 4 {}]

theorem five_calls_in_order :
    (machine.final (start (started threadConfig (buildFileHeader 1 0))) fiveCalls).calls =
        [.appended (.ok ()), .flushed 1 (.ok ()), .compacted (.ok ()), .appended (.ok ()), .stopped (.ok ())] ∧
      (machine.final (start (started threadConfig (buildFileHeader 1 0))) fiveCalls).Orderly :=
  ⟨by decide +kernel, (records_in_order {} threadConfig ⟨none, none⟩ 1 0 (started threadConfig (buildFileHeader 1 0))
    (by decide +kernel) fiveCalls (by simp [fiveCalls, Granted])).1⟩

/-- In every interleaving, whatever the file system does, a compaction replaces the file alone and with nothing to write,
and beside a writer that waits in its loop unless `stop` or a failure has sent it out. A writer asleep beside records is
paused or about to be woken, and `stop` returns after the writer has ended with an empty queue. -/
theorem interleavings_safe (io : StartIo) (config : JournalConfig) (disk : Disk) (epoch : UInt64) (wallNanos : Int64)
    (journal : BackgroundJournal) (hstart : BackgroundJournal.start io config disk epoch wallNanos = .ok journal)
    (events : List ThreadEvent) (state : ThreadedJournal) (hstate : machine.final (start journal) events = state) :
    (∀ record, .compactReplaces record ∈ state.calls → state.Idle ∧ (state.journal.accepting = true →
        state.journal.failure = none → state.writer = .ready ∨ state.writer = .asleep)) ∧
      CallPlace.Exclusive state.calls ∧
      (state.writer = .asleep → state.journal.queue ≠ [] →
        state.paused = true ∨ ∃ place ∈ state.calls, place.notifies = true) ∧
      ∀ answer, .stopped answer ∈ state.calls → state.writer = .ended ∧ state.journal.queue = [] := by
  have hsane : state.Sane := hstate ▸ machine.invariant (fun _ event hsane _ => hsane.step event) (start_sane hstart)
    (machine.meets_of_forall _ (fun _ _ => trivial : ∀ event ∈ events, True))
  refine ⟨fun _ hcall => ?_, hsane.exclusive, hsane.pending, fun _ hcall => ?_⟩
  · obtain ⟨hidle, -⟩ : state.Idle ∧ _ := hsane.places _ hcall
    refine ⟨hidle, fun haccepting hfailure => ?_⟩
    have hbusy := hsane.core.writing
    have hleft := hsane.core.left
    rw [hidle.2] at hbusy
    rw [haccepting, hfailure] at hleft
    cases hwriter : state.writer <;> simp_all [WriterPlace.busy, WriterPlace.left]
  · have hended : state.writer = .ended := hsane.places _ hcall
    exact ⟨hended, (hsane.core.left (by rw [hended]; rfl)).1⟩

/-- The third call is about to replace the file after 14 steps. -/
theorem five_calls_safe :
    (machine.final (start (started threadConfig (buildFileHeader 1 0))) (fiveCalls.take 14)).Idle ∧
      (machine.final (start (started threadConfig (buildFileHeader 1 0))) fiveCalls).journal.queue = [] :=
  ⟨((interleavings_safe {} threadConfig ⟨none, none⟩ 1 0 _ (by decide +kernel) (fiveCalls.take 14) _ rfl).1
      ⟨.snapshot, 0, []⟩ (by decide +kernel)).1,
    ((interleavings_safe {} threadConfig ⟨none, none⟩ 1 0 _ (by decide +kernel) fiveCalls _ rfl).2.2.2 (.ok ())
      (by decide +kernel)).2⟩

end Lqf.ThreadedJournal
