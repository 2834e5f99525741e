import LinkQualityFabric.Persist.BackgroundJournal

/-! What the writer makes of the file.

`Holds base records` says that a journal stands at the end of its file and that the file is `base` with a
first part of `records` behind it, the rest of `records` being with the writer. Appending, taking and
finishing a record keep it, so a settled journal has exactly `records` behind `base`. -/
namespace Lqf.BackgroundJournal
open Foundations
set_option autoImplicit false

theorem start_eq_ok {io : StartIo} {config : JournalConfig} {disk : Disk} {epoch : UInt64} {wallNanos : Int64}
    {journal : BackgroundJournal} (h : start io config disk epoch wallNanos = .ok journal) :
    config.enabled = true ∧ journal = started config
      (if disk.journal.getD [] = [] then buildFileHeader epoch wallNanos else disk.journal.getD []) := by
  simp only [start, Outcome.check_bind_eq_ok, Outcome.refuseIf_eq_ok] at h
  obtain ⟨henabled, -, -, hstarted⟩ := h
  refine ⟨by simpa using henabled, ?_⟩
  split at hstarted
  · next hempty =>
    unfold startFresh at hstarted
    rw [if_pos hempty]
    split at hstarted
    · cases hstarted
    · rw [Outcome.check_bind_eq_ok] at hstarted
      exact (Except.ok.inj hstarted.2).symm
  · next hempty =>
    rw [if_neg hempty]
    exact (Except.ok.inj hstarted).symm

theorem append_eq_ok {journal after : BackgroundJournal} {kind : JournalRecordKind} {ordinal : UInt64}
    {body : Bytes} : journal.append kind ordinal body = .ok after ↔
      journal.config.enabled = true ∧ body.length ≤ journal.config.maxRecordBytes ∧ journal.isOpen = true ∧
      journal.accepting = true ∧ journal.failure = none ∧ journal.queue.length < journal.config.maxQueueDepth ∧
      (∀ last ∈ journal.lastEnqueued, ordinal = last + 1) ∧ after = { journal with
        lastEnqueued := some ordinal, queue := journal.queue ++ [⟨kind, ordinal, body⟩] } := by
  have hfailure : journal.failure.elim (.ok ()) .error = (.ok () : Outcome Unit) ↔ journal.failure = none := by
    cases journal.failure <;> simp
  simp only [append, Outcome.check_bind_eq_ok, Outcome.refuseIf_eq_ok, hfailure, not_or, Bool.not_eq_false, not_lt,
    not_le, not_exists, not_and, not_not, pure, Except.pure, Except.ok.injEq, and_assoc, eq_comm (a := after)]

/-! ## One record -/

variable {record : JournalRecord} {rest : List JournalRecord} (count : ℕ) (journal : BackgroundJournal)
  (shorts : List (Option ℕ))

theorem take_writing {journal : BackgroundJournal} (h : journal.pending = record :: rest) :
    journal.take = { journal with writing := some record, queue := rest } := by
  obtain ⟨_, _, _, _, queue, writing, _, _, _, _, _, _⟩ := journal
  cases writing with
  | none =>
    obtain rfl : queue = record :: rest := h
    rfl
  | some taken =>
    obtain ⟨rfl, rfl⟩ := List.cons.inj h
    rfl

theorem take_idle {journal : BackgroundJournal} (h : journal.pending = []) : journal.take = journal := by
  obtain ⟨_, _, _, _, queue, writing, _, _, _, _, _, _⟩ := journal
  cases writing with
  | none =>
    obtain rfl : queue = [] := h
    rfl
  | some taken => cases h

theorem finish_idle {journal : BackgroundJournal} (h : journal.pending = []) (short : Option ℕ) :
    journal.finish short = journal := by
  have hwriting : journal.writing = none := by simpa using (List.append_eq_nil_iff.mp h).1
  simp [finish, hwriting]

@[simp] theorem take_pending : journal.take.pending = journal.pending := by
  cases h : journal.pending with
  | nil => rw [take_idle h, h]
  | cons record rest => rw [take_writing h]; rfl

@[simp] theorem take_contents : journal.take.contents = journal.contents := by
  unfold take
  split <;> rfl

@[simp] theorem take_position : journal.take.position = journal.position := by
  unfold take
  split <;> rfl

theorem take_finish {journal : BackgroundJournal} {position : ℕ} (hpending : journal.pending = record :: rest)
    (hposition : journal.position = some position) : (journal.take.finish none).pending = rest ∧
      (journal.take.finish none).contents = writeAt journal.contents position (encodeRecordBytes record) := by
  rw [take_writing hpending]
  simp [finish, hposition, putBytes, bookWritten, pending]

theorem finish_pending {journal : BackgroundJournal} (h : journal.pending = record :: rest) (short : Option ℕ) :
    (journal.take.finish short).pending.length ≤ rest.length := by
  rw [take_writing h]
  unfold finish
  split
  · next hwriting => cases hwriting
  · simp [failWith, pending]
  · simp [putBytes, bookWritten, pending]
  · simp [putBytes, failWith, pending]

theorem drainQueue_pending (journal : BackgroundJournal) (hcount : journal.pending.length ≤ count) :
    (drainQueue count shorts journal).pending = [] := by
  induction count generalizing journal shorts with
  | zero => exact List.length_eq_zero_iff.mp (Nat.le_zero.mp hcount)
  | succ count ih =>
    rw [drainQueue]
    apply ih
    cases hpending : journal.pending with
    | nil =>
      rw [take_idle hpending, finish_idle hpending, hpending]
      exact Nat.zero_le _
    | cons record rest =>
      have hless := finish_pending hpending (shorts.headD none)
      rw [hpending, List.length_cons] at hcount
      omega

theorem awaitIdle_pending {journal : BackgroundJournal} {shorts : List (Option ℕ)}
    (hopen : (journal.awaitIdle shorts).isOpen = true) (hfailure : (journal.awaitIdle shorts).failure = none) :
    (journal.awaitIdle shorts).pending = [] := by
  unfold awaitIdle at hopen hfailure ⊢
  split
  · exact drainQueue_pending _ _ _ le_rfl
  · next hnot =>
    rw [if_neg hnot] at hopen hfailure
    exact absurd ⟨hopen, hfailure⟩ hnot

theorem compact_cases (io : CompactIo) (ordinal : UInt64) (body : Bytes) (journal : BackgroundJournal) :
    (∃ status idle, journal.compact io ordinal body = (.error status, idle) ∧
      (idle = journal ∨ idle = journal.awaitIdle io.writes)) ∨
    (body.length ≤ journal.config.maxRecordBytes ∧ (journal.awaitIdle io.writes).pending = [] ∧
      journal.compact io ordinal body = replaceFile io ⟨.snapshot, ordinal, body⟩ (journal.awaitIdle io.writes)) := by
  unfold compact
  split
  · exact .inl ⟨_, _, rfl, .inl rfl⟩
  · split
    · exact .inl ⟨_, _, rfl, .inl rfl⟩
    · next hbody =>
      unfold compactIdle
      split
      · exact .inl ⟨_, _, rfl, .inr rfl⟩
      · next hopen =>
        split
        · exact .inl ⟨_, _, rfl, .inr rfl⟩
        · next hfailure =>
          split
          · exact .inl ⟨_, _, rfl, .inr rfl⟩
          · exact .inr ⟨Nat.le_of_not_lt hbody, awaitIdle_pending (by simpa using hopen) hfailure, rfl⟩

/-! ## A journal at the end of its file -/

structure Holds (base : Bytes) (records : List JournalRecord) (journal : BackgroundJournal) : Prop where
  position_eq : journal.position = some journal.contents.length
  written : ∃ written, journal.contents = base ++ encodeRecords written ∧ records = written ++ journal.pending

theorem holds_start {journal : BackgroundJournal} (hposition : journal.position = some journal.contents.length) :
    Holds journal.contents journal.pending journal :=
  ⟨hposition, [], by simp, rfl⟩

section Steps
variable {base : Bytes} {records : List JournalRecord} {journal : BackgroundJournal}

theorem Holds.take (h : Holds base records journal) : Holds base records journal.take := by
  obtain ⟨hposition, written, hcontents, hrecords⟩ := h
  exact ⟨by simpa using hposition, written, by simpa using hcontents, by simpa using hrecords⟩

theorem Holds.finish (h : Holds base records journal) : Holds base records (journal.finish none) := by
  obtain ⟨hposition, written, hcontents, hrecords⟩ := h
  cases hwriting : journal.writing with
  | none =>
    have hsame : journal.finish none = journal := by simp [BackgroundJournal.finish, hwriting]
    rw [hsame]
    exact ⟨hposition, written, hcontents, hrecords⟩
  | some record =>
    have hfinish : journal.finish none =
        (journal.putBytes journal.contents.length (encodeRecordBytes record)).bookWritten record := by
      simp [BackgroundJournal.finish, hwriting, hposition]
    rw [hfinish]
    refine ⟨?_, written ++ [record], ?_, ?_⟩
    · simp [putBytes, bookWritten, writeAt_end]
    · simp only [putBytes, bookWritten, writeAt_end]
      rw [hcontents, encodeRecords_append, List.append_assoc, encodeRecords_cons, encodeRecords_nil, List.append_nil]
    · simp [putBytes, bookWritten, hrecords, pending, hwriting]

theorem Holds.append {after : BackgroundJournal} {kind : JournalRecordKind} {ordinal : UInt64} {body : Bytes}
    (h : Holds base records journal) (happend : journal.append kind ordinal body = .ok after) :
    Holds base (records ++ [⟨kind, ordinal, body⟩]) after := by
  obtain ⟨hposition, written, hcontents, hrecords⟩ := h
  obtain ⟨-, -, -, -, -, -, -, rfl⟩ := append_eq_ok.mp happend
  exact ⟨hposition, written, hcontents, by simp [hrecords, pending, List.append_assoc]⟩

theorem Holds.drainQueue (h : Holds base records journal) (count : ℕ) :
    Holds base records (drainQueue count [] journal) := by
  induction count generalizing journal with
  | zero => exact h
  | succ count ih => exact ih h.take.finish

theorem Holds.contents (h : Holds base records journal) (hpending : journal.pending = []) :
    journal.contents = base ++ encodeRecords records := by
  obtain ⟨-, written, hcontents, hrecords⟩ := h
  rw [hcontents, hrecords, hpending, List.append_nil]

theorem Holds.settle (h : Holds base records journal) :
    (journal.settle []).contents = base ++ encodeRecords records :=
  Holds.contents (h.drainQueue _) (drainQueue_pending _ _ _ le_rfl)

end Steps

/-! ## What every step keeps -/

theorem syncFile_avoids (io : SyncIo) (durable : Bool) : Outcome.Avoids .refused (syncFile io durable) :=
  Outcome.avoids_check (by decide) (Outcome.avoids_refuseIf _ (by decide))

theorem writeTemporary_code {io : CompactIo} {config : JournalConfig} {snapshot : JournalRecord} {status : Status}
    {left : Option Bytes} (h : writeTemporary io config snapshot = .error (status, left)) : status.code ≠ .refused := by
  unfold writeTemporary at h
  split at h
  · cases h
    decide
  · cases h
    decide
  · cases h
    decide
  · next hsync =>
    cases h
    exact syncFile_avoids _ _ _ hsync
  · cases h

def Unrefused (journal : BackgroundJournal) : Prop := ∀ status ∈ journal.failure, status.code ≠ .refused

structure Continues (before after : BackgroundJournal) : Prop where
  config : after.config = before.config
  unrefused : before.Unrefused → after.Unrefused

namespace Continues
variable {before after third : BackgroundJournal} {status : Status}

theorem refl (journal : BackgroundJournal) : Continues journal journal := ⟨rfl, id⟩

theorem trans (h : Continues before after) (h' : Continues after third) : Continues before third :=
  ⟨h'.config.trans h.config, h'.unrefused ∘ h.unrefused⟩

theorem failed (hconfig : after.config = before.config) (hfailure : after.failure = some status)
    (hstatus : status.code ≠ .refused) : Continues before after := by
  refine ⟨hconfig, fun _ other hother => ?_⟩
  rw [hfailure] at hother
  exact Option.some.inj hother ▸ hstatus

variable (journal : BackgroundJournal) (shorts : List (Option ℕ))

theorem take : Continues journal journal.take := by
  unfold BackgroundJournal.take
  split <;> exact ⟨rfl, id⟩

theorem finish (short : Option ℕ) : Continues journal (journal.finish short) := by
  unfold BackgroundJournal.finish
  split
  · exact refl journal
  · exact failed rfl rfl (by decide)
  · exact ⟨rfl, id⟩
  · exact failed rfl rfl (by decide)

theorem drainQueue (count : ℕ) : Continues journal (drainQueue count shorts journal) := by
  induction count generalizing journal shorts with
  | zero => exact refl journal
  | succ count ih => exact ((take journal).trans (finish _ _)).trans (ih _ _)

theorem awaitIdle : Continues journal (journal.awaitIdle shorts) := by
  unfold BackgroundJournal.awaitIdle
  split
  · exact drainQueue journal shorts _
  · exact refl journal

theorem append {kind : JournalRecordKind} {ordinal : UInt64} {body : Bytes}
    (h : before.append kind ordinal body = .ok after) : Continues before after := by
  obtain ⟨-, -, -, -, -, -, -, rfl⟩ := append_eq_ok.mp h
  exact ⟨rfl, id⟩

theorem flush (io : FlushIo) : Continues journal (journal.flush io).2 := by
  have hidle := awaitIdle journal io.writes
  unfold BackgroundJournal.flush
  split
  · exact refl journal
  · unfold flushIdle
    split
    · exact hidle
    · split
      · exact hidle
      · next hsync => exact hidle.trans (failed rfl rfl (syncFile_avoids _ _ _ hsync))
      · exact hidle

theorem fallBack (h : Continues before after) (io : CompactIo) (hstatus : status.code ≠ .refused) :
    Continues before (fallBack io status after).2 := by
  unfold BackgroundJournal.fallBack
  split
  · exact ⟨h.config, h.unrefused⟩
  · exact failed h.config rfl hstatus

theorem replaceFile (io : CompactIo) (snapshot : JournalRecord) :
    Continues journal (replaceFile io snapshot journal).2 := by
  unfold BackgroundJournal.replaceFile
  split
  · next hwrite =>
    refine fallBack ?_ io (writeTemporary_code hwrite)
    exact ⟨rfl, id⟩
  · refine fallBack ?_ io ?_
    · exact ⟨rfl, id⟩
    · decide
  · unfold reopen
    split
    · exact ⟨rfl, id⟩
    · refine fallBack ?_ io ?_
      · exact ⟨rfl, id⟩
      · decide

theorem compact (io : CompactIo) (ordinal : UInt64) (body : Bytes) :
    Continues journal (journal.compact io ordinal body).2 := by
  have hidle := awaitIdle journal io.writes
  rcases compact_cases io ordinal body journal with ⟨_, _, hcompact, rfl | rfl⟩ | ⟨-, -, hcompact⟩
  · rw [hcompact]
    exact refl _
  · rw [hcompact]
    exact hidle
  · rw [hcompact]
    exact hidle.trans (replaceFile _ io _)

end Continues

end Lqf.BackgroundJournal
