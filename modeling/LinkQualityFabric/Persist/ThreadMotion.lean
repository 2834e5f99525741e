import LinkQualityFabric.Persist.ThreadInvariant

/-! How the threads of a journal move.

A step of one thread leaves the calls of the others where they are, or wakes them; a call never goes back and
keeps its kind; and the work of the writer grows only when a record is enqueued. -/
namespace Lqf
set_option autoImplicit false

inductive CallKind where
  | append
  | flush
  | compact
  | stop
  deriving DecidableEq, Repr

def JournalCall.kind : JournalCall → CallKind
  | append _ => .append
  | flush => .flush
  | compact _ _ => .compact
  | stop => .stop

/-- Whether calls of the first kind can keep one of the second waiting. -/
def CallKind.competes : CallKind → CallKind → Bool
  | compact, _ => true
  | append, flush | append, compact | flush, compact => true
  | _, _ => false

namespace CallPlace

def kind : CallPlace → CallKind
  | appendWaits _ | appendHolds _ | appendNotifies | appended _ => .append
  | flushWaits _ | flushTests _ | flushSleeps _ | flushed _ _ => .flush
  | compactWaits _ | compactTests _ | compactSleeps _ | compactReplaces _ | compactResumes _ | compactNotifies _
  | compacted _ => .compact
  | stopMarks | stopNotifies _ | stopJoins | stopCloses | stopped _ => .stop

def phase : CallPlace → ℕ
  | appendWaits _ | flushWaits _ | compactWaits _ | stopMarks => 0
  | appendHolds _ | flushTests _ | flushSleeps _ | compactTests _ | compactSleeps _ | stopNotifies _ => 1
  | appendNotifies | compactReplaces _ | stopJoins => 2
  | compactResumes _ | stopCloses => 3
  | compactNotifies _ => 4
  | appended _ | flushed _ _ | compacted _ | stopped _ => 5

def goes : CallPlace → Bool
  | appendHolds _ | appendNotifies | flushTests _ | compactTests _ | compactReplaces _ | compactResumes _
  | compactNotifies _ | stopMarks | stopNotifies _ | stopCloses => true
  | _ => false

def awaits : CallPlace → Bool
  | flushTests _ | flushSleeps _ | compactTests _ | compactSleeps _ => true
  | _ => false

@[simp] theorem wake_kind (place : CallPlace) : place.wake.kind = place.kind := by cases place <;> rfl
@[simp] theorem wake_phase (place : CallPlace) : place.wake.phase = place.phase := by cases place <;> rfl

variable {place : CallPlace}

theorem holds_of_awaits (h : place.awaits = true) : place.holds = true := by
  cases place <;> first | rfl | cases h

theorem unique_of_pauses (h : place.pauses = true) : place.unique = true := by
  cases place <;> first | rfl | cases h

theorem not_pauses_of_awaits (h : place.awaits = true) : place.pauses = false := by
  cases place <;> first | rfl | cases h

theorem kind_of_unique (h : place.unique = true) : place.kind = .compact := by
  cases place <;> first | rfl | cases h

theorem unique_of_awaits (h : place.awaits = true) (hkind : place.kind = .compact) : place.unique = true := by
  cases place <;> simp_all [awaits, kind, unique]

theorem phase_of_awaits (h : place.awaits = true) : place.phase = 1 := by
  cases place <;> first | rfl | cases h

theorem kind_of_awaits (h : place.awaits = true) : place.kind = .flush ∨ place.kind = .compact := by
  cases place <;> first | exact .inl rfl | exact .inr rfl | cases h

theorem awaits_of_flush (hkind : place.kind = .flush) (hphase : 1 ≤ place.phase) (hgoing : place.returned = false) :
    place.awaits = true := by
  cases place <;> simp_all [awaits, kind, phase, returned]

theorem awaits_of_compact (hkind : place.kind = .compact) (hphase : place.phase = 1) : place.awaits = true := by
  cases place <;> simp_all [awaits, kind, phase]

theorem awaits_of_unique (h : place.unique = true) (hphase : place.phase < 2) : place.awaits = true := by
  cases place <;> simp_all [awaits, unique, phase]

theorem wake_of_goes (h : place.goes = true) : place.wake = place := by
  cases place <;> first | rfl | cases h

end CallPlace

inductive ThreadActor where
  | writer
  | caller (index : ℕ)
  deriving DecidableEq, Repr

def ThreadEvent.Acts : ThreadEvent → ThreadActor → Prop
  | .writer _, .writer => True
  | .caller index _, .caller other => index = other
  | _, _ => False

namespace ThreadedJournal
open BackgroundJournal

def Enabled (state : ThreadedJournal) : ThreadActor → Prop
  | .writer => state.writer ≠ .asleep ∧ state.writer ≠ .ended
  | .caller index => ∃ place, state.calls[index]? = some place ∧ (state.act {} place).isSome = true

/-! ## One step -/

section Step
variable {state : ThreadedJournal} {io : ThreadIo} {index : ℕ} {place : CallPlace}

theorem act_isSome (state : ThreadedJournal) (io other : ThreadIo) (place : CallPlace) :
    (state.act io place).isSome = (state.act other place).isSome := by
  cases place <;> rfl

theorem act_of_goes (h : place.goes = true) : (state.act io place).isSome = true := by
  cases place <;> first | rfl | cases h

/-- What a step of a call does: it brings the call on, it moves the writer at most by a notification, and it changes
the queue at most by the record of an append. -/
structure Forward (state : ThreadedJournal) (place : CallPlace) (result : ThreadedJournal × CallPlace) : Prop where
  calls : result.1.calls = state.calls
  kind : result.2.kind = place.kind
  phase : place.phase ≤ result.2.phase
  going : place.returned = false
  writer : result.1.writer = state.writer ∨ result.1.writer = state.notifyQueue.writer
  queue : result.1.journal.queue = state.journal.queue ∨ ∃ record journal, place = .appendHolds record ∧
    state.journal.append record.kind record.ordinal record.body = .ok journal

variable {result : ThreadedJournal × CallPlace}

theorem act_forward (h : state.act io place = some result) : state.Forward place result := by
  cases place with
  | appendWaits record =>
    dsimp only [act] at h
    split at h <;> cases h
    exact ⟨rfl, rfl, by simp [CallPlace.phase], rfl, .inl rfl, .inl rfl⟩
  | appendHolds record =>
    obtain rfl := Option.some.inj h
    unfold appendSection
    split
    · exact ⟨rfl, rfl, by simp [CallPlace.phase], rfl, .inl rfl, .inl rfl⟩
    · next journal happend =>
      exact ⟨rfl, rfl, by simp [CallPlace.phase], rfl, .inl rfl, .inr ⟨record, journal, rfl, happend⟩⟩
  | appendNotifies =>
    obtain rfl := Option.some.inj h
    exact ⟨rfl, rfl, by simp [CallPlace.phase], rfl, .inr rfl, .inl rfl⟩
  | flushWaits before =>
    dsimp only [act] at h
    split at h <;> cases h
    exact ⟨rfl, rfl, by simp [CallPlace.phase], rfl, .inl rfl, .inl rfl⟩
  | flushTests before =>
    obtain rfl := Option.some.inj h
    unfold flushSection
    split
    · refine ⟨rfl, rfl, by simp [CallPlace.phase], rfl, .inl rfl, .inl ?_⟩
      rcases flushIdle_frame { sync := io.sync } state.journal with hsame | ⟨-, -, status, hfailed⟩
      · exact congrArg (·.queue) hsame
      · exact congrArg (·.queue) hfailed
    · exact ⟨rfl, rfl, by simp [CallPlace.phase], rfl, .inl rfl, .inl rfl⟩
  | compactWaits snapshot =>
    dsimp only [act] at h
    split at h <;> cases h
    exact ⟨rfl, rfl, by simp [CallPlace.phase], rfl, .inl rfl, .inl rfl⟩
  | compactTests snapshot =>
    obtain rfl := Option.some.inj h
    unfold compactSection
    split
    · exact ⟨rfl, rfl, by simp [CallPlace.phase], rfl, .inl rfl, .inl rfl⟩
    · split
      · exact ⟨rfl, rfl, by simp [CallPlace.phase], rfl, .inl rfl, .inl rfl⟩
      · split
        · exact ⟨rfl, rfl, by simp [CallPlace.phase], rfl, .inl rfl, .inl rfl⟩
        · split <;> exact ⟨rfl, rfl, by simp [CallPlace.phase], rfl, .inl rfl, .inl rfl⟩
  | compactReplaces snapshot =>
    obtain rfl := Option.some.inj h
    have hqueue := (replaceFile_frame io.compaction snapshot state.journal).1
    unfold compactReplace
    split
    · next hreplace =>
      rw [hreplace] at hqueue
      exact ⟨rfl, rfl, by simp [CallPlace.phase], rfl, .inl rfl, .inl hqueue⟩
    · next hreplace =>
      rw [hreplace] at hqueue
      exact ⟨rfl, rfl, by simp [CallPlace.phase], rfl, .inl rfl, .inl hqueue⟩
  | compactResumes answer =>
    obtain rfl := Option.some.inj h
    exact ⟨rfl, rfl, by simp [CallPlace.phase], rfl, .inl rfl, .inl rfl⟩
  | compactNotifies answer =>
    obtain rfl := Option.some.inj h
    exact ⟨rfl, rfl, by simp [CallPlace.phase], rfl, .inr rfl, .inl rfl⟩
  | stopMarks =>
    obtain rfl := Option.some.inj h
    unfold stopMark
    split <;> exact ⟨rfl, rfl, by simp [CallPlace.phase], rfl, .inl rfl, .inl rfl⟩
  | stopNotifies join =>
    obtain rfl := Option.some.inj h
    cases join <;> exact ⟨rfl, rfl, by simp [CallPlace.phase], rfl, .inr rfl, .inl rfl⟩
  | stopJoins =>
    dsimp only [act] at h
    split at h <;> cases h
    exact ⟨rfl, rfl, by simp [CallPlace.phase], rfl, .inl rfl, .inl rfl⟩
  | stopCloses =>
    obtain rfl := Option.some.inj h
    exact ⟨rfl, rfl, by simp [CallPlace.phase, stopClose], rfl, .inl rfl, .inl rfl⟩
  | flushSleeps before => cases h
  | compactSleeps snapshot => cases h
  | appended answer => cases h
  | flushed before answer => cases h
  | compacted answer => cases h
  | stopped answer => cases h

theorem act_notifies (hnotifies : place.notifies = true) (h : state.act io place = some result) :
    result.1.writer ≠ .asleep := by
  cases place with
  | appendNotifies =>
    obtain rfl := Option.some.inj h
    exact state.notifyQueue_writer
  | compactNotifies answer =>
    obtain rfl := Option.some.inj h
    exact state.notifyQueue_writer
  | stopNotifies join =>
    obtain rfl := Option.some.inj h
    exact state.notifyQueue_writer
  | _ => cases hnotifies

theorem writerStep_calls (state : ThreadedJournal) (io : ThreadIo) :
    (state.writerStep io).calls = state.calls ∨ (state.writerStep io).calls = state.calls.map CallPlace.wake := by
  unfold writerStep
  split
  · unfold writerTest
    split_ifs <;> exact .inl rfl
  · exact .inl rfl
  · unfold writerWrite
    split <;> exact .inl rfl
  · unfold writerBook
    split <;> exact .inr rfl
  · unfold writerSync
    split <;> exact .inl rfl
  · exact .inl rfl
  · exact .inr rfl
  · exact .inl rfl

section
variable (hold : state.calls[index]? = some place)
include hold

theorem step_other {event : ThreadEvent} (hnot : ¬ event.Acts (.caller index)) :
    (state.step event).calls[index]? = some place ∨ (state.step event).calls[index]? = some place.wake := by
  have hlength := (List.getElem?_eq_some_iff.mp hold).1
  cases event with
  | call call =>
    dsimp only [step]
    split
    · exact .inl hold
    · exact .inl (by rw [List.getElem?_append_left hlength]; exact hold)
  | caller other io =>
    have hne : other ≠ index := hnot
    dsimp only [step, callerStep]
    split
    · exact .inl hold
    · next after new hact =>
      obtain ⟨old, -, hact⟩ := Option.bind_eq_some_iff.mp hact
      refine .inl ?_
      dsimp only
      rw [(act_forward hact).calls, List.getElem?_set_ne hne]
      exact hold
  | writer io =>
    dsimp only [step]
    rcases state.writerStep_calls io with hsame | hwoken
    · exact .inl (by rw [hsame]; exact hold)
    · exact .inr (by rw [hwoken, List.getElem?_map, hold]; rfl)
  | wakeCaller other =>
    dsimp only [step, wakeCaller]
    split
    · exact .inl hold
    · next old hother =>
      by_cases heq : other = index
      · subst heq
        obtain rfl : old = place := Option.some.inj (hother.symm.trans hold)
        exact .inr (List.getElem?_set_self hlength)
      · exact .inl (by dsimp only; rw [List.getElem?_set_ne heq]; exact hold)
  | wakeWriter => exact .inl hold

theorem step_own (hact : state.act io place = some result) :
    (state.step (.caller index io)).calls[index]? = some result.2 := by
  have hlength := (List.getElem?_eq_some_iff.mp hold).1
  obtain ⟨after, new⟩ := result
  simp only [step, callerStep, hold, Option.bind_some, hact]
  rw [(act_forward hact).calls, List.getElem?_set_self hlength]

theorem step_blocked (hact : state.act io place = none) : state.step (.caller index io) = state := by
  simp only [step, callerStep, hold, Option.bind_some, hact]

theorem step_forward (event : ThreadEvent) :
    ∃ new, (state.step event).calls[index]? = some new ∧ new.kind = place.kind ∧ place.phase ≤ new.phase ∧
      (place.returned = true → new = place) := by
  have hwake : place.returned = true → place.wake = place := by
    intro hreturned
    cases place <;> first | rfl | cases hreturned
  by_cases hacts : event.Acts (.caller index)
  · cases event with
    | caller other io =>
      obtain rfl : other = index := hacts
      cases hact : state.act io place with
      | none => exact ⟨place, by rw [step_blocked hold hact]; exact hold, rfl, le_rfl, fun _ => rfl⟩
      | some result =>
        have hforward := act_forward hact
        refine ⟨result.2, step_own hold hact, hforward.kind, hforward.phase, fun hreturned => ?_⟩
        rw [hforward.going] at hreturned
        cases hreturned
    | call call => cases hacts
    | writer io => cases hacts
    | wakeCaller other => cases hacts
    | wakeWriter => cases hacts
  · rcases step_other hold hacts with hsame | hwoken
    · exact ⟨place, hsame, rfl, le_rfl, fun _ => rfl⟩
    · exact ⟨place.wake, hwoken, place.wake_kind, place.wake_phase.ge, hwake⟩

end

end Step

/-! ## The work of the writer -/

/-- The steps the writer needs for what is queued. -/
def work (state : ThreadedJournal) : ℕ :=
  3 * state.journal.queue.length + (match state.writer with
    | .taken => 2
    | .wrote _ => 1
    | _ => 0)

def Enqueues (state : ThreadedJournal) (event : ThreadEvent) : Prop :=
  ∃ index io record journal, event = .caller index io ∧ state.calls[index]? = some (.appendHolds record) ∧
    state.journal.append record.kind record.ordinal record.body = .ok journal

section Work
variable {state : ThreadedJournal}

theorem work_congr {after : ThreadedJournal} (hqueue : after.journal.queue = state.journal.queue)
    (hwriter : after.writer = state.writer) : after.work = state.work := by
  rw [work, work, hqueue, hwriter]

theorem notifyQueue_work (state : ThreadedJournal) : state.notifyQueue.work = state.work := by
  unfold notifyQueue work
  by_cases hasleep : state.writer = .asleep
  · simp [hasleep]
  · simp [hasleep]

theorem writerStep_work (h : state.Core) (io : ThreadIo) :
    (state.writerStep io).work ≤ state.work ∧ (state.writer.busy = true → (state.writerStep io).work < state.work) := by
  unfold writerStep
  split
  · next hwriter =>
    refine ⟨?_, fun hbusy => absurd hbusy (by rw [hwriter]; decide)⟩
    have hwriting := h.not_writing (by rw [hwriter]; rfl)
    unfold writerTest
    split
    · simp [work, hwriter]
    · split
      · exact state.notifyQueue_work.le
      · split
        · split
          · simp [work, hwriter]
          · exact le_rfl
        · next hqueue =>
          obtain ⟨record, rest, hrecords⟩ := List.exists_cons_of_ne_nil hqueue
          simp only [work, take, hwriting, hrecords, hwriter, List.length_cons]
          omega
  · next hwriter => exact ⟨le_rfl, fun hbusy => absurd hbusy (by rw [hwriter]; decide)⟩
  · next hwriter =>
    have hwriting : state.journal.writing.isSome = true := by rw [h.writing, hwriter]; rfl
    obtain ⟨record, hrecord⟩ := Option.isSome_iff_exists.mp hwriting
    have hless : (state.writerWrite io).work < state.work := by
      unfold writerWrite
      split
      · next hnone =>
        rw [hrecord] at hnone
        cases hnone
      · simp [work, hwriter]
      · simp [work, hwriter, putBytes]
      · simp [work, hwriter, putBytes]
    exact ⟨hless.le, fun _ => hless⟩
  · next result hwriter =>
    have hless : (state.writerBook result).work < state.work := by
      unfold writerBook
      split
      · simp [work, hwriter, notifyIdle, bookWritten]
      · simp [work, hwriter, notifyIdle]
      · simp [work, hwriter, notifyIdle, failWith]
    exact ⟨hless.le, fun _ => hless⟩
  · next hwriter =>
    refine ⟨?_, fun hbusy => absurd hbusy (by rw [hwriter]; decide)⟩
    unfold writerSync
    split <;> simp [work, hwriter]
  · next hwriter =>
    refine ⟨by simp [work, hwriter], fun hbusy => absurd hbusy (by rw [hwriter]; simp [WriterPlace.busy])⟩
  · next hwriter =>
    refine ⟨by simp [work, hwriter, notifyIdle], fun hbusy => absurd hbusy (by rw [hwriter]; decide)⟩
  · next hwriter => exact ⟨le_rfl, fun hbusy => absurd hbusy (by rw [hwriter]; decide)⟩

theorem writerStep_progress (h : state.Core) (io : ThreadIo) (hpaused : state.paused = false) (hwork : state.work ≠ 0)
    (hawake : state.writer ≠ .asleep) (hleft : state.writer.left = false) :
    (state.writerStep io).work < state.work := by
  by_cases hbusy : state.writer.busy = true
  · exact (writerStep_work h io).2 hbusy
  · have hready : state.writer = .ready := by
      cases hwriter : state.writer <;> rw [hwriter] at hbusy hleft hawake <;>
        first | rfl | exact absurd rfl hawake | exact absurd rfl hbusy | cases hleft
    have hwriting := h.not_writing (by simpa using hbusy)
    have hqueue : state.journal.queue ≠ [] := by
      intro hnil
      exact hwork (by rw [work, hnil, hready]; rfl)
    have hwanted : state.journal.Wanted false := .inl ⟨hqueue, rfl⟩
    obtain ⟨record, rest, hrecords⟩ := List.exists_cons_of_ne_nil hqueue
    have hstep : state.writerStep io = { state with journal := state.journal.take, writer := .taken } := by
      simp [writerStep, hready, writerTest, hwanted, hpaused, hqueue]
    rw [hstep]
    simp only [work, take, hwriting, hrecords, hready, List.length_cons]
    omega

theorem Forward.work {place : CallPlace} {result : ThreadedJournal × CallPlace} (h : state.Forward place result)
    (hnot : ∀ record journal, place = .appendHolds record →
      state.journal.append record.kind record.ordinal record.body ≠ .ok journal) : result.1.work = state.work := by
  rcases h.queue with hqueue | ⟨record, journal, hplace, happend⟩
  · rcases h.writer with hsame | hnotified
    · exact work_congr hqueue hsame
    · have hwork : result.1.work = state.notifyQueue.work := work_congr hqueue hnotified
      exact hwork.trans state.notifyQueue_work
  · exact absurd happend (hnot record journal hplace)

theorem step_work (h : state.Core) {event : ThreadEvent} (hnot : ¬ state.Enqueues event) :
    (state.step event).work ≤ state.work := by
  cases event with
  | call call =>
    dsimp only [step]
    split <;> exact le_rfl
  | caller index io =>
    dsimp only [step, callerStep]
    split
    · exact le_rfl
    · next after new hact =>
      obtain ⟨place, hold, hact⟩ := Option.bind_eq_some_iff.mp hact
      have hwork := (act_forward hact).work fun record journal hplace happend =>
        hnot ⟨index, io, record, journal, rfl, hplace ▸ hold, happend⟩
      exact (work_congr rfl rfl).trans_le hwork.le
  | writer io => exact (writerStep_work h io).1
  | wakeCaller index =>
    dsimp only [step, wakeCaller]
    split <;> exact le_rfl
  | wakeWriter => exact state.notifyQueue_work.le

theorem step_writer {event : ThreadEvent} (hnot : ¬ event.Acts .writer) (hawake : state.writer ≠ .asleep) :
    (state.step event).writer = state.writer := by
  have hnotify : state.notifyQueue.writer = state.writer := by simp [notifyQueue, hawake]
  cases event with
  | call call =>
    dsimp only [step]
    split <;> rfl
  | caller index io =>
    dsimp only [step, callerStep]
    split
    · rfl
    · next after new hact =>
      obtain ⟨place, hold, hact⟩ := Option.bind_eq_some_iff.mp hact
      rcases (act_forward hact).writer with hsame | hnotified
      · exact hsame
      · exact hnotified.trans hnotify
  | writer io => exact absurd trivial hnot
  | wakeCaller index =>
    dsimp only [step, wakeCaller]
    split <;> rfl
  | wakeWriter => exact hnotify

end Work

end ThreadedJournal

end Lqf
