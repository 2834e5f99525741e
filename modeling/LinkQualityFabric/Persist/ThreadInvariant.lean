import LinkQualityFabric.Persist.ThreadedJournal

/-! What holds of a journal and its threads in every interleaving, whatever the file system does.

The compaction lock keeps its holders apart; the writer is busy exactly while a record is being written; a call
that waits for the writer waits for something the writer has still to do; and while the writer sleeps beside work
some call is about to notify it. -/
namespace Lqf
set_option autoImplicit false

namespace WriterPlace

def busy : WriterPlace → Bool
  | taken | wrote _ => true
  | _ => false

def left : WriterPlace → Bool
  | leaving | failing _ | closing | ended => true
  | _ => false

end WriterPlace

namespace CallPlace

def pauses : CallPlace → Bool
  | compactReplaces _ | compactResumes _ => true
  | _ => false

def stopNotifying : CallPlace → Bool
  | stopNotifies _ => true
  | _ => false

def notifies : CallPlace → Bool
  | appendNotifies | compactNotifies _ | stopNotifies _ => true
  | _ => false

variable (place : CallPlace)

@[simp] theorem wake_unique : place.wake.unique = place.unique := by cases place <;> rfl
@[simp] theorem wake_holds : place.wake.holds = place.holds := by cases place <;> rfl
@[simp] theorem wake_pauses : place.wake.pauses = place.pauses := by cases place <;> rfl
@[simp] theorem wake_notifies : place.wake.notifies = place.notifies := by cases place <;> rfl
@[simp] theorem wake_stopNotifying : place.wake.stopNotifying = place.stopNotifying := by
  cases place <;> rfl

/-! ## The compaction lock -/

def Exclusive (calls : List CallPlace) : Prop :=
  ∀ (i j : ℕ) (p q : CallPlace), calls[i]? = some p → calls[j]? = some q → p.unique = true → q.holds = true → i = j

section Exclusive
variable {calls : List CallPlace} {index : ℕ} {old new : CallPlace}

theorem Exclusive.nil : Exclusive [] := by
  intro i j p q hp
  cases hp

theorem Exclusive.map {f : CallPlace → CallPlace} (h : Exclusive calls) (hunique : ∀ p, (f p).unique = p.unique)
    (hholds : ∀ p, (f p).holds = p.holds) : Exclusive (calls.map f) := by
  intro i j p q hp hq hpu hqh
  rw [List.getElem?_map, Option.map_eq_some_iff] at hp hq
  obtain ⟨p, hp, rfl⟩ := hp
  obtain ⟨q, hq, rfl⟩ := hq
  rw [hunique] at hpu
  rw [hholds] at hqh
  exact h i j p q hp hq hpu hqh

theorem getElem?_set_cases {i : ℕ} {p : CallPlace} (h : (calls.set index new)[i]? = some p) :
    i = index ∧ p = new ∨ i ≠ index ∧ calls[i]? = some p := by
  by_cases hi : i = index
  · subst hi
    rw [List.getElem?_set_self'] at h
    obtain ⟨_, _, rfl⟩ := Option.map_eq_some_iff.mp h
    exact .inl ⟨rfl, rfl⟩
  · rw [List.getElem?_set_ne (Ne.symm hi)] at h
    exact .inr ⟨hi, h⟩

theorem Exclusive.set (h : Exclusive calls) (hold : calls[index]? = some old)
    (hunique : new.unique = true → old.unique = true) (hholds : new.holds = true → old.holds = true) :
    Exclusive (calls.set index new) := by
  intro i j p q hp hq hpu hqh
  rcases getElem?_set_cases hp with ⟨hi, rfl⟩ | ⟨-, hp'⟩
  · rcases getElem?_set_cases hq with ⟨hj, -⟩ | ⟨-, hq'⟩
    · rw [hi, hj]
    · rw [hi]
      exact h index j old q hold hq' (hunique hpu) hqh
  · rcases getElem?_set_cases hq with ⟨hj, rfl⟩ | ⟨-, hq'⟩
    · rw [hj]
      exact h i index p old hp' hold hpu (hholds hqh)
    · exact h i j p q hp' hq' hpu hqh

theorem Exclusive.set_shared (hnone : calls.any CallPlace.unique = false) (hnew : new.unique = false) :
    Exclusive (calls.set index new) := by
  intro i j p q hp hq hpu hqh
  rcases getElem?_set_cases hp with ⟨rfl, rfl⟩ | ⟨-, hp⟩
  · rw [hnew] at hpu
    cases hpu
  · rw [List.any_eq_false.mp hnone p (List.mem_of_getElem? hp) |> Bool.eq_false_iff.mpr] at hpu
    cases hpu

theorem Exclusive.set_unique (hnone : calls.any CallPlace.holds = false) : Exclusive (calls.set index new) := by
  have hfree : ∀ {i : ℕ} {p : CallPlace}, calls[i]? = some p → p.holds = false := fun hp =>
    Bool.eq_false_iff.mpr (List.any_eq_false.mp hnone _ (List.mem_of_getElem? hp))
  intro i j p q hp hq hpu hqh
  rcases getElem?_set_cases hp with ⟨rfl, -⟩ | ⟨-, hp⟩
  · rcases getElem?_set_cases hq with ⟨rfl, -⟩ | ⟨-, hq⟩
    · rfl
    · rw [hfree hq] at hqh
      cases hqh
  · have := hfree hp
    rw [CallPlace.holds, hpu] at this
    cases this

theorem Exclusive.append (h : Exclusive calls) (hnew : new.holds = false) : Exclusive (calls ++ [new]) := by
  have hearlier : ∀ {i : ℕ} {p : CallPlace}, (calls ++ [new])[i]? = some p → p.holds = true → calls[i]? = some p := by
    intro i p hp hholds
    by_cases hi : i < calls.length
    · rwa [List.getElem?_append_left hi] at hp
    · rw [List.getElem?_append_right (not_lt.mp hi)] at hp
      obtain rfl := List.mem_singleton.mp (List.mem_of_getElem? hp)
      rw [hnew] at hholds
      cases hholds
  intro i j p q hp hq hpu hqh
  exact h i j p q (hearlier hp (by rw [CallPlace.holds, hpu]; rfl)) (hearlier hq hqh) hpu hqh

end Exclusive

theorem exists_set {calls : List CallPlace} {index : ℕ} {old new : CallPlace} {φ : CallPlace → Bool}
    (hold : calls[index]? = some old) (hkeep : φ old = true → φ new = true) (h : ∃ p ∈ calls, φ p = true) :
    ∃ p ∈ calls.set index new, φ p = true := by
  obtain ⟨p, hp, hφ⟩ := h
  obtain ⟨i, hi⟩ := List.mem_iff_getElem?.mp hp
  by_cases heq : i = index
  · subst heq
    obtain rfl : p = old := Option.some.inj (hi.symm.trans hold)
    exact ⟨new, List.mem_set (List.getElem?_eq_some_iff.mp hold).1 new, hkeep hφ⟩
  · exact ⟨p, List.mem_iff_getElem?.mpr ⟨i, by rw [List.getElem?_set_ne (Ne.symm heq)]; exact hi⟩, hφ⟩

end CallPlace

namespace ThreadedJournal
open BackgroundJournal

/-! ## The journal and the writer -/

structure Core (state : ThreadedJournal) : Prop where
  writing : state.journal.writing.isSome = state.writer.busy
  left : state.writer.left = true →
    state.journal.queue = [] ∧ (state.journal.accepting = false ∨ state.journal.failure.isSome = true)
  failed : state.journal.failure.isSome = true → state.journal.queue = [] ∧ state.journal.writing = none
  stopping : state.journal.stopping = true → state.journal.accepting = false
  joined : state.joined = true → state.writer = .ended ∧ state.journal.stopping = true

def Idle (state : ThreadedJournal) : Prop := state.journal.queue = [] ∧ state.journal.writing = none

/-- What holds while a call stands at a place. -/
def PlaceOk (state : ThreadedJournal) : CallPlace → Prop
  | .flushSleeps _ | .compactSleeps _ => ¬ state.journal.Quiescent
  | .compactReplaces _ => state.Idle ∧ state.paused = true
  | .stopNotifies join => state.journal.stopping = true ∧ (join = false → state.writer = .ended)
  | .stopJoins => state.journal.stopping = true ∧ state.writer ≠ .asleep
  | .stopCloses | .stopped _ => state.writer = .ended
  | _ => True

structure Sane (state : ThreadedJournal) : Prop where
  core : state.Core
  exclusive : CallPlace.Exclusive state.calls
  places : ∀ place ∈ state.calls, state.PlaceOk place
  paused : state.paused = true → ∃ place ∈ state.calls, place.pauses = true
  pending : state.writer = .asleep → state.journal.queue ≠ [] →
    state.paused = true ∨ ∃ place ∈ state.calls, place.notifies = true
  stopPending : state.writer = .asleep → state.journal.stopping = true →
    ∃ place ∈ state.calls, place.stopNotifying = true

theorem start_sane {io : StartIo} {config : JournalConfig} {disk : Disk} {epoch : UInt64} {wallNanos : Int64}
    {journal : BackgroundJournal} (h : BackgroundJournal.start io config disk epoch wallNanos = .ok journal) :
    (start journal).Sane := by
  obtain ⟨-, rfl⟩ := start_eq_ok h
  exact
    { core := ⟨rfl, nofun, nofun, nofun, nofun⟩
      exclusive := CallPlace.Exclusive.nil
      places := fun _ hplace => nomatch hplace
      paused := nofun
      pending := nofun
      stopPending := nofun }

/-! ## Steps of a call -/

section Calls
variable {state : ThreadedJournal} {index : ℕ} {old : CallPlace}

/-- A step of one call that leaves what the places of the others rely on. -/
theorem Sane.move (h : state.Sane) (after : ThreadedJournal) (new : CallPlace)
    (hold : state.calls[index]? = some old) (hcalls : after.calls = state.calls)
    (hcore : after.Core) (hlock : CallPlace.Exclusive (state.calls.set index new))
    (hothers : ∀ place ∈ state.calls, state.PlaceOk place → after.PlaceOk place) (hnew : after.PlaceOk new)
    (hpaused : after.paused = true → new.pauses = true ∨ state.paused = true ∧ old.pauses = false)
    (hpending : after.writer = .asleep → after.journal.queue ≠ [] → new.notifies = true ∨
      old.notifies = false ∧ (after.paused = true ∨ state.writer = .asleep ∧ state.journal.queue ≠ [] ∧
        state.paused = false))
    (hstop : after.writer = .asleep → after.journal.stopping = true → new.stopNotifying = true ∨
      old.stopNotifying = false ∧ state.writer = .asleep ∧ state.journal.stopping = true) :
    Sane { after with calls := after.calls.set index new } := by
  have hmem : new ∈ state.calls.set index new := List.mem_set (List.getElem?_eq_some_iff.mp hold).1 new
  rw [hcalls]
  refine
    { core := { hcore with }
      exclusive := hlock
      places := ?_
      paused := ?_
      pending := ?_
      stopPending := ?_ }
  · intro place hplace
    rcases List.mem_or_eq_of_mem_set hplace with hearlier | rfl
    · exact hothers place hearlier (h.places place hearlier)
    · exact hnew
  · intro hon
    rcases hpaused hon with hpauses | ⟨hbefore, hno⟩
    · exact ⟨new, hmem, hpauses⟩
    · exact CallPlace.exists_set hold (fun hyes => absurd hyes (by rw [hno]; decide)) (h.paused hbefore)
  · intro hasleep hqueue
    rcases hpending hasleep hqueue with hnotifies | ⟨hno, hon | ⟨hbefore, hqueued, hoff⟩⟩
    · exact .inr ⟨new, hmem, hnotifies⟩
    · exact .inl hon
    · refine .inr (CallPlace.exists_set hold (fun hyes => absurd hyes (by rw [hno]; decide)) ?_)
      rcases h.pending hbefore hqueued with hon | hnotifier
      · rw [hoff] at hon
        cases hon
      · exact hnotifier
  · intro hasleep hstopping
    rcases hstop hasleep hstopping with hnotifies | ⟨hno, hbefore, hstopped⟩
    · exact ⟨new, hmem, hnotifies⟩
    · exact CallPlace.exists_set hold (fun hyes => absurd hyes (by rw [hno]; decide)) (h.stopPending hbefore hstopped)

theorem Sane.stay (h : state.Sane) (new : CallPlace) (hold : state.calls[index]? = some old)
    (hlock : CallPlace.Exclusive (state.calls.set index new)) (hnew : state.PlaceOk new) (hpauses : old.pauses = false)
    (hnotifies : old.notifies = false) (hstop : old.stopNotifying = false) :
    Sane { state with calls := state.calls.set index new } := by
  refine h.move state new hold rfl h.core hlock (fun _ _ hok => hok) hnew (fun hon => .inr ⟨hon, hpauses⟩) ?_
    (fun hasleep hstopping => .inr ⟨hstop, hasleep, hstopping⟩)
  intro hasleep hqueue
  refine .inr ⟨hnotifies, ?_⟩
  cases hon : state.paused with
  | true => exact .inl rfl
  | false => exact .inr ⟨hasleep, hqueue, rfl⟩

variable {place : CallPlace} {snapshot : JournalRecord}

theorem PlaceOk.imp {after : ThreadedJournal} (h : state.PlaceOk place)
    (hquiet : after.journal.Quiescent → state.journal.Quiescent)
    (hidle : ∀ snapshot, place = .compactReplaces snapshot → state.Idle → state.paused = true →
      after.Idle ∧ after.paused = true) (hstop : state.journal.stopping = true → after.journal.stopping = true)
    (hended : state.writer = .ended → after.writer = .ended)
    (hasleep : after.writer = .asleep → state.writer = .asleep) : after.PlaceOk place := by
  cases place with
  | flushSleeps before => exact fun hnow => h (hquiet hnow)
  | compactSleeps snapshot => exact fun hnow => h (hquiet hnow)
  | compactReplaces snapshot => exact hidle snapshot rfl h.1 h.2
  | stopNotifies join => exact ⟨hstop h.1, fun hjoin => hended (h.2 hjoin)⟩
  | stopJoins => exact ⟨hstop h.1, fun hnow => h.2 (hasleep hnow)⟩
  | stopCloses => exact hended h
  | stopped answer => exact hended h
  | _ => trivial

theorem Sane.shared_only (h : state.Sane) (hold : state.calls[index]? = some old) (hholds : old.holds = true)
    (hnot : old.unique = false) (hplace : place ∈ state.calls) : place.unique = false := by
  obtain ⟨i, hi⟩ := List.mem_iff_getElem?.mp hplace
  by_contra hyes
  obtain rfl := h.exclusive i index place old hi hold (by simpa using hyes) hholds
  obtain rfl : place = old := Option.some.inj (hi.symm.trans hold)
  exact hyes hnot

theorem Sane.unique_only (h : state.Sane) (hold : state.calls[index]? = some old) (hunique : old.unique = true)
    (hplace : place ∈ state.calls) (hholds : place.holds = true) : place = old := by
  obtain ⟨i, hi⟩ := List.mem_iff_getElem?.mp hplace
  obtain rfl := h.exclusive index i old place hold hi hunique hholds
  exact Option.some.inj (hi.symm.trans hold)

theorem notifyQueue_core (h : state.Core) : state.notifyQueue.Core := by
  unfold notifyQueue
  by_cases hasleep : state.writer = .asleep
  · simp only [hasleep, if_true]
    refine ⟨by have := h.writing; rw [hasleep] at this; exact this, nofun, h.failed, h.stopping, ?_⟩
    intro hjoined
    rw [(h.joined hjoined).1] at hasleep
    cases hasleep
  · simp only [hasleep, if_false]
    exact h

theorem notifyQueue_writer (state : ThreadedJournal) : state.notifyQueue.writer ≠ .asleep := by
  unfold notifyQueue
  by_cases hasleep : state.writer = .asleep
  · simp [hasleep]
  · simp [hasleep]

theorem notifyQueue_ended (h : state.writer = .ended) : state.notifyQueue.writer = .ended := by
  simp [notifyQueue, h]

theorem Sane.notify (h : state.Sane) (new : CallPlace) (hold : state.calls[index]? = some old)
    (hlock : CallPlace.Exclusive (state.calls.set index new)) (hnew : state.notifyQueue.PlaceOk new)
    (hpauses : old.pauses = false) :
    Sane { state.notifyQueue with calls := state.notifyQueue.calls.set index new } := by
  refine h.move state.notifyQueue new hold rfl (notifyQueue_core h.core) hlock ?_ hnew (fun hon => .inr ⟨hon, hpauses⟩)
    (fun hasleep => absurd hasleep state.notifyQueue_writer) (fun hasleep => absurd hasleep state.notifyQueue_writer)
  intro place _ hok
  exact hok.imp id (fun _ _ => And.intro) id notifyQueue_ended
    (fun hasleep => absurd hasleep state.notifyQueue_writer)

theorem Sane.append (h : state.Sane) {record : JournalRecord}
    (hold : state.calls[index]? = some (.appendHolds record)) {after : BackgroundJournal}
    (happend : state.journal.append record.kind record.ordinal record.body = .ok after) : Sane { state with
      journal := after, accepted := state.accepted ++ [record], calls := state.calls.set index .appendNotifies } := by
  obtain ⟨-, -, hopen, haccepting, hfailure, -, -, rfl⟩ := append_eq_ok.mp happend
  refine h.move { state with journal := _, accepted := state.accepted ++ [record] } .appendNotifies hold rfl ?_
    (h.exclusive.set hold nofun (fun _ => rfl)) ?_ trivial (fun hon => .inr ⟨hon, rfl⟩) (fun _ _ => .inl rfl)
    (fun hasleep hstopping => .inr ⟨rfl, hasleep, hstopping⟩)
  · refine ⟨h.core.writing, ?_, ?_, h.core.stopping, h.core.joined⟩
    · intro hleft
      rcases (h.core.left hleft).2 with hoff | hfailed
      · rw [haccepting] at hoff
        cases hoff
      · rw [hfailure] at hfailed
        cases hfailed
    · intro hfailed
      rw [hfailure] at hfailed
      cases hfailed
  · intro place hplace hok
    refine hok.imp ?_ ?_ id id id
    · rintro (⟨hqueue, -⟩ | hdown)
      · exact absurd hqueue (by simp)
      · exact .inr hdown
    · rintro snapshot rfl
      cases h.shared_only hold rfl rfl hplace

theorem flushIdle_frame (io : FlushIo) (journal : BackgroundJournal) :
    (flushIdle io journal).2 = journal ∨ journal.failure = none ∧ journal.isOpen = true ∧
      ∃ status, (flushIdle io journal).2 = { journal with failure := some status } := by
  unfold flushIdle
  split
  · exact .inl rfl
  · next hopen =>
    split
    · exact .inl rfl
    · next hfailure _ _ => exact .inr ⟨hfailure, by simpa using hopen, _, rfl⟩
    · exact .inl rfl

theorem idle_of_quiescent (hquiet : state.journal.Quiescent) (hopen : ¬ state.journal.isOpen = false)
    (hfailure : state.journal.failure = none) : state.Idle := by
  rcases hquiet with hidle | hdown | hclosed
  · exact hidle
  · rw [hfailure] at hdown
    cases hdown
  · exact absurd hclosed hopen

theorem Sane.flush (h : state.Sane) {before : ℕ} (hold : state.calls[index]? = some (.flushTests before)) (io : ThreadIo)
    (hquiet : state.journal.Quiescent) : Sane { state with
      journal := (flushIdle { sync := io.sync } state.journal).2
      calls := state.calls.set index (.flushed before (flushIdle { sync := io.sync } state.journal).1) } := by
  have hlock : CallPlace.Exclusive
      (state.calls.set index (.flushed before (flushIdle { sync := io.sync } state.journal).1)) :=
    h.exclusive.set hold nofun nofun
  rcases flushIdle_frame { sync := io.sync } state.journal with hsame | ⟨hfailure, hopen, status, hfailed⟩
  · rw [hsame]
    exact h.stay _ hold hlock trivial rfl rfl rfl
  · have hidle := idle_of_quiescent hquiet (by simp [hopen]) hfailure
    rw [hfailed]
    refine h.move { state with journal := { state.journal with failure := some status } } _ hold rfl
      ⟨h.core.writing, fun hleft => ⟨hidle.1, .inr rfl⟩, fun _ => hidle, h.core.stopping, h.core.joined⟩ hlock ?_ trivial
      (fun hon => .inr ⟨hon, rfl⟩) (fun _ hqueue => absurd hidle.1 hqueue)
      (fun hasleep hstopping => .inr ⟨rfl, hasleep, hstopping⟩)
    intro place _ hok
    exact hok.imp (fun _ => .inl hidle) (fun _ _ => And.intro) id id id

theorem Sane.pause (h : state.Sane) (hold : state.calls[index]? = some (.compactTests snapshot))
    (hquiet : state.journal.Quiescent) (hopen : ¬ state.journal.isOpen = false)
    (hfailure : state.journal.failure = none) :
    Sane { state with paused := true, calls := state.calls.set index (.compactReplaces snapshot) } := by
  have hidle := idle_of_quiescent hquiet hopen hfailure
  refine h.move { state with paused := true } _ hold rfl
    ⟨h.core.writing, h.core.left, h.core.failed, h.core.stopping, h.core.joined⟩
    (h.exclusive.set hold (fun _ => rfl) (fun _ => rfl)) ?_ ⟨hidle, rfl⟩ (fun _ => .inl rfl)
    (fun _ hqueue => absurd hidle.1 hqueue) (fun hasleep hstopping => .inr ⟨rfl, hasleep, hstopping⟩)
  intro place _ hok
  exact hok.imp id (fun _ _ hidle _ => ⟨hidle, rfl⟩) id id id

structure KeepsQueue (journal after : BackgroundJournal) : Prop where
  queue : after.queue = journal.queue
  writing : after.writing = journal.writing
  stopping : after.stopping = journal.stopping
  accepting : journal.accepting = false → after.accepting = false
  failure : journal.failure.isSome = true → after.failure.isSome = true

theorem KeepsQueue.fallBack {journal after : BackgroundJournal} (h : KeepsQueue journal after) (io : CompactIo)
    (status : Status) : KeepsQueue journal (fallBack io status after).2 := by
  unfold BackgroundJournal.fallBack
  split
  · exact { h with }
  · exact ⟨h.queue, h.writing, h.stopping, fun _ => rfl, fun _ => rfl⟩

theorem replaceFile_frame (io : CompactIo) (snapshot : JournalRecord) (journal : BackgroundJournal) :
    KeepsQueue journal (replaceFile io snapshot journal).2 := by
  unfold replaceFile
  split
  · exact .fallBack (by constructor <;> first | rfl | exact id) io _
  · exact .fallBack (by constructor <;> first | rfl | exact id) io _
  · unfold reopen
    split
    · exact ⟨rfl, rfl, rfl, id, id⟩
    · exact .fallBack (by constructor <;> first | rfl | exact id) io _

theorem Sane.replace (h : state.Sane) (hold : state.calls[index]? = some (.compactReplaces snapshot)) (io : CompactIo)
    (after : ThreadedJournal) (answer : Outcome Unit)
    (hjournal : after.journal = (replaceFile io snapshot state.journal).2) (hpaused : after.paused = state.paused)
    (hwriter : after.writer = state.writer) (hjoined : after.joined = state.joined)
    (hcalls : after.calls = state.calls) :
    Sane { after with calls := after.calls.set index (.compactResumes answer) } := by
  obtain ⟨hidle, hon⟩ := h.places _ (List.mem_of_getElem? hold)
  obtain ⟨hqueue, hwriting, hstopping, haccepting, hfailure⟩ := replaceFile_frame io snapshot state.journal
  rw [← hjournal] at hqueue hwriting hstopping haccepting hfailure
  have hstill : after.Idle := ⟨hqueue.trans hidle.1, hwriting.trans hidle.2⟩
  refine h.move after (.compactResumes answer) hold hcalls ?_ (h.exclusive.set hold (fun _ => rfl) (fun _ => rfl)) ?_
    trivial (fun _ => .inl rfl) (fun _ hqueued => absurd hstill.1 hqueued)
    (fun hasleep hstop => .inr ⟨rfl, hwriter ▸ hasleep, hstopping ▸ hstop⟩)
  · refine ⟨by rw [hwriting, hwriter]; exact h.core.writing, ?_, fun _ => hstill, ?_, ?_⟩
    · intro hleft
      rw [hwriter] at hleft
      exact ⟨hstill.1, (h.core.left hleft).2.imp haccepting hfailure⟩
    · intro hstop
      exact haccepting (h.core.stopping (hstopping ▸ hstop))
    · intro hjoin
      rw [hwriter, hstopping]
      exact h.core.joined (hjoined ▸ hjoin)
  · intro place _ hok
    exact hok.imp (fun _ => .inl hidle) (fun _ _ _ _ => ⟨hstill, hpaused.trans hon⟩) (fun hstop => hstopping.trans hstop)
      (fun hended => hwriter.trans hended) (fun hasleep => hwriter.symm.trans hasleep)

theorem Sane.resume (h : state.Sane) {answer : Outcome Unit}
    (hold : state.calls[index]? = some (.compactResumes answer)) :
    Sane { state with paused := false, calls := state.calls.set index (.compactNotifies answer) } := by
  refine h.move { state with paused := false } _ hold rfl
    ⟨h.core.writing, h.core.left, h.core.failed, h.core.stopping, h.core.joined⟩
    (h.exclusive.set hold (fun _ => rfl) (fun _ => rfl)) ?_ trivial nofun (fun _ _ => .inl rfl)
    (fun hasleep hstopping => .inr ⟨rfl, hasleep, hstopping⟩)
  intro place hplace hok
  refine hok.imp id ?_ id id id
  rintro snapshot rfl
  cases h.unique_only hold rfl hplace rfl

theorem Sane.mark (h : state.Sane) (hold : state.calls[index]? = some .stopMarks) :
    Sane { state.stopMark.1 with calls := state.stopMark.1.calls.set index state.stopMark.2 } := by
  have hlock : CallPlace.Exclusive (state.calls.set index (.stopNotifies (!state.joined))) :=
    h.exclusive.set hold nofun nofun
  unfold stopMark
  split
  · refine h.move { state with journal := { state.journal with stopping := true, accepting := false } } _ hold rfl ?_
      hlock ?_ ⟨rfl, fun hjoin => (h.core.joined (by simpa using hjoin)).1⟩ (fun hon => .inr ⟨hon, rfl⟩)
      (fun _ _ => .inl rfl) (fun _ _ => .inl rfl)
    · refine ⟨h.core.writing, fun hleft => ⟨(h.core.left hleft).1, .inl rfl⟩, h.core.failed, fun _ => rfl, ?_⟩
      exact fun hjoin => ⟨(h.core.joined hjoin).1, rfl⟩
    · intro place _ hok
      exact hok.imp id (fun _ _ => And.intro) (fun _ => rfl) id id
  · next hdone =>
    have hjoined : state.joined = true := by
      by_contra hnot
      exact hdone (.inr (by simpa using hnot))
    exact h.stay _ hold hlock ⟨(h.core.joined hjoined).2, fun _ => (h.core.joined hjoined).1⟩ rfl rfl rfl

theorem Sane.join (h : state.Sane) (hold : state.calls[index]? = some .stopJoins) (hended : state.writer = .ended) :
    Sane { state with joined := true, calls := state.calls.set index .stopCloses } := by
  have hstop := (h.places _ (List.mem_of_getElem? hold)).1
  have hawake : state.writer ≠ .asleep := by simp [hended]
  refine h.move { state with joined := true } _ hold rfl
    ⟨h.core.writing, h.core.left, h.core.failed, h.core.stopping, fun _ => ⟨hended, hstop⟩⟩
    (h.exclusive.set hold nofun nofun) ?_ hended (fun hon => .inr ⟨hon, rfl⟩) (fun hasleep => absurd hasleep hawake)
    (fun hasleep => absurd hasleep hawake)
  intro place _ hok
  exact hok.imp id (fun _ _ => And.intro) id id id

theorem Core.idle (h : state.Core) (hended : state.writer = .ended) : state.Idle := by
  refine ⟨(h.left (by rw [hended]; rfl)).1, ?_⟩
  have hwriting := h.writing
  rw [hended] at hwriting
  exact Option.isNone_iff_eq_none.mp (by simpa [WriterPlace.busy] using hwriting)

theorem Sane.close (h : state.Sane) (hold : state.calls[index]? = some .stopCloses) (io : ThreadIo) :
    Sane { (state.stopClose io).1 with calls := (state.stopClose io).1.calls.set index (state.stopClose io).2 } := by
  have hended : state.writer = .ended := h.places _ (List.mem_of_getElem? hold)
  have hidle := h.core.idle hended
  have hawake : state.writer ≠ .asleep := by simp [hended]
  refine h.move (state.stopClose io).1 _ hold rfl ?_ (h.exclusive.set hold nofun nofun) ?_ hended
    (fun hon => .inr ⟨hon, rfl⟩) (fun hasleep => absurd hasleep hawake) (fun hasleep => absurd hasleep hawake)
  · exact ⟨h.core.writing, fun hleft => ⟨hidle.1, .inl rfl⟩, h.core.failed, fun _ => rfl, h.core.joined⟩
  · intro place _ hok
    exact hok.imp (fun _ => .inl hidle) (fun _ _ => And.intro) id id id

theorem Sane.callerStep (h : state.Sane) (index : ℕ) (io : ThreadIo) : (state.callerStep index io).Sane := by
  unfold ThreadedJournal.callerStep
  cases hold : state.calls[index]? with
  | none => exact h
  | some place =>
    rw [Option.bind_some]
    cases place with
    | appendWaits record =>
      dsimp only [act]
      cases hunique : state.calls.any CallPlace.unique with
      | true => exact h
      | false => exact h.stay _ hold (CallPlace.Exclusive.set_shared hunique rfl) trivial rfl rfl rfl
    | appendHolds record =>
      dsimp only [act, appendSection]
      split
      · exact h.stay _ hold (h.exclusive.set hold nofun nofun) trivial rfl rfl rfl
      · next happend => exact h.append hold happend
    | appendNotifies => exact h.notify _ hold (h.exclusive.set hold nofun nofun) trivial rfl
    | flushWaits before =>
      dsimp only [act]
      cases hunique : state.calls.any CallPlace.unique with
      | true => exact h
      | false => exact h.stay _ hold (CallPlace.Exclusive.set_shared hunique rfl) trivial rfl rfl rfl
    | flushTests before =>
      dsimp only [act, flushSection]
      split
      · next hquiet => exact h.flush hold io hquiet
      · next hquiet => exact h.stay _ hold (h.exclusive.set hold nofun (fun _ => rfl)) hquiet rfl rfl rfl
    | compactWaits snapshot =>
      dsimp only [act]
      cases hholds : state.calls.any CallPlace.holds with
      | true => exact h
      | false => exact h.stay _ hold (CallPlace.Exclusive.set_unique hholds) trivial rfl rfl rfl
    | compactTests snapshot =>
      have hstay := fun answer => h.stay (.compacted answer) hold (h.exclusive.set hold nofun nofun) trivial rfl rfl rfl
      dsimp only [act, compactSection]
      split
      · next hquiet => exact h.stay _ hold (h.exclusive.set hold (fun _ => rfl) (fun _ => rfl)) hquiet rfl rfl rfl
      · next hquiet =>
        split
        · exact hstay _
        · next hopen =>
          split
          · exact hstay _
          · next hfailure =>
            split
            · exact hstay _
            · exact h.pause hold (not_not.mp hquiet) hopen hfailure
    | compactReplaces snapshot =>
      dsimp only [act, compactReplace]
      split
      · next after hreplace =>
        exact h.replace hold io.compaction { state with
            journal := after, snapshot := some snapshot, covered := state.accepted.length } _
          (by rw [hreplace]) rfl rfl rfl rfl
      · next after hreplace =>
        exact h.replace hold io.compaction { state with journal := after } _ (by rw [hreplace]) rfl rfl rfl rfl
    | compactResumes answer => exact h.resume hold
    | compactNotifies answer => exact h.notify _ hold (h.exclusive.set hold nofun nofun) trivial rfl
    | stopMarks => exact h.mark hold
    | stopNotifies join =>
      have hok := h.places _ (List.mem_of_getElem? hold)
      dsimp only [act]
      cases join with
      | true =>
        exact h.notify .stopJoins hold (h.exclusive.set hold nofun nofun) ⟨hok.1, state.notifyQueue_writer⟩ rfl
      | false =>
        exact h.notify .stopCloses hold (h.exclusive.set hold nofun nofun) (notifyQueue_ended (hok.2 rfl)) rfl
    | stopJoins =>
      dsimp only [act]
      split
      · exact h
      · next result =>
        split at result
        · next hended =>
          cases result
          exact h.join hold hended
        · cases result
    | stopCloses => exact h.close hold io
    | _ => exact h

end Calls

/-! ## Steps of the writer -/

section Writer
variable {state : ThreadedJournal}

theorem Sane.awake (h : state.Sane) (after : ThreadedJournal) (hcalls : after.calls = state.calls) (hcore : after.Core)
    (hpaused : after.paused = state.paused) (hwriter : after.writer ≠ .asleep)
    (hothers : ∀ place ∈ state.calls, state.PlaceOk place → after.PlaceOk place) : after.Sane where
  core := hcore
  exclusive := hcalls ▸ h.exclusive
  places := by
    rw [hcalls]
    exact fun place hplace => hothers place hplace (h.places place hplace)
  paused := by
    rw [hcalls, hpaused]
    exact h.paused
  pending := fun hasleep => absurd hasleep hwriter
  stopPending := fun hasleep => absurd hasleep hwriter

theorem exists_wake {calls : List CallPlace} {φ : CallPlace → Bool} (hφ : ∀ place, φ place.wake = φ place)
    (h : ∃ place ∈ calls, φ place = true) : ∃ place ∈ calls.map CallPlace.wake, φ place = true := by
  obtain ⟨place, hplace, hyes⟩ := h
  exact ⟨place.wake, List.mem_map_of_mem hplace, (hφ place).trans hyes⟩

theorem Sane.awakeIdle (h : state.Sane) (after : ThreadedJournal) (hcalls : after.calls = state.calls) (hcore : after.Core)
    (hpaused : after.paused = state.paused) (hwriter : after.writer ≠ .asleep)
    (hothers : ∀ place ∈ state.calls, state.PlaceOk place → after.PlaceOk place.wake) : after.notifyIdle.Sane where
  core := { hcore with }
  exclusive := by
    rw [notifyIdle, hcalls]
    exact h.exclusive.map CallPlace.wake_unique CallPlace.wake_holds
  places := by
    intro place hplace
    rw [notifyIdle, hcalls] at hplace
    obtain ⟨earlier, hearlier, rfl⟩ := List.mem_map.mp hplace
    exact hothers earlier hearlier (h.places earlier hearlier)
  paused := by
    intro hon
    rw [notifyIdle, hcalls]
    exact exists_wake CallPlace.wake_pauses (h.paused (hpaused.symm.trans hon))
  pending := fun hasleep => absurd hasleep hwriter
  stopPending := fun hasleep => absurd hasleep hwriter

theorem PlaceOk.wakes {after : ThreadedJournal} {place : CallPlace} (h : state.PlaceOk place)
    (hidle : state.Idle → state.paused = true → after.Idle ∧ after.paused = true)
    (hstop : state.journal.stopping = true → after.journal.stopping = true)
    (hended : state.writer = .ended → after.writer = .ended) (hasleep : after.writer ≠ .asleep) :
    after.PlaceOk place.wake := by
  cases place with
  | compactReplaces snapshot => exact hidle h.1 h.2
  | stopNotifies join => exact ⟨hstop h.1, fun hjoin => hended (h.2 hjoin)⟩
  | stopJoins => exact ⟨hstop h.1, hasleep⟩
  | stopCloses => exact hended h
  | stopped answer => exact hended h
  | _ => trivial

theorem Core.not_joined (h : state.Core) (hwriter : state.writer ≠ .ended) : state.joined = false := by
  by_contra hjoined
  exact hwriter (h.joined (by simpa using hjoined)).1

theorem Core.not_writing (h : state.Core) (hbusy : state.writer.busy = false) : state.journal.writing = none :=
  Option.isNone_iff_eq_none.mp (by rw [← Option.not_isSome, h.writing, hbusy]; rfl)

section
variable (h : state.Sane)
include h

section
variable (hwriter : state.writer = .ready)
include hwriter

theorem Sane.sleep (hwanted : ¬ state.journal.Wanted state.paused) : Sane { state with writer := .asleep } := by
  have hrunning : state.journal.stopping = false := by
    by_contra hstop
    exact hwanted (.inr (.inl (by simpa using hstop)))
  have hnever : ¬ state.journal.stopping = true := by simp [hrunning]
  refine ⟨⟨?_, nofun, h.core.failed, h.core.stopping, ?_⟩, h.exclusive, ?_, h.paused, ?_, ?_⟩
  · have hwriting := h.core.writing
    rw [hwriter] at hwriting
    exact hwriting
  · intro hjoined
    exact absurd (h.core.joined hjoined).2 hnever
  · intro place hplace
    have hok := h.places place hplace
    cases place with
    | flushSleeps before => exact hok
    | compactSleeps snapshot => exact hok
    | compactReplaces snapshot => exact hok
    | stopNotifies join => exact absurd hok.1 hnever
    | stopJoins => exact absurd hok.1 hnever
    | stopCloses => exact absurd (hwriter.symm.trans hok) nofun
    | stopped answer => exact absurd (hwriter.symm.trans hok) nofun
    | _ => trivial
  · intro _ hqueue
    refine .inl ?_
    by_contra hoff
    exact hwanted (.inl ⟨hqueue, by simpa using hoff⟩)
  · exact fun _ hstop => absurd hstop hnever

theorem Sane.take (hqueue : state.journal.queue ≠ []) :
    Sane { state with journal := state.journal.take, writer := .taken } := by
  have hwriting := h.core.not_writing (by rw [hwriter]; rfl)
  obtain ⟨record, rest, hrecords⟩ := List.exists_cons_of_ne_nil hqueue
  have htake : state.journal.take = { state.journal with writing := some record, queue := rest } := by
    simp [BackgroundJournal.take, hwriting, hrecords]
  have hfailure : ¬ state.journal.failure.isSome = true := fun hfailed => hqueue (h.core.failed hfailed).1
  rw [htake]
  refine h.awake _ rfl ⟨rfl, by simp [WriterPlace.left], fun hfailed => absurd hfailed hfailure, h.core.stopping, ?_⟩ rfl
    (by simp) ?_
  · intro hjoined
    have hended := (h.core.joined hjoined).1
    rw [hwriter] at hended
    cases hended
  · intro place _ hok
    refine hok.imp ?_ (fun _ _ hidle _ => absurd hidle.1 hqueue) id ?_ (by simp)
    · rintro (⟨-, hnone⟩ | hdown)
      · cases hnone
      · exact .inr hdown
    · intro hended
      rw [hwriter] at hended
      cases hended

theorem Sane.leave (hqueue : state.journal.queue = [])
    (hwhy : state.journal.stopping = true ∨ state.journal.failure.isSome = true) :
    Sane { state with writer := .leaving } := by
  have hnot : state.writer ≠ .ended := by simp [hwriter]
  refine h.awake _ rfl ⟨?_, fun _ => ⟨hqueue, hwhy.imp h.core.stopping id⟩, h.core.failed, h.core.stopping, ?_⟩
    rfl nofun ?_
  · have hwriting := h.core.writing
    rw [hwriter] at hwriting
    exact hwriting
  · exact fun hjoined => absurd (h.core.joined hjoined).1 hnot
  · intro place _ hok
    exact hok.imp id (fun _ _ => And.intro) id
      (fun hended => absurd hended hnot) nofun

theorem Sane.writerTest : state.writerTest.Sane := by
  unfold ThreadedJournal.writerTest
  split
  · next hwanted => exact h.sleep hwriter hwanted
  · split
    · have hsame : state.notifyQueue = state := by
        unfold notifyQueue
        rw [if_neg (by rw [hwriter]; exact nofun)]
      rw [hsame]
      exact h
    · split
      · next hqueue =>
        split
        · next hwhy => exact h.leave hwriter hqueue hwhy
        · exact h
      · next hqueue => exact h.take hwriter hqueue

end

theorem Sane.file (after : ThreadedJournal) (hcalls : after.calls = state.calls)
    (hpaused : after.paused = state.paused) (hjoined : after.joined = state.joined)
    (hqueue : after.journal.queue = state.journal.queue) (hwriting : after.journal.writing = state.journal.writing)
    (hfailure : after.journal.failure = state.journal.failure) (hopen : after.journal.isOpen = state.journal.isOpen)
    (hstopping : after.journal.stopping = state.journal.stopping)
    (haccepting : after.journal.accepting = state.journal.accepting) (hbusy : after.writer.busy = state.writer.busy)
    (hleft : after.writer.left = state.writer.left) (hnot : state.writer ≠ .ended) (hawake : after.writer ≠ .asleep) :
    after.Sane := by
  refine h.awake after hcalls ⟨?_, ?_, ?_, ?_, ?_⟩ hpaused hawake ?_
  · rw [hwriting, hbusy]
    exact h.core.writing
  · rw [hleft, hqueue, haccepting, hfailure]
    exact h.core.left
  · rw [hfailure, hqueue, hwriting]
    exact h.core.failed
  · rw [hstopping, haccepting]
    exact h.core.stopping
  · rw [hjoined]
    exact fun hyes => absurd (h.core.joined hyes).1 hnot
  · intro place _ hok
    refine hok.imp ?_ ?_ (fun hstop => hstopping.trans hstop) (fun hended => absurd hended hnot)
      (fun hasleep => absurd hasleep hawake)
    · unfold Quiescent
      rw [hqueue, hwriting, hfailure, hopen]
      exact id
    · intro _ _ hidle hon
      exact ⟨⟨hqueue.trans hidle.1, hwriting.trans hidle.2⟩, hpaused.trans hon⟩

theorem Sane.writerWrite (hwriter : state.writer = .taken) (io : ThreadIo) : (state.writerWrite io).Sane := by
  have hnot : state.writer ≠ .ended := by simp [hwriter]
  unfold ThreadedJournal.writerWrite
  split
  · exact h
  all_goals exact h.file _ rfl rfl rfl rfl rfl rfl rfl rfl rfl (by rw [hwriter]; rfl) (by rw [hwriter]; rfl) hnot nofun

theorem Sane.writerBook {result : Outcome Unit} (hwriter : state.writer = .wrote result) :
    (state.writerBook result).Sane := by
  have hnot : state.writer ≠ .ended := by simp [hwriter]
  have hjoined : ¬ state.joined = true := by simp [h.core.not_joined hnot]
  have hwriting : state.journal.writing.isSome = true := by rw [h.core.writing, hwriter]; rfl
  have hfailure : ¬ state.journal.failure.isSome = true := fun hfailed => by
    rw [(h.core.failed hfailed).2] at hwriting
    cases hwriting
  have hbusy : ¬ state.Idle := fun hidle => by
    rw [hidle.2] at hwriting
    cases hwriting
  have hothers : ∀ after : ThreadedJournal, after.journal.stopping = state.journal.stopping → after.writer = .ready →
      ∀ place ∈ state.calls, state.PlaceOk place → after.PlaceOk place.wake := by
    intro after hstop hready place _ hok
    exact hok.wakes (fun hidle => absurd hidle hbusy) (fun hyes => hstop.trans hyes) (fun hended => absurd hended hnot)
      (by rw [hready]; exact nofun)
  unfold ThreadedJournal.writerBook
  split
  · refine h.awakeIdle _ rfl ⟨rfl, nofun, fun hfailed => absurd hfailed hfailure, h.core.stopping, ?_⟩ rfl nofun
      (hothers _ rfl rfl)
    exact fun hyes => absurd hyes hjoined
  · next hnone =>
    rw [hnone] at hwriting
    cases hwriting
  · refine h.awakeIdle _ rfl ⟨rfl, nofun, fun _ => ⟨rfl, rfl⟩, h.core.stopping, ?_⟩ rfl nofun (hothers _ rfl rfl)
    exact fun hyes => absurd hyes hjoined

theorem Sane.writerSync (hwriter : state.writer = .leaving) (io : ThreadIo) : (state.writerSync io).Sane := by
  have hnot : state.writer ≠ .ended := by simp [hwriter]
  unfold ThreadedJournal.writerSync
  split <;> exact h.file _ rfl rfl rfl rfl rfl rfl rfl rfl rfl (by rw [hwriter]; rfl) (by rw [hwriter]; rfl) hnot nofun

theorem Sane.failSync {status : Status} (hwriter : state.writer = .failing status) :
    Sane { state with journal := { state.journal with failure := some status }, writer := .closing } := by
  have hnot : state.writer ≠ .ended := by simp [hwriter]
  have hidle : state.Idle :=
    ⟨(h.core.left (by rw [hwriter]; rfl)).1, h.core.not_writing (by rw [hwriter]; rfl)⟩
  refine h.awake _ rfl ⟨?_, fun _ => ⟨hidle.1, .inr rfl⟩, fun _ => hidle, h.core.stopping, ?_⟩ rfl nofun ?_
  · show state.journal.writing.isSome = _
    rw [hidle.2]
    rfl
  · exact fun hjoined => absurd (h.core.joined hjoined).1 hnot
  · intro place _ hok
    exact hok.imp (fun _ => .inl hidle) (fun _ _ => And.intro) id
      (fun hended => absurd hended hnot) nofun

theorem Sane.finish (hwriter : state.writer = .closing) :
    ({ state with journal := { state.journal with writing := none }, writer := .ended } :
      ThreadedJournal).notifyIdle.Sane := by
  have hnot : state.writer ≠ .ended := by simp [hwriter]
  have hleft := h.core.left (by rw [hwriter]; rfl)
  refine h.awakeIdle _ rfl ⟨rfl, fun _ => hleft, fun hfailed => ⟨hleft.1, rfl⟩, h.core.stopping, ?_⟩ rfl nofun ?_
  · exact fun hjoined => absurd (h.core.joined hjoined).1 hnot
  · intro place _ hok
    exact hok.wakes (fun hidle hpaused => ⟨⟨hidle.1, rfl⟩, hpaused⟩) id (fun _ => rfl) nofun

theorem Sane.writerStep (io : ThreadIo) : (state.writerStep io).Sane := by
  unfold ThreadedJournal.writerStep
  split
  · next hwriter => exact h.writerTest hwriter
  · exact h
  · next hwriter => exact h.writerWrite hwriter io
  · next hwriter => exact h.writerBook hwriter
  · next hwriter => exact h.writerSync hwriter io
  · next hwriter => exact h.failSync hwriter
  · next hwriter => exact h.finish hwriter
  · exact h

end

end Writer

/-! ## Every step -/

section Steps
variable {state : ThreadedJournal}

theorem enter_quiet (state : ThreadedJournal) (call : JournalCall) :
    (state.enter call).holds = false ∧ state.PlaceOk (state.enter call) := by
  cases call with
  | stop => exact ⟨rfl, trivial⟩
  | _ =>
    dsimp only [enter]
    split_ifs <;> exact ⟨rfl, trivial⟩

theorem Sane.call (h : state.Sane) (call : JournalCall) :
    Sane { state with calls := state.calls ++ [state.enter call] } := by
  obtain ⟨hholds, hok⟩ := state.enter_quiet call
  have hmore : ∀ {φ : CallPlace → Bool}, (∃ place ∈ state.calls, φ place = true) →
      ∃ place ∈ state.calls ++ [state.enter call], φ place = true := fun ⟨place, hplace, hyes⟩ =>
    ⟨place, List.mem_append_left _ hplace, hyes⟩
  refine ⟨⟨h.core.writing, h.core.left, h.core.failed, h.core.stopping, h.core.joined⟩,
    h.exclusive.append hholds, ?_, fun hon => hmore (h.paused hon),
    fun hasleep hqueue => (h.pending hasleep hqueue).imp id hmore,
    fun hasleep hstop => hmore (h.stopPending hasleep hstop)⟩
  intro place hplace
  rcases List.mem_append.mp hplace with hearlier | hlast
  · exact h.places place hearlier
  · obtain rfl := List.mem_singleton.mp hlast
    exact hok

theorem PlaceOk.wake {place : CallPlace} (h : state.PlaceOk place) : state.PlaceOk place.wake := by
  cases place <;> first | exact h | trivial

theorem Sane.wakeCaller (h : state.Sane) (index : ℕ) : (state.wakeCaller index).Sane := by
  unfold ThreadedJournal.wakeCaller
  split
  · exact h
  · next place hold =>
    refine h.move state place.wake hold rfl h.core (h.exclusive.set hold ?_ ?_) (fun _ _ hok => hok)
      (h.places place (List.mem_of_getElem? hold)).wake ?_ ?_ ?_
    · rw [CallPlace.wake_unique]
      exact id
    · rw [CallPlace.wake_holds]
      exact id
    · intro hon
      rw [CallPlace.wake_pauses]
      cases hpauses : place.pauses with
      | true => exact .inl rfl
      | false => exact .inr ⟨hon, rfl⟩
    · intro hasleep hqueue
      rw [CallPlace.wake_notifies]
      cases hnotifies : place.notifies with
      | true => exact .inl rfl
      | false =>
        cases hon : state.paused with
        | true => exact .inr ⟨rfl, .inl rfl⟩
        | false => exact .inr ⟨rfl, .inr ⟨hasleep, hqueue, rfl⟩⟩
    · intro hasleep hstop
      rw [CallPlace.wake_stopNotifying]
      cases hnotifies : place.stopNotifying with
      | true => exact .inl rfl
      | false => exact .inr ⟨rfl, hasleep, hstop⟩

theorem Sane.wakeWriter (h : state.Sane) : state.notifyQueue.Sane := by
  refine h.awake _ rfl (notifyQueue_core h.core) rfl state.notifyQueue_writer ?_
  intro place _ hok
  exact hok.imp id (fun _ _ => And.intro) id notifyQueue_ended
    (fun hasleep => absurd hasleep state.notifyQueue_writer)

theorem Sane.step (h : state.Sane) (event : ThreadEvent) : (state.step event).Sane := by
  cases event with
  | call call =>
    dsimp only [ThreadedJournal.step]
    split
    · exact h
    · exact h.call call
  | caller index io => exact h.callerStep index io
  | writer io => exact h.writerStep io
  | wakeCaller index => exact h.wakeCaller index
  | wakeWriter => exact h.wakeWriter

end Steps

end ThreadedJournal

end Lqf
