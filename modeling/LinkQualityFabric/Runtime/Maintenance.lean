import LinkQualityFabric.Runtime.LiveReplay

/-! Compaction and flushing beside `close`.

`compact` and `flush` test `journal_` before they take any lock. `compact` uses it behind the lock, `flush`
without one: it reads the pointer again and stays inside the journal until the writer is idle. `close` moves
the journal out under the lock and, behind it, stops and destroys it. A use of a null pointer or of a
destroyed journal is a fault of the run. -/
namespace Lqf
open Foundations
set_option autoImplicit false

/-- The journal object in the hands of `close`. -/
inductive JournalOwner where
  | fabric
  | closer (journal : Option BackgroundJournal)
  | destroyed (answer : Outcome Unit)

def JournalOwner.attached : JournalOwner → Bool
  | .fabric => true
  | _ => false

def JournalOwner.alive : JournalOwner → Bool
  | .destroyed _ => false
  | _ => true

inductive Fault where
  | nullJournal
  | destroyedJournal
  deriving DecidableEq, Repr

structure MaintainedFabric where
  fabric : Fabric
  /-- The calls of `compact` between their test and the lock. -/
  compacting : List ℕ
  /-- The calls of `flush` between their test and their use of the pointer. -/
  flushing : List ℕ
  /-- The calls of `flush` inside the journal. -/
  inside : List ℕ
  owner : JournalOwner
  fault : Option Fault

inductive MaintenanceEvent where
  | testCompact (caller : ℕ)
  | compactBody (caller : ℕ) (io : BackgroundJournal.CompactIo)
  | testFlush (caller : ℕ)
  | enterFlush (caller : ℕ)
  | leaveFlush (caller : ℕ) (io : BackgroundJournal.FlushIo)
  | detach
  | destroy (io : BackgroundJournal.StopIo)

namespace MaintainedFabric
open BackgroundJournal

def start (fabric : Fabric) : MaintainedFabric := ⟨fabric, [], [], [], .fabric, none⟩

/-- The locked part of `compact`; it does not test the pointer again and uses it when the snapshot is built. -/
def compactBody (state : MaintainedFabric) (caller : ℕ) (io : CompactIo) : MaintainedFabric :=
  match state.fabric.journal, state.fabric.buildSnapshot with
  | none, .error _ => { state with compacting := state.compacting.erase caller }
  | none, .ok _ => { state with compacting := state.compacting.erase caller, fault := some .nullJournal }
  | some journal, _ =>
    { state with
      compacting := state.compacting.erase caller, fabric := (state.fabric.compactJournal io journal).2 }

def enterFlush (state : MaintainedFabric) (caller : ℕ) : MaintainedFabric :=
  match state.fabric.journal with
  | none => { state with flushing := state.flushing.erase caller, fault := some .nullJournal }
  | some _ => { state with flushing := state.flushing.erase caller, inside := caller :: state.inside }

/-- The rest of `BackgroundJournal::flush`, on the object that was entered. -/
def leaveFlush (state : MaintainedFabric) (caller : ℕ) (io : FlushIo) : MaintainedFabric :=
  match state.owner with
  | .fabric => { state with inside := state.inside.erase caller, fabric := (state.fabric.flush io).2 }
  | .closer journal =>
    { state with
      inside := state.inside.erase caller, owner := .closer (journal.map fun object => (object.flush io).2) }
  | .destroyed _ => { state with inside := state.inside.erase caller, fault := some .destroyedJournal }

def step (state : MaintainedFabric) : MaintenanceEvent → MaintainedFabric
  | .testCompact caller =>
    if state.fabric.activeJournal = none then state else { state with compacting := caller :: state.compacting }
  | .compactBody caller io => if caller ∈ state.compacting then state.compactBody caller io else state
  | .testFlush caller =>
    if state.fabric.activeJournal = none then state else { state with flushing := caller :: state.flushing }
  | .enterFlush caller => if caller ∈ state.flushing then state.enterFlush caller else state
  | .leaveFlush caller io => if caller ∈ state.inside then state.leaveFlush caller io else state
  | .detach =>
    match state.owner with
    | .fabric => { state with fabric := state.fabric.detachJournal.2, owner := .closer state.fabric.detachJournal.1 }
    | _ => state
  | .destroy io =>
    match state.owner with
    | .closer journal => { state with owner := .destroyed (Fabric.stopDetached io journal).1 }
    | _ => state

def machine : Machine MaintainedFabric MaintenanceEvent Unit := ⟨fun state event => ((), state.step event)⟩

/-- A compaction that can build its snapshot takes the lock before `close` does, a flush enters the journal before
that, and leaves it before it is destroyed. -/
def Timely (state : MaintainedFabric) : MaintenanceEvent → Prop
  | .compactBody caller _ => caller ∈ state.compacting →
    state.owner.attached = true ∨ state.fabric.buildSnapshot.isOk = false
  | .enterFlush caller => caller ∈ state.flushing → state.owner.attached = true
  | .leaveFlush caller _ => caller ∈ state.inside → state.owner.alive = true
  | _ => True

instance (state : MaintainedFabric) (event : MaintenanceEvent) : Decidable (state.Timely event) := by
  cases event <;> unfold Timely <;> infer_instance

/-! ## Every interleaving -/

/-- The journal is where `owner` says. -/
def Placed (state : MaintainedFabric) : Prop := state.fabric.journal.isSome = state.owner.attached

section Steps
variable {state : MaintainedFabric} {journal : BackgroundJournal} (fabric : Fabric)

theorem compactJournal_attached (io : CompactIo) (hjournal : fabric.journal = some journal) :
    (fabric.compactJournal io journal).2.journal.isSome = true := by
  unfold Fabric.compactJournal
  split
  · rw [hjournal]
    rfl
  · split <;> rfl

theorem flush_attached (io : FlushIo) : (fabric.flush io).2.journal.isSome = fabric.journal.isSome := by
  unfold Fabric.flush
  split
  · rfl
  · next hactive =>
    rw [(Fabric.activeJournal_enabled hactive).1]
    rfl

theorem detachJournal_journal : fabric.detachJournal.2.journal = none := by
  unfold Fabric.detachJournal
  split
  · next h => exact h.2
  · rfl

theorem Placed.step (h : state.Placed) (event : MaintenanceEvent) : (state.step event).Placed := by
  cases event with
  | testCompact caller | testFlush caller =>
    dsimp only [MaintainedFabric.step]
    split <;> exact h
  | compactBody caller io =>
    dsimp only [MaintainedFabric.step, compactBody]
    split
    · split
      · exact h
      · exact h
      · next hjournal =>
        unfold Placed at h ⊢
        rw [compactJournal_attached _ io hjournal, ← h, hjournal]
        rfl
    · exact h
  | enterFlush caller =>
    dsimp only [MaintainedFabric.step, enterFlush]
    split
    · split <;> exact h
    · exact h
  | leaveFlush caller io =>
    dsimp only [MaintainedFabric.step, leaveFlush]
    split
    · split
      · exact (flush_attached _ io).trans h
      · next howner => exact h.trans (by rw [howner]; rfl)
      · exact h
    · exact h
  | detach =>
    dsimp only [MaintainedFabric.step]
    split
    · exact congrArg Option.isSome (detachJournal_journal state.fabric)
    · exact h
  | destroy io =>
    dsimp only [MaintainedFabric.step]
    split
    · next howner => exact h.trans (by rw [howner]; rfl)
    · exact h

theorem step_faultless_iff (h : state.Placed) (event : MaintenanceEvent) :
    (state.step event).fault = none ↔ state.fault = none ∧ state.Timely event := by
  unfold Placed at h
  cases event with
  | testCompact caller | testFlush caller | detach | destroy io =>
    dsimp only [MaintainedFabric.step]
    split <;> exact (and_iff_left trivial).symm
  | compactBody caller io =>
    dsimp only [MaintainedFabric.step, compactBody, Timely]
    split
    · next hcaller =>
      split
      · next hsnapshot => simp [hsnapshot, Except.isOk, Except.toBool]
      · next hjournal hsnapshot => simp [hcaller, ← h, hjournal, hsnapshot, Except.isOk, Except.toBool]
      · next hjournal => simp [← h, hjournal]
    · next hcaller => simp [hcaller]
  | enterFlush caller =>
    dsimp only [MaintainedFabric.step, enterFlush, Timely]
    split
    · next hcaller => split <;> simp_all
    · next hcaller => simp [hcaller]
  | leaveFlush caller io =>
    dsimp only [MaintainedFabric.step, leaveFlush, Timely]
    split
    · next hcaller => split <;> simp_all [JournalOwner.alive]
    · next hcaller => simp [hcaller]

end Steps

/-- An interleaving is free of faults exactly when every compaction that can build its snapshot and every flush
uses the journal before `close` has taken it out of reach. -/
theorem maintenance_safe_iff (fabric : Fabric) (hjournaling : fabric.Journaling) (events : List MaintenanceEvent) :
    (machine.final (start fabric) events).fault = none ↔ machine.Meets Timely (start fabric) events := by
  have hrun : ∀ (events : List MaintenanceEvent) (state : MaintainedFabric), state.Placed →
      ((machine.final state events).fault = none ↔ state.fault = none ∧ machine.Meets Timely state events) := by
    intro events
    induction events with
    | nil => exact fun _ _ => (and_iff_left trivial).symm
    | cons event rest ih =>
      intro state hplaced
      exact (ih _ (hplaced.step event)).trans ((and_congr_left' (step_faultless_iff hplaced event)).trans and_assoc)
  obtain ⟨journal, hjournal, -⟩ := hjournaling
  exact (hrun events (start fabric) (congrArg Option.isSome hjournal)).trans (and_iff_right rfl)

def quietRun : List MaintenanceEvent :=
  [.testCompact 0, .testFlush 1, .enterFlush 1, .compactBody 0 {}, .detach, .leaveFlush 1 {}, .destroy {}, .testFlush 2]

theorem narrowFabric_journaling : Fabric.narrowFabric.Journaling :=
  Fabric.opened_journaling (by decide) (by decide +kernel)

theorem quiet_run_safe : (machine.final (start Fabric.narrowFabric) quietRun).fault = none :=
  (maintenance_safe_iff Fabric.narrowFabric narrowFabric_journaling quietRun).mpr (by decide +kernel)

/-- The compaction has found a journal and takes the lock behind `close`; the flush has entered the journal and is
still inside when `close` destroys it. -/
theorem closed_under_use :
    Fabric.narrowFabric.Journaling ∧
      (machine.final (start Fabric.narrowFabric) [.testCompact 0, .detach, .compactBody 0 {}]).fault =
        some .nullJournal ∧
      (machine.final (start Fabric.narrowFabric) [.testFlush 0, .detach, .enterFlush 0]).fault = some .nullJournal ∧
      (machine.final (start Fabric.narrowFabric)
        [.testFlush 0, .enterFlush 0, .detach, .destroy {}, .leaveFlush 0 {}]).fault = some .destroyedJournal := by
  refine ⟨narrowFabric_journaling, ?_, ?_, ?_⟩ <;> decide +kernel

end MaintainedFabric

end Lqf
