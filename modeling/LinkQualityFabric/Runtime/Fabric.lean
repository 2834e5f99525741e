import LinkQualityFabric.Persist.JournalWriter
import LinkQualityFabric.Persist.RecordBundle
import LinkQualityFabric.Store.CapabilityRegistry
import LinkQualityFabric.Store.EvidenceStore
import LinkQualityFabric.Store.LinkRegistry

/-! The runtime: `src/runtime/fabric.cpp`.

Every operation decides under one lock, changes the registries in memory and hands a record of the change
to the journal. The journal's writer runs beside it: what it does before the operation looks at the queue,
and between the look and the append, is an argument of the operation, as is the reading of the clock. -/
namespace Lqf
open Foundations
set_option autoImplicit false

structure ClockReading where
  wallNanos : Int64
  steadyNanos : Int64
  deriving DecidableEq, Repr, Inhabited

def codecLimitsFor (limits : FabricLimits) : CodecLimits where
  maxStringBytes := max limits.maxStringBytes 4096
  maxItems := max (max limits.maxEvidenceBatch limits.maxMetricsPerQuery) limits.maxGlobalHistory
  maxTotalBytes := 8388608

/-- The counters of `FabricStats` that the operations below write. -/
structure FabricStats where
  observationsAccepted : UInt64 := 0
  observationsDuplicate : UInt64 := 0
  observationsReordered : UInt64 := 0
  observationsRejected : UInt64 := 0
  observationsRecovered : UInt64 := 0
  capabilityDeclarations : UInt64 := 0
  capabilityRejections : UInt64 := 0
  policyPublications : UInt64 := 0
  policyRejections : UInt64 := 0
  linksObserved : UInt64 := 0
  linksRegistered : UInt64 := 0
  generationsAdvanced : UInt64 := 0
  streamEvictions : UInt64 := 0
  historyEvictions : UInt64 := 0
  continuityBreaks : UInt64 := 0
  wrapsInferred : UInt64 := 0
  resetsObserved : UInt64 := 0
  unprovenDecreases : UInt64 := 0
  journalRecords : UInt64 := 0
  journalRejections : UInt64 := 0
  compactions : UInt64 := 0
  recoveredRecords : UInt64 := 0
  recoveries : UInt64 := 0
  journalEnabled : Bool := false
  deriving DecidableEq, Repr, Inhabited

structure CapabilityAck where
  revision : UInt64
  reason : ReasonCode
  duplicate : UInt8
  deriving DecidableEq, Repr

/-- What the journal describes and recovery rebuilds. -/
structure FabricState where
  policies : PolicyRegistry
  capabilities : CapabilityRegistry
  links : LinkRegistry
  evidence : EvidenceStore

/-- The generations the link registry has dropped lose their evidence. -/
def FabricState.drain (state : FabricState) : FabricState :=
  { state with
    links := state.links.takeEvicted.2
    evidence := state.links.takeEvicted.1.foldl EvidenceStore.dropLink state.evidence }

structure Fabric extends FabricState where
  config : FabricConfig
  epoch : UInt64
  catalog : MetricCatalog
  journal : Option BackgroundJournal
  nextOrdinal : UInt64
  recordsSinceCompaction : UInt64
  persistenceDegraded : Bool
  isOpen : Bool
  recovery : RecoveryReport
  stats : FabricStats
  /-- Every record the journal has taken from this fabric. No operation reads it. -/
  journaled : List JournalRecord

/-! ## The writer beside the fabric -/

inductive WriterStep where
  | take
  | finish (short : Option ℕ)
  deriving DecidableEq, Repr

def WriterStep.run (journal : BackgroundJournal) : WriterStep → BackgroundJournal
  | .take => journal.take
  | .finish short => journal.finish short

def BackgroundJournal.progress (steps : List WriterStep) (journal : BackgroundJournal) : BackgroundJournal :=
  steps.foldl WriterStep.run journal

/-- What the writer does before `has_capacity` and between it and `append`. -/
structure AppendIo where
  beforeProbe : List WriterStep := []
  beforeAppend : List WriterStep := []
  deriving DecidableEq, Repr, Inhabited

/-- What surrounds one call: the clock, the writer before the call looks at the queue, the writer around
each of its appends, and the file system of a compaction. -/
structure CallIo where
  now : ClockReading
  writer : List WriterStep := []
  link : AppendIo := {}
  record : AppendIo := {}
  compaction : BackgroundJournal.CompactIo := {}
  deriving DecidableEq, Repr, Inhabited

namespace Fabric

/-- The constructor; `derived` stands for the epoch of `derive_epoch`. -/
def new (config : FabricConfig) (derived : UInt64) (publishedAt : Int64) : Fabric where
  policies := .start config.firstPolicy ⟨publishedAt, true⟩ config.maxPolicyGenerations
  capabilities := .empty config.limits
  links := .empty config.limits
  evidence := .empty config.limits
  config := config
  epoch := if config.forcedEpoch = 0 then derived else config.forcedEpoch
  catalog := .empty 256
  journal := none
  nextOrdinal := 0
  recordsSinceCompaction := 0
  persistenceDegraded := false
  isOpen := false
  recovery := {}
  stats := {}
  journaled := []

def tally (update : FabricStats → FabricStats) (fabric : Fabric) : Fabric :=
  { fabric with stats := update fabric.stats }

def codecLimits (fabric : Fabric) : CodecLimits := codecLimitsFor fabric.config.limits

def observationLimits (fabric : Fabric) : ObservationLimits :=
  CapabilityRegistry.observationLimits fabric.config.limits

def policyChecks (fabric : Fabric) : PolicyChecks :=
  ⟨fabric.catalog, fabric.config.limits.maxPolicyRules, fabric.config.limits.maxBandsPerRule⟩

def receiveStamp (fabric : Fabric) (now : ClockReading) : ReceiveStamp :=
  ⟨now.wallNanos, now.steadyNanos, fabric.epoch⟩

/-! ## The journal -/

def letWriterRun (steps : List WriterStep) (fabric : Fabric) : Fabric :=
  { fabric with journal := fabric.journal.map (·.progress steps) }

/-- `journal_`, where it is there and enabled. -/
def activeJournal (fabric : Fabric) : Option BackgroundJournal :=
  fabric.journal.filter (·.config.enabled)

/-- The probe in front of every operation. -/
def queueFull (fabric : Fabric) : Bool :=
  match fabric.activeJournal with
  | none => false
  | some journal => !journal.hasCapacity

def refuseRecord (fabric : Fabric) : Fabric :=
  { fabric.tally (fun stats => { stats with journalRejections := stats.journalRejections + 1 }) with
    persistenceDegraded := true }

def enqueued (kind : JournalRecordKind) (body : Bytes) (journal : BackgroundJournal) (fabric : Fabric) : Fabric :=
  { fabric with
    journal := some journal
    nextOrdinal := fabric.nextOrdinal + 1
    stats := { fabric.stats with journalRecords := fabric.stats.journalRecords + 1 }
    recordsSinceCompaction := fabric.recordsSinceCompaction + 1
    journaled := fabric.journaled ++ [⟨kind, fabric.nextOrdinal, body⟩] }

/-- `append` on the journal behind a probe that has found room. -/
def appendRecord (steps : List WriterStep) (kind : JournalRecordKind) (body : Bytes) (journal : BackgroundJournal)
    (fabric : Fabric) : Outcome Unit × Fabric :=
  match (journal.progress steps).append kind fabric.nextOrdinal body with
  | .error status => (.error status, { fabric with journal := some (journal.progress steps) }.refuseRecord)
  | .ok after => (.ok (), fabric.enqueued kind body after)

def appendProbed (io : AppendIo) (kind : JournalRecordKind) (body : Bytes) (fabric : Fabric) :
    Outcome Unit × Fabric :=
  match fabric.activeJournal with
  | none => (.ok (), fabric)
  | some journal =>
    if journal.hasCapacity then fabric.appendRecord io.beforeAppend kind body journal
    else
      (fail .busy (text "the journal queue is full; the record was refused before the state changed"),
        fabric.refuseRecord)

def journalAppend (io : AppendIo) (kind : JournalRecordKind) (body : Bytes) (fabric : Fabric) :
    Outcome Unit × Fabric :=
  (fabric.letWriterRun io.beforeProbe).appendProbed io kind body

/-! ## Snapshots and compaction -/

def encodeEach {α : Type} (codec : Codec α) (limits : CodecLimits) (kind : JournalRecordKind) (values : List α) :
    Outcome (List (JournalRecordKind × Bytes)) :=
  values.mapM fun value => do
    let body ← codec.encodeBody limits value
    return (kind, body)

def dedupBodies (evidence : EvidenceStore) : List DedupBody :=
  evidence.streamKeys.map fun key => ⟨key, evidence.dedupWindow key⟩

def linkBodies (links : LinkRegistry) : List LinkObservedBody :=
  links.snapshot.map fun state => ⟨state.identity, state.firstSeen, state.firstReceived⟩

def snapshotBodies (fabric : Fabric) : Outcome (List (JournalRecordKind × Bytes)) := do
  let policies ← encodeEach Codec.policyGenerationRecord fabric.codecLimits .policy fabric.policies.snapshotRecords
  let capabilities ←
    encodeEach Codec.capabilityDeclaration fabric.codecLimits .capability fabric.capabilities.declarations
  let links ← encodeEach Codec.linkObservedBody fabric.codecLimits .linkObserved (linkBodies fabric.links)
  let evidence ← encodeEach Codec.evidenceRecord fabric.codecLimits .evidence fabric.evidence.retainedRecords
  let windows ← encodeEach Codec.dedupBody fabric.codecLimits .dedupWindow (dedupBodies fabric.evidence)
  return policies ++ capabilities ++ links ++ evidence ++ windows

/-- The records of a snapshot are numbered from 1. -/
def numberBodies (bodies : List (JournalRecordKind × Bytes)) : List JournalRecord :=
  (bodies.zipIdx 1).map fun entry => ⟨entry.1.1, UInt64.ofNat entry.2, entry.1.2⟩

def snapshotOrdinal (fabric : Fabric) : UInt64 :=
  if fabric.nextOrdinal = 0 then 0 else fabric.nextOrdinal - 1

def buildSnapshot (fabric : Fabric) : Outcome Bytes := do
  let bodies ← fabric.snapshotBodies
  encodeRecordBundle (numberBodies bodies) fabric.config.journal.maxRecordBytes

def compactJournal (io : BackgroundJournal.CompactIo) (journal : BackgroundJournal) (fabric : Fabric) :
    Outcome Unit × Fabric :=
  match fabric.buildSnapshot with
  | .error status => (.error status, fabric)
  | .ok body =>
    match journal.compact io fabric.snapshotOrdinal body with
    | (.ok (), after) =>
      (.ok (), { fabric.tally (fun stats => { stats with compactions := stats.compactions + 1 }) with
        journal := some after, recordsSinceCompaction := 0 })
    | (.error status, after) => (.error status, { fabric with journal := some after })

def compact (io : BackgroundJournal.CompactIo) (fabric : Fabric) : Outcome Unit × Fabric :=
  match fabric.activeJournal with
  | none => (fail .refused (text "persistence is disabled"), fabric)
  | some journal => fabric.compactJournal io journal

def CompactionDue (fabric : Fabric) : Prop :=
  fabric.config.journal.compactAfterRecords ≠ 0 ∧
    fabric.config.journal.compactAfterRecords ≤ fabric.recordsSinceCompaction

instance (fabric : Fabric) : Decidable fabric.CompactionDue := inferInstanceAs (Decidable (_ ∧ _))

def maybeCompact (io : BackgroundJournal.CompactIo) (fabric : Fabric) : Fabric :=
  match fabric.activeJournal with
  | none => fabric
  | some journal => if fabric.CompactionDue then (fabric.compactJournal io journal).2 else fabric

/-! ## What the journal leaves alone -/

theorem activeJournal_enabled {fabric : Fabric} {journal : BackgroundJournal}
    (h : fabric.activeJournal = some journal) : fabric.journal = some journal ∧ journal.config.enabled = true :=
  Option.filter_eq_some_iff.mp h

structure JournalOnly (before after : Fabric) : Prop where
  state : after.toFabricState = before.toFabricState
  config : after.config = before.config
  epoch : after.epoch = before.epoch
  catalog : after.catalog = before.catalog
  isOpen : after.isOpen = before.isOpen
  recovery : after.recovery = before.recovery

structure JournalRuns (before after : Fabric) : Prop extends JournalOnly before after where
  journal : Option.Rel BackgroundJournal.Continues before.journal after.journal

end Fabric

namespace BackgroundJournal
open Fabric

theorem Continues.progress (journal : BackgroundJournal) (steps : List WriterStep) :
    Continues journal (journal.progress steps) := by
  induction steps generalizing journal with
  | nil => exact .refl journal
  | cons step rest ih =>
    cases step with
    | take => exact (take journal).trans (ih _)
    | finish short => exact (finish journal short).trans (ih _)

theorem progress_config (steps : List WriterStep) (journal : BackgroundJournal) :
    (journal.progress steps).config = journal.config :=
  (Continues.progress journal steps).config

theorem continues_refl (journal : Option BackgroundJournal) : Option.Rel Continues journal journal := by
  cases journal with
  | none => exact .none
  | some journal => exact .some (.refl journal)

theorem continues_trans {first second third : Option BackgroundJournal} (h : Option.Rel Continues first second)
    (h' : Option.Rel Continues second third) : Option.Rel Continues first third := by
  cases h with
  | none => exact h'
  | some h =>
    cases h' with
    | some h' => exact .some (h.trans h')

end BackgroundJournal

namespace Fabric
open BackgroundJournal

namespace JournalRuns
variable {first second third : Fabric}

theorem same (h : JournalOnly first second) (hjournal : second.journal = first.journal) : JournalRuns first second :=
  ⟨h, by rw [hjournal]; exact continues_refl _⟩

theorem refl (fabric : Fabric) : JournalRuns fabric fabric := same ⟨rfl, rfl, rfl, rfl, rfl, rfl⟩ rfl

theorem trans (h : JournalRuns first second) (h' : JournalRuns second third) : JournalRuns first third :=
  ⟨⟨h'.state.trans h.state, h'.config.trans h.config, h'.epoch.trans h.epoch, h'.catalog.trans h.catalog,
    h'.isOpen.trans h.isOpen, h'.recovery.trans h.recovery⟩, continues_trans h.journal h'.journal⟩

theorem unrefused (h : JournalRuns first second) (hfirst : ∀ journal ∈ first.journal, journal.Unrefused) :
    ∀ journal ∈ second.journal, journal.Unrefused := by
  have hcontinues := h.journal
  intro journal hjournal
  rw [Option.mem_def.mp hjournal] at hcontinues
  generalize hold : first.journal = old at hcontinues
  cases hcontinues with
  | some hcontinues => exact hcontinues.unrefused (hfirst _ hold)

end JournalRuns

section Frames
variable (fabric : Fabric)

theorem tally_only (update : FabricStats → FabricStats) : JournalRuns fabric (fabric.tally update) :=
  .same ⟨rfl, rfl, rfl, rfl, rfl, rfl⟩ rfl

variable (steps : List WriterStep) (io : BackgroundJournal.CompactIo)

theorem letWriterRun_only : JournalRuns fabric (fabric.letWriterRun steps) := by
  refine ⟨⟨rfl, rfl, rfl, rfl, rfl, rfl⟩, ?_⟩
  show Option.Rel Continues fabric.journal (fabric.journal.map _)
  cases fabric.journal with
  | none => exact .none
  | some journal => exact .some (.progress journal steps)

theorem refuseRecord_only : JournalRuns fabric fabric.refuseRecord := .same ⟨rfl, rfl, rfl, rfl, rfl, rfl⟩ rfl

variable {fabric} {journal : BackgroundJournal}

theorem appendRecord_only (h : fabric.activeJournal = some journal) (kind : JournalRecordKind) (body : Bytes) :
    JournalRuns fabric (fabric.appendRecord steps kind body journal).2 := by
  have hcontinues := Continues.progress journal steps
  unfold appendRecord
  split
  · exact ⟨⟨rfl, rfl, rfl, rfl, rfl, rfl⟩, (activeJournal_enabled h).1 ▸ .some hcontinues⟩
  · next happend =>
    exact ⟨⟨rfl, rfl, rfl, rfl, rfl, rfl⟩, (activeJournal_enabled h).1 ▸ .some (hcontinues.trans (.append happend))⟩

theorem compactJournal_only (h : fabric.activeJournal = some journal) :
    JournalRuns fabric (fabric.compactJournal io journal).2 := by
  unfold compactJournal
  split
  · exact .refl fabric
  · next body _ =>
    have hcontinues := Continues.compact journal io fabric.snapshotOrdinal body
    split
    · next hresult =>
      rw [hresult] at hcontinues
      exact ⟨⟨rfl, rfl, rfl, rfl, rfl, rfl⟩, (activeJournal_enabled h).1 ▸ .some hcontinues⟩
    · next hresult =>
      rw [hresult] at hcontinues
      exact ⟨⟨rfl, rfl, rfl, rfl, rfl, rfl⟩, (activeJournal_enabled h).1 ▸ .some hcontinues⟩

variable (fabric)

theorem journalAppend_only (io : AppendIo) (kind : JournalRecordKind) (body : Bytes) :
    JournalRuns fabric (fabric.journalAppend io kind body).2 := by
  refine (fabric.letWriterRun_only io.beforeProbe).trans ?_
  unfold journalAppend appendProbed
  split
  · exact .refl _
  · next hactive =>
    split
    · exact appendRecord_only _ hactive _ _
    · exact refuseRecord_only _

theorem compact_only : JournalRuns fabric (fabric.compact io).2 := by
  unfold compact
  split
  · exact .refl fabric
  · next hactive => exact compactJournal_only io hactive

theorem maybeCompact_only : JournalRuns fabric (fabric.maybeCompact io) := by
  unfold maybeCompact
  split
  · exact .refl fabric
  · next hactive =>
    split
    · exact compactJournal_only io hactive
    · exact .refl fabric

end Frames

end Fabric

end Lqf
