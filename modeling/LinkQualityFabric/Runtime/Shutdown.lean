import LinkQualityFabric.Runtime.FiledJournal

/-! Ingestion beside `close`.

`ingest` tests `open_` before it takes the lock and does its work behind it; `close` moves the journal out
under the lock and stops it behind the lock. A run interleaves these four kinds of steps, and the writer's,
in any order. What is acknowledged before the journal is moved out is in the file that `close` leaves. -/
namespace Lqf
open Foundations
set_option autoImplicit false
set_option maxRecDepth 10000

/-! ## The system -/

/-- Where `close` stands: not called, between its two steps with the journal it has moved out, or back with
its answer and what it has left of the journal. -/
inductive CloseStage where
  | waiting
  | detached (journal : Option BackgroundJournal)
  | returned (answer : Outcome Unit) (journal : Option BackgroundJournal)

structure ClosingFabric where
  fabric : Fabric
  /-- The calls of `ingest` that have found the fabric open and not yet taken the lock. -/
  admitted : List ℕ
  stage : CloseStage
  /-- What the store keeps of each observation that was acknowledged. No step reads it. -/
  acknowledged : List EvidenceRecord

inductive ShutdownEvent where
  | test (caller : ℕ)
  | body (caller : ℕ) (observation : Observation) (io : CallIo)
  | detach
  | stop (io : BackgroundJournal.StopIo)
  | write (steps : List WriterStep)

def acknowledgedBy (result : Outcome IngestOutcome × Fabric) : List EvidenceRecord :=
  if Fabric.Acknowledged result.1 then result.2.evidence.history.getLast?.toList else []

def CloseStage.write (steps : List WriterStep) : CloseStage → CloseStage
  | .detached journal => .detached (journal.map (·.progress steps))
  | stage => stage

def CloseStage.answer : CloseStage → Option (Outcome Unit)
  | .returned answer _ => some answer
  | _ => none

def CloseStage.file : CloseStage → Bytes
  | .returned _ (some journal) => journal.contents
  | _ => []

namespace ClosingFabric
open BackgroundJournal Fabric

def start (fabric : Fabric) : ClosingFabric := ⟨fabric, [], .waiting, []⟩

def ingestBody (state : ClosingFabric) (caller : ℕ) (observation : Observation) (io : CallIo) : ClosingFabric :=
  { state with
    fabric := ((state.fabric.letWriterRun io.writer).ingestLocked io observation).2
    admitted := state.admitted.erase caller
    acknowledged := state.acknowledged ++
      acknowledgedBy ((state.fabric.letWriterRun io.writer).ingestLocked io observation) }

def step (state : ClosingFabric) : ShutdownEvent → ClosingFabric
  | .test caller =>
    if state.fabric.isOpen then { state with admitted := caller :: state.admitted } else state
  | .body caller observation io =>
    if caller ∈ state.admitted then state.ingestBody caller observation io else state
  | .detach =>
    match state.stage with
    | .waiting => { state with fabric := state.fabric.detachJournal.2, stage := .detached state.fabric.detachJournal.1 }
    | _ => state
  | .stop io =>
    match state.stage with
    | .detached journal => { state with stage := .returned (stopDetached io journal).1 (stopDetached io journal).2 }
    | _ => state
  | .write steps => { state with fabric := state.fabric.letWriterRun steps, stage := state.stage.write steps }

def machine : Machine ClosingFabric ShutdownEvent Unit := ⟨fun state event => ((), state.step event)⟩

/-- The evidence record of every acknowledged observation is among the records. -/
def Covers (limits : CodecLimits) (acknowledged : List EvidenceRecord) (records : List JournalRecord) : Prop :=
  ∀ stored ∈ acknowledged, ∃ record ∈ records, Carries limits stored record

/-- When `close` has returned with success, the file has the evidence record of every acknowledged observation
behind what it had when the fabric was opened. -/
def Durable (limits : CodecLimits) (base : Bytes) (state : ClosingFabric) : Prop :=
  ∀ journal, state.stage = .returned (.ok ()) journal → ∃ left ∈ journal, ∃ records,
    left.contents = base ++ encodeRecords records ∧ Covers limits state.acknowledged records

/-- An ingest takes the lock before `close` does, and no compaction comes due in it; one that takes it later is not
acknowledged. -/
def InTime (state : ClosingFabric) : ShutdownEvent → Prop
  | .body caller observation io => caller ∈ state.admitted → (state.stage = .waiting → state.fabric.Calm) ∧
    (state.stage ≠ .waiting → ¬ Acknowledged ((state.fabric.letWriterRun io.writer).ingestLocked io observation).1)
  | _ => True

/-! ## Every interleaving -/

def Staged (limits : CodecLimits) (base : Bytes) (acknowledged : List EvidenceRecord) (fabric : Fabric) :
    CloseStage → Prop
  | .waiting => ∃ records, fabric.Journaling ∧ Filed base records fabric ∧ Covers limits acknowledged records
  | .detached journal => ∃ moved ∈ journal, ∃ records, Intact base records moved ∧ Covers limits acknowledged records
  | .returned answer journal => answer = .ok () → ∃ left ∈ journal, ∃ records,
    left.contents = base ++ encodeRecords records ∧ Covers limits acknowledged records

structure Secured (limits : CodecLimits) (base : Bytes) (state : ClosingFabric) : Prop where
  reachable : Reachable state.fabric
  limits_eq : state.fabric.codecLimits = limits
  staged : Staged limits base state.acknowledged state.fabric state.stage

section Steps
variable {limits : CodecLimits} {base : Bytes} {state : ClosingFabric}

theorem Secured.durable (h : Secured limits base state) : Durable limits base state := by
  intro journal hstage
  have hstaged := h.staged
  rw [hstage] at hstaged
  exact hstaged rfl

theorem covers_acknowledgedBy {acknowledged : List EvidenceRecord} {records more : List JournalRecord}
    {result : Outcome IngestOutcome × Fabric} (h : Covers limits acknowledged records)
    (hresult : Acknowledged result.1 →
      ∃ stored ∈ result.2.evidence.history.getLast?, ∃ record ∈ more, Carries limits stored record) :
    Covers limits (acknowledged ++ acknowledgedBy result) (records ++ more) := by
  intro stored hstored
  rcases List.mem_append.mp hstored with hearlier | hnow
  · obtain ⟨record, hrecord, hcarries⟩ := h stored hearlier
    exact ⟨record, List.mem_append_left _ hrecord, hcarries⟩
  · unfold acknowledgedBy at hnow
    split at hnow
    · next hgood =>
      obtain ⟨last, hlast, record, hrecord, hcarries⟩ := hresult hgood
      rw [Option.mem_def.mp hlast] at hnow
      obtain rfl := List.mem_singleton.mp hnow
      exact ⟨record, List.mem_append_right _ hrecord, hcarries⟩
    · cases hnow

section
variable (h : Secured limits base state)
include h

theorem Secured.ingestBody {caller : ℕ} {observation : Observation} {io : CallIo}
    (hin : state.InTime (.body caller observation io)) (hcaller : caller ∈ state.admitted) :
    Secured limits base (state.ingestBody caller observation io) := by
  have hwrote := h.reachable.wrote io.writer
  have hconfig := (RunsBy.anyLocked (state.fabric.letWriterRun io.writer) (.ingest observation) io).config
  obtain ⟨hcalm, hlate⟩ := hin hcaller
  have hstaged := h.staged
  refine ⟨hwrote.raced (.ingest observation) io, ?_, ?_⟩
  · rw [← h.limits_eq]
    unfold codecLimits
    exact congrArg (fun config => codecLimitsFor config.limits) hconfig
  · show Staged limits base (state.acknowledged ++ acknowledgedBy _) _ state.stage
    cases hstage : state.stage with
    | waiting =>
      rw [hstage] at hstaged
      obtain ⟨records, hjournaling, hfiled, hcovers⟩ := hstaged
      obtain ⟨more, hworks, hacknowledged⟩ := ingest_works io hwrote.sound
        (hjournaling.of_only (letWriterRun_only _ _)) hwrote.globalHistory observation
      have htrail := hworks.letWriterRun.trail (hcalm hstage)
      refine ⟨records ++ more, htrail.enqueues.journaling hjournaling, hfiled.trail htrail,
        covers_acknowledgedBy hcovers ?_⟩
      rw [← h.limits_eq]
      exact hacknowledged
    | _ =>
      rw [acknowledgedBy, if_neg (hlate (by simp [hstage])), List.append_nil]
      rwa [hstage] at hstaged

theorem Secured.detach (hstage : state.stage = .waiting) : Secured limits base { state with
      fabric := state.fabric.detachJournal.2, stage := .detached state.fabric.detachJournal.1 } := by
  have hstaged := h.staged
  rw [hstage] at hstaged
  obtain ⟨records, ⟨journal, hjournal, -⟩, hfiled, hcovers⟩ := hstaged
  have hdetach : state.fabric.detachJournal = (some journal, { state.fabric with isOpen := false, journal := none }) := by
    unfold detachJournal
    rw [hjournal, if_neg (by simp)]
  refine ⟨h.reachable.closed, ?_, ?_⟩
  · rw [hdetach]
    exact h.limits_eq
  · rw [hdetach]
    exact ⟨journal, rfl, records, hfiled journal hjournal, hcovers⟩

theorem Secured.stop (io : StopIo) {journal : Option BackgroundJournal} (hstage : state.stage = .detached journal) :
    Secured limits base { state with
      stage := .returned (stopDetached io journal).1 (stopDetached io journal).2 } := by
  have hstaged := h.staged
  rw [hstage] at hstaged
  obtain ⟨moved, rfl, records, hintact, hcovers⟩ := hstaged
  exact ⟨h.reachable, h.limits_eq, fun hok => ⟨_, rfl, records, hintact.stop hok, hcovers⟩⟩

theorem Secured.write (steps : List WriterStep) :
    Secured limits base { state with fabric := state.fabric.letWriterRun steps, stage := state.stage.write steps } := by
  refine ⟨h.reachable.wrote steps, h.limits_eq, ?_⟩
  have hstaged := h.staged
  cases hstage : state.stage with
  | waiting =>
    rw [hstage] at hstaged
    obtain ⟨records, hjournaling, hfiled, hcovers⟩ := hstaged
    exact ⟨records, hjournaling.of_only (letWriterRun_only _ _), hfiled.letWriterRun steps, hcovers⟩
  | detached journal =>
    rw [hstage] at hstaged
    obtain ⟨moved, rfl, records, hintact, hcovers⟩ := hstaged
    exact ⟨_, rfl, records, hintact.progress steps, hcovers⟩
  | returned answer journal =>
    rw [hstage] at hstaged
    exact hstaged

theorem Secured.step (event : ShutdownEvent) (hin : state.InTime event) : Secured limits base (state.step event) := by
  cases event with
  | test caller =>
    dsimp only [ClosingFabric.step]
    split
    · exact ⟨h.reachable, h.limits_eq, h.staged⟩
    · exact h
  | body caller observation io =>
    dsimp only [ClosingFabric.step]
    split
    · next hmember => exact h.ingestBody hin hmember
    · exact h
  | detach =>
    dsimp only [ClosingFabric.step]
    split
    · next hstage => exact h.detach hstage
    · exact h
  | stop io =>
    dsimp only [ClosingFabric.step]
    split
    · next journal hstage => exact h.stop io hstage
    · exact h
  | write steps => exact h.write steps

end

end Steps

/-- In every interleaving in which no ingest meets a compaction or is acknowledged behind the lock of `close`, what
was acknowledged is in the file once `close` has returned with success. -/
theorem acknowledged_durable (config : FabricConfig) (henabled : config.journal.enabled = true) (derived : UInt64)
    (publishedAt : Int64) (io : InitializeIo) (disk : Disk)
    (hopen : ((new config derived publishedAt).initializeFabric io disk).1 = .ok ()) (journal : BackgroundJournal)
    (hjournal : ((new config derived publishedAt).initializeFabric io disk).2.journal = some journal)
    (events : List ShutdownEvent)
    (hmeets : machine.Meets InTime (start ((new config derived publishedAt).initializeFabric io disk).2) events) :
    Durable ((new config derived publishedAt).initializeFabric io disk).2.codecLimits journal.contents
      (machine.final (start ((new config derived publishedAt).initializeFabric io disk).2) events) := by
  have hfiled := filed_of_atEnd hjournal (opened_atEnd henabled hopen journal hjournal)
  have hstart : Secured ((new config derived publishedAt).initializeFabric io disk).2.codecLimits journal.contents
      (start ((new config derived publishedAt).initializeFabric io disk).2) :=
    ⟨.opened config derived publishedAt io disk hopen, rfl, journal.pending, opened_journaling henabled hopen, hfiled,
      fun _ hstored => nomatch hstored⟩
  exact (machine.invariant (fun state event hsecured hin => hsecured.step event hin) hstart hmeets).durable

/-! ## An ingest behind the lock of `close` -/

theorem step_test_stage (state : ClosingFabric) (caller : ℕ) : (state.step (.test caller)).stage = state.stage := by
  dsimp only [step]
  split <;> rfl

def narrowJournal : BackgroundJournal := narrowFabric.journal.getD default

def timelyRun : List ShutdownEvent :=
  [.test 0, .body 0 (symbolErrors firstGeneration 1 10) { now := ⟨0, 0⟩ }, .detach, .stop {}]

theorem timely_evidence_durable :
    (machine.final (start narrowFabric) timelyRun).acknowledged.length = 1 ∧
      Durable narrowFabric.codecLimits narrowJournal.contents (machine.final (start narrowFabric) timelyRun) :=
  ⟨by decide +kernel, acknowledged_durable narrowConfig (by decide) 1 0 {} ⟨none, none⟩ (by decide +kernel) narrowJournal
    (by decide +kernel) timelyRun
    ⟨trivial, fun _ => ⟨fun _ => by decide +kernel, fun hstage => absurd (step_test_stage _ 0) hstage⟩, trivial, trivial,
      trivial⟩⟩

def lateRun : List ShutdownEvent :=
  [.test 0, .detach, .body 0 (symbolErrors firstGeneration 1 10) { now := ⟨0, 0⟩ }, .stop {}]

theorem Durable.found {limits : CodecLimits} {base : Bytes} {state : ClosingFabric} (h : Durable limits base state)
    (hanswer : state.stage.answer = some (.ok ())) {stored : EvidenceRecord} (hstored : stored ∈ state.acknowledged) :
    ∃ body, Codec.evidenceRecord.encodeBody limits stored = .ok body ∧
      encodeRecordBytes ⟨.evidence, stored.ordinal, body⟩ <:+: state.stage.file := by
  cases hstage : state.stage with
  | waiting =>
    rw [hstage] at hanswer
    cases hanswer
  | detached journal =>
    rw [hstage] at hanswer
    cases hanswer
  | returned answer journal =>
    rw [hstage] at hanswer
    obtain rfl : answer = .ok () := Option.some.inj hanswer
    obtain ⟨left, rfl, records, hcontents, hcovers⟩ := h journal hstage
    obtain ⟨⟨kind, ordinal, body⟩, hrecord, rfl, rfl, hbody⟩ := hcovers stored hstored
    obtain ⟨before, after, rfl⟩ := List.append_of_mem hrecord
    refine ⟨body, hbody, base ++ encodeRecords before, encodeRecords after, ?_⟩
    show _ = left.contents
    rw [hcontents, encodeRecords_append, encodeRecords_cons]
    simp only [List.append_assoc]

def lateEvidence : EvidenceRecord := ⟨symbolErrors firstGeneration 1 10, ⟨0, 0, 1⟩, 1, .live⟩

theorem late_evidence_lost :
    ((new narrowConfig 1 0).initializeFabric {} ⟨none, none⟩).1 = .ok () ∧ narrowFabric.journal = some narrowJournal ∧
      ¬ Durable narrowFabric.codecLimits narrowJournal.contents (machine.final (start narrowFabric) lateRun) := by
  refine ⟨by decide +kernel, by decide +kernel, fun hdurable => ?_⟩
  have hstored : lateEvidence ∈ (machine.final (start narrowFabric) lateRun).acknowledged := by decide +kernel
  obtain ⟨body, hbody, hinfix⟩ := hdurable.found (by decide +kernel) hstored
  have hmissing : ∀ body, Codec.evidenceRecord.encodeBody narrowFabric.codecLimits lateEvidence = .ok body →
      ¬ encodeRecordBytes ⟨.evidence, lateEvidence.ordinal, body⟩ <:+:
        (machine.final (start narrowFabric) lateRun).stage.file := by decide +kernel
  exact hmissing body hbody hinfix

end ClosingFabric

end Lqf
