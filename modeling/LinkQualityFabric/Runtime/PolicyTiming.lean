import LinkQualityFabric.Classify.Backing
import LinkQualityFabric.Domain.PolicyRuns

/-! When a policy is published.

The evidence of a run and the documents it publishes decide the report at the end, together with one thing more: the
tracker of a counter runs at the moment of the ingest, under the configuration of the policy that is current then. Two
interleavings of the same evidence with the same publications agree where that configuration is the same. -/
namespace Lqf.Fabric
set_option autoImplicit false

/-! ## Calls that succeed -/

def appended (observation : Observation) (received : ReceiveStamp) (ordinal : UInt64) (state : FabricState) :
    FabricState :=
  { state with evidence := (state.evidence.append observation received ordinal .live
      (counterConfigFor state.policies.current.document observation.metric)).2 }

variable {fabric : Fabric} {io : CallIo} {observation : Observation} {received : ReceiveStamp}
  {outcome : IngestOutcome} {document : PolicyDocument}

theorem ingest_ok (h : (fabric.ingest io observation).1 = .ok outcome) : ∃ (links : LinkRegistry) (ordinal : UInt64),
      fabric.links.observe observation.link observation.observedAt (fabric.receiveStamp io.now) = .ok links ∧
      (fabric.ingest io observation).2.toFabricState =
        appended observation (fabric.receiveStamp io.now) ordinal (fabric.observed links).toFabricState ∧
      (fabric.ingest io observation).2.epoch = fabric.epoch := by
  unfold Fabric.ingest at h ⊢
  split at h
  · cases h
  · next hopen =>
    rw [if_neg hopen]
    have hends := (fabric.letWriterRun io.writer).ingestLocked_ends io observation
    generalize (fabric.letWriterRun io.writer).ingestLocked io observation = result at h hends ⊢
    cases hends with
    | kept | unlinked => cases h
    | @stored links _ hobserve =>
      have hentered := (fabric.letWriterRun io.writer).entered_only io observation links
      have hstored := ((fabric.letWriterRun io.writer).entered io observation links).storeEvidence_only io observation
        (fabric.receiveStamp io.now) (fabric.fences observation.link)
      refine ⟨links, _, hobserve, hstored.state.trans (congrArg (appended observation _ _) hentered.state), ?_⟩
      exact hstored.epoch.trans hentered.epoch

theorem publishPolicy_ok {stamp : PolicyStamp} (h : (fabric.publishPolicy io document).1 = .ok stamp) :
    (fabric.publishPolicy io document).2.policies.current.document = document ∧
      (fabric.publishPolicy io document).2.capabilities = fabric.capabilities ∧
      (fabric.publishPolicy io document).2.links = fabric.links ∧
      (fabric.publishPolicy io document).2.evidence = fabric.evidence ∧
      (fabric.publishPolicy io document).2.epoch = fabric.epoch := by
  unfold Fabric.publishPolicy at h ⊢
  split at h
  · cases h
  · next hopen =>
    rw [if_neg hopen]
    have hends := (fabric.letWriterRun io.writer).respondLocked_ends (.publishPolicy document) io (by simp)
    change Ends _ _ _ (replyWith .published _) at hends
    generalize (fabric.letWriterRun io.writer).publishLocked io document = result at h hends ⊢
    obtain ⟨answer, after⟩ := result
    obtain rfl : answer = .ok stamp := h
    change Ends _ _ _ (.ok (.published stamp), after) at hends
    cases hends with
    | kept _ _ hrefused =>
      obtain ⟨status, hstatus⟩ := hrefused document rfl
      cases hstatus
    | @appended changed kind body _ _ _ hplan _ _ =>
      have honly := changed.journalAppend_only io.record kind body
      cases hplan with
      | publish hpublish _ =>
        obtain ⟨-, rfl⟩ := PolicyRegistry.publish_eq_ok.mp hpublish
        have hpolicies := congrArg FabricState.policies honly.state
        refine ⟨?_, (congrArg FabricState.capabilities honly.state :), (congrArg FabricState.links honly.state :),
          (congrArg FabricState.evidence honly.state :), honly.epoch⟩
        refine (congrArg (fun policies : PolicyRegistry => policies.current.document) hpolicies).trans ?_
        rw [PolicyRegistry.current_push]
        rfl

/-! ## Evidence as a run takes it in -/

/-- How the tracker runs over an observation; it is asked about counters only. -/
def trackingFor (document : PolicyDocument) (observation : Observation) : Option CounterContinuityConfig :=
  match observation.reading with
  | .gauge _ => none
  | .counter _ => some (counterConfigFor document observation.metric)

structure Intake where
  observation : Observation
  now : ClockReading
  tracking : Option CounterContinuityConfig
  deriving DecidableEq, Repr

/-- The evidence of a run whose publications succeed, from the document that is current at its start. -/
def intakes : PolicyDocument → List (FabricCall × CallIo) → List Intake
  | _, [] => []
  | document, (.ingest observation, io) :: rest =>
    ⟨observation, io.now, trackingFor document observation⟩ :: intakes document rest
  | _, (.publishPolicy document, _) :: rest => intakes document rest
  | document, _ :: rest => intakes document rest

def ingests (events : List (FabricCall × CallIo)) : List (Observation × ClockReading) :=
  events.filterMap fun event =>
    match event.1 with
    | .ingest observation => some (observation, event.2.now)
    | _ => none

def publications (events : List (FabricCall × CallIo)) : List PolicyDocument :=
  events.filterMap fun event =>
    match event.1 with
    | .publishPolicy document => some document
    | _ => none

def trackings (document : PolicyDocument) (events : List (FabricCall × CallIo)) : List (Option CounterContinuityConfig) :=
  (intakes document events).map (·.tracking)

theorem intakes_ingests (document : PolicyDocument) (events : List (FabricCall × CallIo)) :
    (intakes document events).map (fun intake => (intake.observation, intake.now)) = ingests events := by
  induction events generalizing document with
  | nil => rfl
  | cons event rest ih =>
    obtain ⟨call, io⟩ := event
    cases call with
    | ingest observation => exact congrArg (List.cons _) (ih document)
    | publishPolicy next => exact ih next
    | declareCapability | registerLink | advanceLinkGeneration => exact ih document

theorem intakes_eq {events events' : List (FabricCall × CallIo)} (hingests : ingests events' = ingests events)
    (htrackings : trackings document events' = trackings document events) :
    intakes document events' = intakes document events := by
  have hpairs : ∀ list : List Intake, list.map (fun intake => ((intake.observation, intake.now), intake.tracking)) =
      (list.map fun intake => (intake.observation, intake.now)).zip (list.map (·.tracking)) := by
    intro list
    rw [List.zip_map']
  have hinjective : Function.Injective fun intake : Intake =>
      ((intake.observation, intake.now), intake.tracking) := by
    rintro ⟨observation, now, tracking⟩ ⟨observation', now', tracking'⟩ h
    simp only [Prod.mk.injEq] at h
    obtain ⟨⟨rfl, rfl⟩, rfl⟩ := h
    rfl
  refine List.map_injective_iff.mpr hinjective ?_
  rw [hpairs, hpairs, intakes_ingests, intakes_ingests, hingests]
  exact congrArg _ htrackings

/-- Links and evidence behind one more observation, without a fabric around them. -/
def takeIn (epoch : UInt64) (state : LinkRegistry × EvidenceStore) (intake : Intake) : LinkRegistry × EvidenceStore :=
  let received : ReceiveStamp := ⟨intake.now.wallNanos, intake.now.steadyNanos, epoch⟩
  match state.1.observe intake.observation.link intake.observation.observedAt received with
  | .error _ => state
  | .ok links =>
    ({ links with evicted := [] },
      ((links.evicted.foldl EvidenceStore.dropLink state.2).append intake.observation received 0 .live
        (intake.tracking.getD .defaults)).2)

/-- The fabric has taken in what the pair of registries has, up to the numbers of the records. -/
structure TookIn (state : LinkRegistry × EvidenceStore) (fabric : Fabric) : Prop where
  links : fabric.links = state.1
  evidence : EvidenceStore.Agree EvidenceRecord.unnumbered (fun _ => True) state.2 fabric.evidence

section Runs
variable {state : LinkRegistry × EvidenceStore} {fabric : Fabric}

theorem sameTracking_trackingFor (document : PolicyDocument) (observation : Observation) :
    StreamState.SameTracking observation ((trackingFor document observation).getD .defaults)
      (counterConfigFor document observation.metric) := by
  intro counter hcounter
  rw [trackingFor, hcounter]
  rfl

theorem TookIn.ingest (h : TookIn state fabric) {io : CallIo} {observation : Observation} {outcome : IngestOutcome}
    (hok : (fabric.ingest io observation).1 = .ok outcome) : TookIn (takeIn fabric.epoch state
      ⟨observation, io.now, trackingFor fabric.policies.current.document observation⟩)
      (fabric.ingest io observation).2 := by
  obtain ⟨links, ordinal, hobserve, hstate, -⟩ := ingest_ok hok
  have hlinks := congrArg FabricState.links hstate
  have hevidence := congrArg FabricState.evidence hstate
  rw [h.links] at hobserve
  have htaken : takeIn fabric.epoch state
      ⟨observation, io.now, trackingFor fabric.policies.current.document observation⟩ =
        ({ links with evicted := [] }, ((links.evicted.foldl EvidenceStore.dropLink state.2).append observation
          (fabric.receiveStamp io.now) 0 .live
          ((trackingFor fabric.policies.current.document observation).getD .defaults)).2) := by
    have hstamped : state.1.observe observation.link observation.observedAt
        ⟨io.now.wallNanos, io.now.steadyNanos, fabric.epoch⟩ = .ok links := hobserve
    simp only [takeIn, hstamped]
    rfl
  rw [htaken]
  refine ⟨hlinks, ?_⟩
  rw [hevidence]
  have hrecord : EvidenceRecord.unnumbered ⟨observation, fabric.receiveStamp io.now, ordinal, .live⟩ =
      EvidenceRecord.unnumbered ⟨observation, fabric.receiveStamp io.now, 0, .live⟩ := rfl
  exact ((h.evidence.dropLinks links.evicted).append faithful_unnumbered trivial hrecord
    (sameTracking_trackingFor fabric.policies.current.document observation)).2

def Timed : FabricCall → Prop
  | .publishPolicy _ | .ingest _ => True
  | .declareCapability _ | .registerLink _ _ | .advanceLinkGeneration _ _ => False

theorem TookIn.run (h : TookIn state fabric) {events : List (FabricCall × CallIo)}
    (htimed : ∀ event ∈ events, Timed event.1) (hok : ∀ entry ∈ machine.trace fabric events, entry.2.isOk = true) :
    TookIn ((intakes fabric.policies.current.document events).foldl (takeIn fabric.epoch) state)
        (machine.final fabric events) ∧ (machine.final fabric events).policies.current.document =
        (publications events).getLastD fabric.policies.current.document ∧
      (machine.final fabric events).capabilities = fabric.capabilities ∧
      (machine.final fabric events).epoch = fabric.epoch := by
  induction events generalizing fabric state with
  | nil => exact ⟨h, rfl, rfl, rfl⟩
  | cons event rest ih =>
    obtain ⟨call, io⟩ := event
    have hrest := fun event hevent => htimed event (List.mem_cons_of_mem _ hevent)
    have hfirst := hok _ List.mem_cons_self
    have hlater := fun entry hentry => hok entry (List.mem_cons_of_mem _ hentry)
    cases call with
    | declareCapability | registerLink | advanceLinkGeneration => exact (htimed _ List.mem_cons_self).elim
    | ingest observation =>
      cases hanswer : (fabric.ingest io observation).1 with
      | error status =>
        simp [machine, respond, replyWith, hanswer, Except.map, Except.isOk, Except.toBool] at hfirst
      | ok outcome =>
        obtain ⟨links, ordinal, hobserve, hstate, hepoch⟩ := ingest_ok hanswer
        have hpolicies := congrArg FabricState.policies hstate
        have hcapabilities := congrArg FabricState.capabilities hstate
        obtain ⟨htook, hdocument, hviews, hlast⟩ := ih (h.ingest hanswer) hrest hlater
        have hcurrent : (fabric.ingest io observation).2.policies.current.document =
            fabric.policies.current.document :=
          congrArg (fun policies : PolicyRegistry => policies.current.document) hpolicies
        rw [hcurrent] at hdocument
        rw [hcurrent, hepoch] at htook
        exact ⟨htook, hdocument, hviews.trans hcapabilities, hlast.trans hepoch⟩
    | publishPolicy document =>
      cases hanswer : (fabric.publishPolicy io document).1 with
      | error status =>
        simp [machine, respond, replyWith, hanswer, Except.map, Except.isOk, Except.toBool] at hfirst
      | ok stamp =>
        obtain ⟨hcurrent, hcapabilities, hlinks, hevidence, hepoch⟩ := publishPolicy_ok hanswer
        have hpublished : TookIn state (fabric.publishPolicy io document).2 := by
          refine ⟨hlinks.trans h.links, ?_⟩
          rw [hevidence]
          exact h.evidence
        obtain ⟨htook, hdocument, hviews, hlast⟩ := ih hpublished hrest hlater
        rw [hcurrent] at hdocument
        rw [hcurrent, hepoch] at htook
        have hlastDocument : (publications ((.publishPolicy document, io) :: rest)).getLastD
            fabric.policies.current.document = (publications rest).getLastD document :=
          List.getLastD_cons
        exact ⟨htook, hdocument.trans hlastDocument.symm, hviews.trans hcapabilities, hlast.trans hepoch⟩

end Runs

/-! ## Two interleavings -/

/-- Two interleavings of the same evidence with the same publications, all of them successful, lead to the same report
where the tracker runs under the same configurations. -/
theorem timing_independent {fabric : Fabric} {events events' : List (FabricCall × CallIo)}
    (htimed : ∀ event ∈ events, Timed event.1) (htimed' : ∀ event ∈ events', Timed event.1)
    (hok : ∀ entry ∈ machine.trace fabric events, entry.2.isOk = true)
    (hok' : ∀ entry ∈ machine.trace fabric events', entry.2.isOk = true) (hingests : ingests events' = ingests events)
    (hpublications : publications events' = publications events)
    (htrackings : trackings fabric.policies.current.document events' =
      trackings fabric.policies.current.document events) (now : ClockReading) (query : QualityQuery) :
    (classifyLink ((machine.final fabric events').contextAt now) query).findings =
      (classifyLink ((machine.final fabric events).contextAt now) query).findings := by
  have hstart : TookIn (fabric.links, fabric.evidence) fabric := ⟨rfl, .refl _ _ _⟩
  obtain ⟨htook, hdocument, hviews, hepoch⟩ := hstart.run htimed hok
  obtain ⟨htook', hdocument', hviews', hepoch'⟩ := hstart.run htimed' hok'
  rw [intakes_eq hingests htrackings] at htook'
  have hagree : EvidenceStore.Agree EvidenceRecord.unnumbered (· = query.link) (machine.final fabric events).evidence
      (machine.final fabric events').evidence := (htook.evidence.symm.trans htook'.evidence).weaken fun _ _ => trivial
  have halike : ReadsAlike query.link ((machine.final fabric events).contextAt now)
      ((machine.final fabric events').contextAt now) := by
    refine .of_agree ?_ ?_ rfl (hepoch'.trans hepoch.symm) hagree
    · exact congrArg (·.viewForLink query.link) (hviews'.trans hviews.symm)
    · refine hdocument'.trans ?_
      rw [hpublications]
      exact hdocument.symm
  exact halike.findings

/-! ## A counter under two policies -/

def symbolErrorMetric : MetricId := ⟨.errorCounter, text "errors.symbol"⟩

def rateRule (gapNanos : Int64) : MetricRule where
  metric := symbolErrorMetric
  basis := .counterRatePerSecond
  bands := [⟨text "any", .negativeInfinity, none, .healthy, []⟩]
  conflictTolerance := .zero
  validityNanos := 0
  maxContinuityGapNanos := gapNanos
  wrapInference := false
  wrapCeilingFraction := .threeQuarters
  wrapFloorFraction := .quarter

def ratePolicy (gapNanos : Int64) : PolicyDocument :=
  { PolicyDocument.named (text "rates") with rules := [rateRule gapNanos], requireCapability := false }

def errorCounter : CapabilityDeclaration :=
  { thermometer with metrics := [⟨symbolErrorMetric, .count, .counter, .bits64, false, 0, 0⟩] }

def symbols (sequence value : UInt64) : Observation :=
  { degrees sequence .one with
    metric := symbolErrorMetric
    unit := .count
    reading := .counter ⟨value, .bits64, false⟩
    observedAt := ⟨sequence.toInt64 * 1000000000, false⟩ }

def countingFabric : Fabric :=
  (((new { gaugeConfig with initialPolicy := some (ratePolicy 10) } 1 0).initializeFabric {} ⟨none, none⟩).2.respond
    (.declareCapability errorCounter, { now := instant 1 })).2

def secondsLater (seconds : Int64) : CallIo := { now := instant (seconds * 1000000000) }

def countedThenRelaxed : List (FabricCall × CallIo) :=
  [(.ingest (symbols 1 5), secondsLater 1), (.ingest (symbols 2 7), secondsLater 2),
    (.publishPolicy (ratePolicy 60000000000), secondsLater 3)]

def relaxedThenCounted : List (FabricCall × CallIo) :=
  [(.publishPolicy (ratePolicy 60000000000), secondsLater 1), (.ingest (symbols 1 5), secondsLater 1),
    (.ingest (symbols 2 7), secondsLater 2)]

def renamedPolicy : PolicyDocument := { ratePolicy 10 with id := text "renamed" }

def renamedBetween : List (FabricCall × CallIo) :=
  [(.ingest (symbols 1 5), secondsLater 1), (.publishPolicy renamedPolicy, secondsLater 2),
    (.ingest (symbols 2 7), secondsLater 2)]

def renamedFirst : List (FabricCall × CallIo) :=
  [(.publishPolicy renamedPolicy, secondsLater 1), (.ingest (symbols 1 5), secondsLater 1),
    (.ingest (symbols 2 7), secondsLater 2)]

/-- A new name does not touch the tracker. -/
theorem renamed_at_any_time :
    (classifyLink ((machine.final countingFabric renamedFirst).contextAt (instant 4000000000))
        { link := ⟨text "a", 1⟩ }).findings =
      (classifyLink ((machine.final countingFabric renamedBetween).contextAt (instant 4000000000))
        { link := ⟨text "a", 1⟩ }).findings := by
  have htimed : ∀ event ∈ renamedBetween, Timed event.1 := by
    simp [renamedBetween, Timed]
  have htimed' : ∀ event ∈ renamedFirst, Timed event.1 := by
    simp [renamedFirst, Timed]
  exact timing_independent htimed htimed' (by decide +kernel) (by decide +kernel) (by decide +kernel)
    (by decide +kernel) (by decide +kernel) _ _

/-- The same evidence and the same policy, and the rate is refused in one run and classified in the other. -/
theorem relaxed_too_late :
    ingests countedThenRelaxed = ingests relaxedThenCounted ∧
      publications countedThenRelaxed = publications relaxedThenCounted ∧
      (∀ entry ∈ machine.trace countingFabric countedThenRelaxed, entry.2.isOk = true) ∧
      (∀ entry ∈ machine.trace countingFabric relaxedThenCounted, entry.2.isOk = true) ∧
      (classifyLink ((machine.final countingFabric countedThenRelaxed).contextAt (instant 4000000000))
        { link := ⟨text "a", 1⟩ }).overall = .incomplete ∧
      (classifyLink ((machine.final countingFabric relaxedThenCounted).contextAt (instant 4000000000))
        { link := ⟨text "a", 1⟩ }).overall = .healthy := by
  decide +kernel

end Lqf.Fabric
