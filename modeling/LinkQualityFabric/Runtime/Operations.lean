import LinkQualityFabric.Runtime.Fabric

/-! The operations of the runtime that change its state: `src/runtime/fabric.cpp`.

Each operation has an unlocked part, which looks at the open flag and at its arguments, and a locked part.
The two are separate definitions, since another call may come between them. -/
namespace Lqf.Fabric
open Foundations
set_option autoImplicit false

def fabricClosed : Status := ⟨.unavailable, text "the fabric is closed"⟩

def drainEvicted (fabric : Fabric) : Fabric := { fabric with toFabricState := fabric.drain }

/-! ## Capabilities -/

def countDeclaration (fabric : Fabric) : Fabric :=
  fabric.tally fun stats => { stats with capabilityDeclarations := stats.capabilityDeclarations + 1 }

def countCapabilityRejection (fabric : Fabric) : Fabric :=
  fabric.tally fun stats => { stats with capabilityRejections := stats.capabilityRejections + 1 }

/-- The declaration is in the registry; whether the journal takes its record does not show in the answer. -/
def journalDeclaration (io : CallIo) (declaration : CapabilityDeclaration) (fabric : Fabric) :
    Outcome CapabilityAck × Fabric :=
  match Codec.capabilityDeclaration.encodeBody fabric.codecLimits declaration with
  | .error status => (.error status, fabric)
  | .ok body =>
    (.ok ⟨declaration.revision, .none, 0⟩, (fabric.journalAppend io.record .capability body).2.countDeclaration)

def declareLocked (io : CallIo) (declaration : CapabilityDeclaration) (fabric : Fabric) :
    Outcome CapabilityAck × Fabric :=
  if fabric.queueFull then
    (fail .busy (text "the journal queue is full; the declaration was refused before any state changed"),
      fabric.refuseRecord)
  else
    match fabric.capabilities.declare fabric.catalog declaration with
    | .error status =>
      if status.code = .duplicate then (.ok ⟨declaration.revision, .none, 1⟩, fabric.countDeclaration)
      else (.error status, fabric.countCapabilityRejection)
    | .ok capabilities => { fabric with capabilities := capabilities }.journalDeclaration io declaration

def declareCapability (io : CallIo) (declaration : CapabilityDeclaration) (fabric : Fabric) :
    Outcome CapabilityAck × Fabric :=
  if fabric.isOpen = false then (.error fabricClosed, fabric)
  else
    match validateCapability declaration fabric.catalog fabric.observationLimits
        fabric.config.limits.maxMetricsPerCapability with
    | .error status => (.error status, fabric)
    | .ok () => (fabric.letWriterRun io.writer).declareLocked io declaration

/-! ## Links -/

def operationRefused : Status :=
  ⟨.busy, text "the journal queue is full; the operation was refused before any state changed"⟩

/-- Encoding comes before the registry, so an encoding that fails changes nothing. -/
def planRegistration (link : LinkIdentity) (observedAt : Timestamp) (received : ReceiveStamp) (fabric : Fabric) :
    Outcome (Bytes × LinkRegistry) := do
  let body ← Codec.linkObservedBody.encodeBody fabric.codecLimits ⟨link, observedAt, received⟩
  let links ← fabric.links.observe link observedAt received
  return (body, links)

def registered (links : LinkRegistry) (fabric : Fabric) : Fabric :=
  { fabric with links := links }.drainEvicted.tally fun stats =>
    { stats with linksRegistered := stats.linksRegistered + 1 }

def registerLocked (io : CallIo) (link : LinkIdentity) (observedAt : Timestamp) (fabric : Fabric) :
    Outcome Unit × Fabric :=
  if fabric.links.contains link then (.ok (), fabric)
  else if fabric.queueFull then (.error operationRefused, fabric.refuseRecord)
  else
    match fabric.planRegistration link observedAt (fabric.receiveStamp io.now) with
    | .error status => (.error status, fabric)
    | .ok (body, links) => (fabric.registered links).journalAppend io.record .linkObserved body

def registerLink (io : CallIo) (link : LinkIdentity) (observedAt : Timestamp) (fabric : Fabric) :
    Outcome Unit × Fabric :=
  if fabric.isOpen = false then (.error fabricClosed, fabric)
  else
    match validateLinkIdentity link with
    | .error status => (.error status, fabric)
    | .ok () => (fabric.letWriterRun io.writer).registerLocked io link observedAt

def planAdvance (link : LinkIdentity) (reason : ReasonCode) (now : ClockReading) (fabric : Fabric) :
    Outcome (Bytes × LinkRegistry) := do
  let received := fabric.receiveStamp now
  let body ← Codec.generationBody.encodeBody fabric.codecLimits
    ⟨link.id, link.generation, ⟨now.wallNanos, true⟩, received, reason⟩
  let links ← fabric.links.advanceGeneration link ⟨now.wallNanos, true⟩ received
  return (body, links)

def advanced (links : LinkRegistry) (fabric : Fabric) : Fabric :=
  { fabric with links := links }.drainEvicted.tally fun stats =>
    { stats with generationsAdvanced := stats.generationsAdvanced + 1 }

def advanceLocked (io : CallIo) (link : LinkIdentity) (reason : ReasonCode) (fabric : Fabric) :
    Outcome Unit × Fabric :=
  if fabric.queueFull then (.error operationRefused, fabric.refuseRecord)
  else
    match fabric.planAdvance link reason io.now with
    | .error status => (.error status, fabric)
    | .ok (body, links) => (fabric.advanced links).journalAppend io.record .linkGenerationAdvanced body

def advanceLinkGeneration (io : CallIo) (link : LinkIdentity) (reason : ReasonCode) (fabric : Fabric) :
    Outcome Unit × Fabric :=
  if fabric.isOpen = false then (.error fabricClosed, fabric)
  else (fabric.letWriterRun io.writer).advanceLocked io link reason

/-! ## Policies -/

def countPublication (fabric : Fabric) : Fabric :=
  fabric.tally fun stats => { stats with policyPublications := stats.policyPublications + 1 }

def countPolicyRejection (fabric : Fabric) : Fabric :=
  fabric.tally fun stats => { stats with policyRejections := stats.policyRejections + 1 }

def journalPolicy (io : CallIo) (record : PolicyGenerationRecord) (fabric : Fabric) : Outcome PolicyStamp × Fabric :=
  match Codec.policyGenerationRecord.encodeBody fabric.codecLimits record with
  | .error status => (.error status, fabric)
  | .ok body => (.ok record.stamp, (fabric.journalAppend io.record .policy body).2.countPublication)

def publishLocked (io : CallIo) (document : PolicyDocument) (fabric : Fabric) : Outcome PolicyStamp × Fabric :=
  if fabric.queueFull then (.error operationRefused, fabric.refuseRecord)
  else
    match fabric.policies.publish fabric.policyChecks document ⟨io.now.wallNanos, true⟩ with
    | .error status => (.error status, fabric.countPolicyRejection)
    | .ok (record, policies) => { fabric with policies := policies }.journalPolicy io record

def publishPolicy (io : CallIo) (document : PolicyDocument) (fabric : Fabric) : Outcome PolicyStamp × Fabric :=
  if fabric.isOpen = false then (.error fabricClosed, fabric)
  else (fabric.letWriterRun io.writer).publishLocked io document

/-! ## Evidence -/

def checkWidth (capability : MetricCapability) : Reading → Outcome Unit
  | .gauge _ => .ok ()
  | .counter counter => do
    refuseIf (counter.width = .unspecified ∧ capability.counterWidth = .unspecified) .invalid
      (text "counter evidence must declare a width, here or in the capability")
    refuseIf (counter.width ≠ .unspecified ∧ capability.counterWidth ≠ .unspecified ∧
        counter.width ≠ capability.counterWidth) .invalid
      (text "counter width does not match the declared capability")

def checkCapability (observation : Observation) : Option MetricCapability → Outcome Unit
  | none =>
    fail .rejected (text "no capability declaration covers this metric for this source: " ++
      observation.metric.render)
  | some capability => do
    refuseIf (capability.unit ≠ observation.unit) .invalid
      (text "units do not match the declared capability: expected " ++ capability.unit.name ++
        text ", received " ++ observation.unit.name)
    refuseIf (capability.semantics ≠ observation.semantics) .invalid
      (text "sample semantics do not match the declared capability")
    refuseIf (observation.lane.aggregate = false ∧ capability.lanesDeclared = false) .rejected
      (text "the declared capability does not cover per lane evidence")
    refuseIf (observation.lane.aggregate = false ∧ capability.laneCount ≤ observation.lane.lane) .invalid
      (text "lane exceeds the declared lane count of " ++ formatNat capability.laneCount.toNat)
    checkWidth capability observation.reading

def checkDeclared (observation : Observation) (fabric : Fabric) : Outcome Unit :=
  if fabric.policies.current.document.requireCapability then
    checkCapability observation
      (fabric.capabilities.capabilityOf observation.link observation.metric observation.source)
  else .ok ()

/-- The checks of `ingest` in front of the probe. -/
def checkObservation (now : ClockReading) (observation : Observation) (fabric : Fabric) : Outcome Unit := do
  refuseIf (fabric.catalog.find observation.metric = none) .unsupported
    (text "metric is not registered in the catalog: " ++ observation.metric.render)
  validateObservation observation (fabric.catalog.find observation.metric) fabric.observationLimits
  fabric.checkDeclared observation
  refuseIf (observation.observedAt.synchronized ∧ 0 < fabric.config.limits.maxObservationAgeNanos ∧
      fabric.config.limits.maxObservationAgeNanos < now.wallNanos - observation.observedAt.unixNanos) .stale
    (text "evidence from a synchronized source is older than the configured maximum observation age")

def rejectObservation (fabric : Fabric) : Fabric :=
  fabric.tally fun stats => { stats with observationsRejected := stats.observationsRejected + 1 }

def fences (link : LinkIdentity) (fabric : Fabric) : Bool :=
  match fabric.links.currentGeneration link.id with
  | none => false
  | some current => link.generation < current

def countAccepted (outcome : IngestOutcome) (stats : FabricStats) : FabricStats :=
  { stats with
    observationsAccepted := stats.observationsAccepted + 1
    observationsReordered := stats.observationsReordered + if outcome.reordered then 1 else 0
    continuityBreaks := stats.continuityBreaks + if outcome.continuityBroken then 1 else 0
    wrapsInferred := stats.wrapsInferred + if outcome.counterEvent = .wrap then 1 else 0
    resetsObserved := stats.resetsObserved + if outcome.counterEvent = .reset then 1 else 0
    unprovenDecreases := stats.unprovenDecreases + if outcome.counterEvent = .decreaseUnproven then 1 else 0
    streamEvictions := stats.streamEvictions + UInt64.ofNat outcome.evicted }

def countOutcome (outcome : IngestOutcome) (stats : FabricStats) : FabricStats :=
  if outcome.duplicate then { stats with observationsDuplicate := stats.observationsDuplicate + 1 }
  else if outcome.accepted then countAccepted outcome stats
  else stats

/-- Without a journal the ordinal advances all the same. -/
def advanceUnjournaled (fabric : Fabric) : Fabric :=
  if fabric.activeJournal = none then { fabric with nextOrdinal := fabric.nextOrdinal + 1 } else fabric

/-- The evidence is in memory but not durable. -/
def answerDegraded (outcome : IngestOutcome) (fabric : Fabric) : Outcome IngestOutcome × Fabric :=
  (.ok { outcome with reason := .persistenceDegraded },
    fabric.tally fun stats => { stats with observationsAccepted := stats.observationsAccepted + 1 })

def answerStored (io : CallIo) (outcome : IngestOutcome) (fenced : Bool) (fabric : Fabric) :
    Outcome IngestOutcome × Fabric :=
  (.ok (if fenced then { outcome with reason := .fencedGeneration } else outcome),
    (fabric.tally (countOutcome outcome)).maybeCompact io.compaction)

/-- The end of `ingest`, behind the append of the evidence record. -/
def finishIngest (io : CallIo) (outcome : IngestOutcome) (fenced : Bool) (journaled : Outcome Unit × Fabric) :
    Outcome IngestOutcome × Fabric :=
  match journaled with
  | (.ok (), fabric) => fabric.advanceUnjournaled.answerStored io outcome fenced
  | (.error status, fabric) =>
    if status.code = .refused then fabric.advanceUnjournaled.answerStored io outcome fenced
    else fabric.advanceUnjournaled.answerDegraded outcome

def journalEvidence (io : CallIo) (record : EvidenceRecord) (outcome : IngestOutcome) (fenced : Bool)
    (fabric : Fabric) : Outcome IngestOutcome × Fabric :=
  match Codec.evidenceRecord.encodeBody fabric.codecLimits record with
  | .error status => (.error status, fabric.rejectObservation)
  | .ok body => finishIngest io outcome fenced (fabric.journalAppend io.record .evidence body)

def storeEvidence (io : CallIo) (observation : Observation) (received : ReceiveStamp) (fenced : Bool)
    (fabric : Fabric) : Outcome IngestOutcome × Fabric :=
  match fabric.evidence.append observation received fabric.nextOrdinal .live
      (counterConfigFor fabric.policies.current.document observation.metric) with
  | (.error status, evidence) => (.error status, { fabric with evidence := evidence }.rejectObservation)
  | (.ok outcome, evidence) =>
    { fabric with evidence := evidence }.journalEvidence io ⟨observation, received, fabric.nextOrdinal, .live⟩
      outcome fenced

/-- A link that was not registered is journaled before its evidence. -/
def journalNewLink (io : CallIo) (body : LinkObservedBody) (fabric : Fabric) : Outcome Unit × Fabric :=
  match Codec.linkObservedBody.encodeBody fabric.codecLimits body with
  | .error status => (.error status, fabric)
  | .ok encoded =>
    match fabric.journalAppend io.link .linkObserved encoded with
    | (.ok (), after) => (.ok (), after)
    | (.error status, after) => if status.code = .refused then (.ok (), after) else (.error status, after)

def ingestNewLink (io : CallIo) (observation : Observation) (received : ReceiveStamp) (fenced : Bool)
    (fabric : Fabric) : Outcome IngestOutcome × Fabric :=
  match fabric.journalNewLink io ⟨observation.link, observation.observedAt, received⟩ with
  | (.error status, after) => (.error status, after.rejectObservation)
  | (.ok (), after) => after.storeEvidence io observation received fenced

def observed (links : LinkRegistry) (fabric : Fabric) : Fabric :=
  { fabric with links := links }.drainEvicted.tally fun stats =>
    { stats with
      historyEvictions := stats.historyEvictions + UInt64.ofNat links.evicted.length
      linksObserved := stats.linksObserved + 1 }

def ingestChecked (io : CallIo) (observation : Observation) (received : ReceiveStamp) (fabric : Fabric) :
    Outcome IngestOutcome × Fabric :=
  match fabric.links.observe observation.link observation.observedAt received with
  | .error status => (.error status, fabric.rejectObservation)
  | .ok links =>
    if fabric.links.contains observation.link then
      (fabric.observed links).storeEvidence io observation received (fabric.fences observation.link)
    else (fabric.observed links).ingestNewLink io observation received (fabric.fences observation.link)

def ingestLocked (io : CallIo) (observation : Observation) (fabric : Fabric) : Outcome IngestOutcome × Fabric :=
  match fabric.checkObservation io.now observation with
  | .error status => (.error status, fabric.rejectObservation)
  | .ok () =>
    if fabric.queueFull then
      (fail .busy (text "the journal queue is full; evidence was refused before the state changed"),
        fabric.rejectObservation.tally fun stats =>
          { stats with journalRejections := stats.journalRejections + 1 })
    else fabric.ingestChecked io observation (fabric.receiveStamp io.now)

def ingest (io : CallIo) (observation : Observation) (fabric : Fabric) : Outcome IngestOutcome × Fabric :=
  if fabric.isOpen = false then (.error fabricClosed, fabric)
  else (fabric.letWriterRun io.writer).ingestLocked io observation

/-! ## Flushing and closing -/

def flush (io : BackgroundJournal.FlushIo) (fabric : Fabric) : Outcome Unit × Fabric :=
  match fabric.activeJournal with
  | none => (fail .refused (text "persistence is disabled"), fabric)
  | some journal => ((journal.flush io).1, { fabric with journal := some (journal.flush io).2 })

/-- The locked section of `close`: the journal is moved out of the fabric. -/
def detachJournal (fabric : Fabric) : Option BackgroundJournal × Fabric :=
  if fabric.isOpen = false ∧ fabric.journal = none then (none, fabric)
  else (fabric.journal, { fabric with isOpen := false, journal := none })

/-- What `close` does with the journal it has moved out, behind the lock. -/
def stopDetached (io : BackgroundJournal.StopIo) : Option BackgroundJournal → Outcome Unit × Option BackgroundJournal
  | none => (.ok (), none)
  | some journal => ((journal.stop io).1, some (journal.stop io).2)

/-! ## Runs -/

inductive FabricCall where
  | declareCapability (declaration : CapabilityDeclaration)
  | registerLink (link : LinkIdentity) (observedAt : Timestamp)
  | advanceLinkGeneration (link : LinkIdentity) (reason : ReasonCode)
  | publishPolicy (document : PolicyDocument)
  | ingest (observation : Observation)
  deriving DecidableEq, Repr

inductive FabricReply where
  | acknowledged (ack : CapabilityAck)
  | done
  | published (stamp : PolicyStamp)
  | ingested (outcome : IngestOutcome)
  deriving DecidableEq, Repr

def replyWith {α : Type} (reply : α → FabricReply) (result : Outcome α × Fabric) : Outcome FabricReply × Fabric :=
  (result.1.map reply, result.2)

def respond (fabric : Fabric) : FabricCall × CallIo → Outcome FabricReply × Fabric
  | (.declareCapability declaration, io) => replyWith .acknowledged (fabric.declareCapability io declaration)
  | (.registerLink link observedAt, io) => replyWith (fun _ => .done) (fabric.registerLink io link observedAt)
  | (.advanceLinkGeneration link reason, io) =>
    replyWith (fun _ => .done) (fabric.advanceLinkGeneration io link reason)
  | (.publishPolicy document, io) => replyWith .published (fabric.publishPolicy io document)
  | (.ingest observation, io) => replyWith .ingested (fabric.ingest io observation)

/-- The locked part alone, for a call whose unlocked part lies in the past. -/
def respondLocked (fabric : Fabric) : FabricCall × CallIo → Outcome FabricReply × Fabric
  | (.declareCapability declaration, io) => replyWith .acknowledged (fabric.declareLocked io declaration)
  | (.registerLink link observedAt, io) => replyWith (fun _ => .done) (fabric.registerLocked io link observedAt)
  | (.advanceLinkGeneration link reason, io) => replyWith (fun _ => .done) (fabric.advanceLocked io link reason)
  | (.publishPolicy document, io) => replyWith .published (fabric.publishLocked io document)
  | (.ingest observation, io) => replyWith .ingested (fabric.ingestLocked io observation)

def passes (fabric : Fabric) : FabricCall → Outcome Unit
  | .declareCapability declaration => do
    refuseIf (fabric.isOpen = false) fabricClosed.code fabricClosed.message
    validateCapability declaration fabric.catalog fabric.observationLimits
      fabric.config.limits.maxMetricsPerCapability
  | .registerLink link _ => do
    refuseIf (fabric.isOpen = false) fabricClosed.code fabricClosed.message
    validateLinkIdentity link
  | _ => refuseIf (fabric.isOpen = false) fabricClosed.code fabricClosed.message

def machine : Machine Fabric (FabricCall × CallIo) (Outcome FabricReply) := ⟨respond⟩

end Lqf.Fabric
