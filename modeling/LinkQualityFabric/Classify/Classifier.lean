import LinkQualityFabric.Core.DoubleArithmetic
import LinkQualityFabric.Runtime.Fabric
import LinkQualityFabric.Store.CapabilityView

/-! Classification of a link: `src/classify/classifier.cpp`.

For every metric and lane the streams of the declared sources are collected, each with the record that counts at the
evaluated instant. Fresh records give candidates, the candidates of the highest authority have to agree, and the rule
of the metric turns the agreed value into a state. Lanes and metrics are rolled up by severity. -/
namespace Lqf
open Foundations
set_option autoImplicit false

/-! ## Policies -/

def ThresholdBand.contains (band : ThresholdBand) (value : Double) : Bool :=
  !value.isNan && !value.lt band.lower &&
    match band.upper with
    | none => true
    | some upper => value.lt upper

def MetricRule.classify (rule : MetricRule) (value : Double) : Option ThresholdBand :=
  if value.isNan then none else rule.bands.find? (·.contains value)

def FreshnessPolicy.validityFor (freshness : FreshnessPolicy) (family : MetricFamily) : Int64 :=
  match freshness.familyValidityNanos.find? fun entry => entry.1 = family with
  | some entry => entry.2
  | none => freshness.defaultValidityNanos

namespace SeverityTable

def of (table : SeverityTable) (state : QualityState) : UInt8 := table.rank.getD (Enumeration.code state) 0

def worst (table : SeverityTable) (lhs rhs : QualityState) : QualityState :=
  if table.of rhs ≤ table.of lhs then lhs else rhs

end SeverityTable

/-- A rate needs an interval that is positive and not below the shortest one the policy trusts. -/
def CounterDelta.ratePerSecond (delta : CounterDelta) (minIntervalNanos : Int64) : Option Double :=
  if delta.elapsedNanos ≤ 0 ∨ delta.elapsedNanos < minIntervalNanos then none
  else
    let seconds := (Double.ofInt delta.elapsedNanos.toInt).div (Double.ofInt 1000000000)
    if Double.zero.lt seconds = false ∨ seconds.isFinite = false then none
    else
      let rate := (Double.ofInt delta.delta.toNat).div seconds
      if rate.isFinite then some rate else none

def EvidenceStore.streamsFor (store : EvidenceStore) (link : LinkIdentity) (metric : MetricId) :
    List (StreamKey × StreamState) :=
  store.streams.toList.filter fun entry => entry.1.link = link && entry.1.metric = metric

/-! ## One stream -/

structure ClassifierContext where
  links : LinkRegistry
  store : EvidenceStore
  capabilities : CapabilityRegistry
  policy : PolicyGenerationRecord
  now : ClockReading
  epoch : UInt64

/-- Live evidence of this epoch that came behind the evaluated instant. -/
def receivedAfter (record : EvidenceRecord) (now : ClockReading) (epoch : UInt64) : Bool :=
  if record.origin ≠ .live ∨ record.received.epoch ≠ epoch then false
  else now.steadyNanos < record.received.steadyNanos

def newestRecent (stream : StreamState) (now : ClockReading) (epoch : UInt64) : Option EvidenceRecord :=
  stream.recent.reverse.find? fun record => !receivedAfter record now epoch

def newestAtOrBefore (stream : StreamState) (now : ClockReading) (epoch : UInt64) : Option EvidenceRecord :=
  match stream.latestFed with
  | some fed => if receivedAfter fed now epoch then newestRecent stream now epoch else some fed
  | none => newestRecent stream now epoch

/-- The record that counts is not the one fed last, which the source tells by its address. -/
def reconstructs (stream : StreamState) (now : ClockReading) (epoch : UInt64) : Bool :=
  match stream.latestFed with
  | some fed => receivedAfter fed now epoch
  | none => true

def counterObservationOf (record : EvidenceRecord) : CounterObservation :=
  StreamState.counterObservation record.observation record.received
    (match record.observation.reading with
    | .counter counter => counter
    | .gauge _ => ⟨0, .unspecified, false⟩)

/-- The freshness of a record and its age: on the steady clock for live evidence of this epoch, on the wall clock
otherwise. -/
def recordIsFresh (record : EvidenceRecord) (validityNanos : Int64) (now : ClockReading) (epoch : UInt64) :
    Bool × Int64 :=
  if record.origin ≠ .live ∨ record.received.epoch ≠ epoch then
    let wallAge := now.wallNanos - record.received.wallNanos
    (false, if wallAge < 0 then 0 else wallAge)
  else
    let steadyAge := now.steadyNanos - record.received.steadyNanos
    let age := if steadyAge < 0 then 0 else steadyAge
    (if validityNanos ≤ 0 then false else age ≤ validityNanos, age)

def validityFor (policy : PolicyGenerationRecord) (rule : Option MetricRule) (family : MetricFamily)
    (declaration : Option DeclaredSource) : Int64 :=
  match rule.filter fun rule => 0 < rule.validityNanos with
  | some rule => rule.validityNanos
  | none =>
    match declaration.filter fun declaration => 0 < declaration.validityNanos with
    | some declaration => declaration.validityNanos
    | none => policy.document.freshness.validityFor family

structure ContinuityView where
  delta : Option CounterDelta
  rateAdmissible : Bool
  event : CounterEvent
  reason : ReasonCode
  deriving DecidableEq, Repr

def StreamState.continuityView (stream : StreamState) : ContinuityView :=
  ⟨stream.lastDelta, stream.rateAdmissible, stream.lastCounterEvent, stream.lastCounterReason⟩

def reconstructStep (config : CounterContinuityConfig) (state : CounterStep × CounterContinuity)
    (record : EvidenceRecord) : CounterStep × CounterContinuity :=
  match record.observation.reading with
  | .gauge _ => state
  | .counter _ => state.2.observe (counterObservationOf record) config

/-- The tracker run again over the ring, without what came behind the instant. -/
def reconstructed (stream : StreamState) (config : CounterContinuityConfig) (now : ClockReading) (epoch : UInt64) :
    ContinuityView :=
  let state := (stream.recent.filter fun record => !receivedAfter record now epoch).foldl (reconstructStep config)
    (⟨.baseline, .none, none, false⟩, .initial)
  ⟨state.1.delta, state.2.rateAdmissible, state.1.event, state.1.reason⟩

def continuityAt (context : ClassifierContext) (key : StreamKey) (stream : StreamState) : ContinuityView :=
  if reconstructs stream context.now context.epoch then
    reconstructed stream (counterConfigFor context.policy.document key.metric) context.now context.epoch
  else stream.continuityView

/-! ## One lane -/

structure Candidate where
  reference : EvidenceRef
  value : Double
  authority : UInt64
  source : SourceIdentity
  deriving DecidableEq, Repr

structure LaneContext where
  hasEvidence : Bool := false
  hasFreshReading : Bool := false
  reasons : ReasonList := []
  candidates : List Candidate := []
  evidence : List EvidenceRef := []
  intervalRate : Option Double := none
  counterReason : ReasonCode := .none
  counterEvent : CounterEvent := .baseline
  recoveredOnly : Bool := true
  sourcesWithEvidence : UInt32 := 0
  sourcesFresh : UInt32 := 0
  newestFreshAge : Int64 := 0
  hasFreshAge : Bool := false
  deriving DecidableEq, Repr

def referenceTo (record : EvidenceRecord) (freshness : Bool × Int64) : EvidenceRef where
  source := record.observation.source
  sequence := record.observation.sequence
  lane := record.observation.lane
  metric := record.observation.metric
  observedAt := record.observation.observedAt
  received := record.received
  origin := record.origin
  evidenceClass := record.observation.provenance.evidenceClass
  authority := record.observation.authority
  unit := record.observation.unit
  value := .zero
  counterReading := none
  delta := none
  used := false
  fresh := freshness.1
  ageNanos := freshness.2
  rendered := renderReading record.observation.reading record.observation.unit
  provenance :=
    if record.observation.provenance.origin = [] then record.observation.provenance.producer
    else record.observation.provenance.origin

namespace LaneContext

def noteRecord (record : EvidenceRecord) (freshness : Bool × Int64) (lane : LaneContext) : LaneContext :=
  { lane with
    hasEvidence := true
    sourcesWithEvidence := lane.sourcesWithEvidence + 1
    recoveredOnly := if record.origin = .live then false else lane.recoveredOnly
    sourcesFresh := if freshness.1 then lane.sourcesFresh + 1 else lane.sourcesFresh
    newestFreshAge :=
      if freshness.1 ∧ (lane.hasFreshAge = false ∨ freshness.2 < lane.newestFreshAge) then freshness.2
      else lane.newestFreshAge
    hasFreshAge := lane.hasFreshAge || freshness.1
    hasFreshReading := lane.hasFreshReading || freshness.1 }

def addCandidate (record : EvidenceRecord) (reference : EvidenceRef) (value : Double) (lane : LaneContext) :
    LaneContext :=
  { lane with candidates :=
      lane.candidates ++ [⟨reference, value, record.observation.authority, record.observation.source⟩] }

def keepReference (maxEvidence : ℕ) (reference : EvidenceRef) (lane : LaneContext) : LaneContext :=
  if lane.evidence.length < maxEvidence then { lane with evidence := lane.evidence ++ [reference] } else lane

end LaneContext

def collectGauge (record : EvidenceRecord) (gauge : GaugeReading) (freshness : Bool × Int64) (lane : LaneContext) :
    EvidenceRef × LaneContext :=
  let reference := { referenceTo record freshness with value := gauge.value }
  (reference, if freshness.1 then lane.addCandidate record reference gauge.value else lane)

/-- A rate that is not admissible now is reported and decides nothing. -/
def collectRate (record : EvidenceRecord) (freshness : Bool × Int64) (validity : Int64) (view : ContinuityView)
    (delta : CounterDelta) (rate : Double) (reference : EvidenceRef) (lane : LaneContext) : EvidenceRef × LaneContext :=
  if view.rateAdmissible ∧ freshness.1 ∧ delta.elapsedNanos ≤ validity then
    let reference := { reference with value := rate }
    (reference, { lane with hasFreshReading := true }.addCandidate record reference rate)
  else
    (reference, { lane with
      intervalRate := some rate
      reasons := addReason lane.reasons
        (if view.rateAdmissible then .partiallyFreshEvidence else .continuityGapExceeded) })

def collectCounter (record : EvidenceRecord) (counter : CounterReading) (freshness : Bool × Int64) (validity : Int64)
    (minIntervalNanos : Int64) (view : ContinuityView) (lane : LaneContext) : EvidenceRef × LaneContext :=
  let reference := { referenceTo record freshness with counterReading := some counter.value, delta := view.delta }
  let lane := { lane with counterEvent := view.event, counterReason := view.reason }
  match view.delta with
  | none => (reference, { lane with reasons := addReason lane.reasons view.reason })
  | some delta =>
    match delta.ratePerSecond minIntervalNanos with
    | none => (reference, lane)
    | some rate => collectRate record freshness validity view delta rate reference lane

def collectRecord (context : ClassifierContext) (validity : Int64) (key : StreamKey) (stream : StreamState)
    (maxEvidence : ℕ) (record : EvidenceRecord) (lane : LaneContext) : LaneContext :=
  let freshness := recordIsFresh record validity context.now context.epoch
  let noted := lane.noteRecord record freshness
  let collected :=
    match record.observation.reading with
    | .gauge gauge => collectGauge record gauge freshness noted
    | .counter counter =>
      collectCounter record counter freshness validity context.policy.document.freshness.minRateIntervalNanos
        (continuityAt context key stream) noted
  collected.2.keepReference maxEvidence collected.1

/-- One turn of the loop of `collect_lane`. -/
def collectStream (context : ClassifierContext) (metric : MetricId) (lane : LaneDimension)
    (declared : List DeclaredSource) (maxEvidence : ℕ) (collected : LaneContext) (entry : StreamKey × StreamState) :
    LaneContext :=
  if entry.1.lane ≠ lane then collected
  else
    match declared.find? fun source => source.source = entry.1.source with
    | none => collected
    | some declaration =>
      match newestAtOrBefore entry.2 context.now context.epoch with
      | none => collected
      | some record =>
        collectRecord context
          (validityFor context.policy (context.policy.document.findRule metric) metric.family (some declaration))
          entry.1 entry.2 maxEvidence record collected

def collectLane (context : ClassifierContext) (link : LinkIdentity) (metric : MetricId) (lane : LaneDimension)
    (declared : List DeclaredSource) (maxEvidence : ℕ) : LaneContext :=
  (context.store.streamsFor link metric).foldl (collectStream context metric lane declared maxEvidence) {}

/-! ## The assessment of a lane -/

def counterIncompleteReason (lane : LaneContext) : ReasonCode :=
  if lane.counterReason ≠ .none then lane.counterReason else .counterBaselineOnly

def confidenceFor (state : QualityState) (distinctSources : ℕ) (age : Int64) (hasAge : Bool) (validity : Int64) :
    ConfidenceLevel :=
  match state with
  | .unknown | .unsupported => .none
  | .stale | .incomplete | .conflicting => .low
  | _ =>
    if 2 ≤ distinctSources then .high
    else if hasAge = false ∨ validity ≤ 0 then .medium
    else if age * 2 ≤ validity then .medium else .low

def bestAuthority (candidates : List Candidate) : UInt64 :=
  candidates.foldl (fun best candidate => if best < candidate.authority then candidate.authority else best) 0

/-- The candidates of the highest authority, in the order of their sources. -/
def winners (candidates : List Candidate) : List Candidate :=
  (candidates.filter fun candidate => candidate.authority = bestAuthority candidates).insertionSort fun a b =>
    ((compare a.source b.source).then (compare a.reference.sequence b.reference.sequence)).isLE

def spreadOf (first : Candidate) (candidates : List Candidate) : Double :=
  let lowest := candidates.foldl (fun lowest candidate => lowest.minimum candidate.value) first.value
  let highest := candidates.foldl (fun highest candidate => highest.maximum candidate.value) first.value
  let spread := highest.sub lowest
  if spread.isFinite then spread else .positiveInfinity

/-- The value is agreed on; the rule of the metric decides. -/
def assessValue (rule : MetricRule) (validity : Int64) (lane : LaneContext) (distinctSources : ℕ) (value : Double)
    (assessment : MetricAssessment) : MetricAssessment :=
  let assessment := { assessment with
    value := some value
    ratePerSecond :=
      if assessment.metric.family = MetricFamily.errorCounter ∨ rule.basis ≠ MetricBasis.gaugeValue then some value
      else assessment.ratePerSecond }
  match rule.classify value with
  | none => { assessment with state := .unknown, confidence := .none }
  | some band =>
    { assessment with
      state := band.state
      rules := assessment.rules ++ [band.id]
      reasons := addReason assessment.reasons .bandMatched
      confidence := confidenceFor band.state distinctSources lane.newestFreshAge lane.hasFreshAge validity }

def assessWinners (rule : Option MetricRule) (validity : Int64) (lane : LaneContext) (first : Candidate)
    (candidates : List Candidate) (assessment : MetricAssessment) : MetricAssessment :=
  let spread := spreadOf first candidates
  let assessment := { assessment with disagreement := some spread }
  let tolerance := (rule.map (·.conflictTolerance)).getD .zero
  if 2 ≤ candidates.length ∧ spread.le tolerance = false then
    { assessment with
      state := .conflicting
      confidence := .low
      sourcesConflicting := UInt32.ofNat candidates.length
      reasons := addReason assessment.reasons .equalAuthorityDisagreement }
  else
    match rule with
    | none =>
      { assessment with
        state := .unknown
        confidence := .none
        reasons := addReason assessment.reasons .noRuleForMetric }
    | some rule =>
      assessValue rule validity lane (candidates.map (·.source)).dedup.length first.value assessment

def assessCandidates (rule : Option MetricRule) (validity : Int64) (lane : LaneContext)
    (assessment : MetricAssessment) : MetricAssessment :=
  let best := bestAuthority lane.candidates
  let assessment := { assessment with
    reasons := lane.candidates.foldl
      (fun reasons candidate =>
        if candidate.authority = best then reasons else addReason reasons .lowerAuthorityIgnored)
      assessment.reasons }
  match winners lane.candidates with
  -- There is always a winner.
  | [] => assessment
  | first :: rest => assessWinners rule validity lane first (first :: rest) assessment

def assessCollected (rule : Option MetricRule) (validity : Int64) (lane : LaneContext)
    (assessment : MetricAssessment) : MetricAssessment :=
  if lane.hasEvidence = false then
    { assessment with
      state := .unknown
      confidence := .none
      reasons := addReason assessment.reasons .noEvidence }
  else if lane.candidates = [] then
    if lane.hasFreshReading = false then
      { assessment with
        state := .stale
        confidence := .low
        reasons := addReason assessment.reasons
          (if lane.recoveredOnly then .recoveredEvidenceOnly else .evidenceExpired) }
    else
      { assessment with
        state := .incomplete
        confidence := .low
        reasons := addReason assessment.reasons (counterIncompleteReason lane) }
  else assessCandidates rule validity lane assessment

def assessLane (context : ClassifierContext) (link : LinkIdentity) (metric : MetricId) (lane : LaneDimension)
    (view : MetricCapabilityView) (query : QualityQuery) : MetricAssessment :=
  let assessment : MetricAssessment :=
    { metric := metric
      lane := lane
      capabilityDeclared := view.supported
      sourcesDeclared := UInt32.ofNat view.declaredBy.length }
  if view.supported = false then
    { assessment with
      state := .unsupported
      confidence := .none
      reasons := addReason assessment.reasons
        (if view.explicitlyUnsupported then .declaredUnsupported else .metricNotDeclared) }
  else
    let rule := context.policy.document.findRule metric
    let collected := collectLane context link metric lane view.declaredBy query.maxEvidencePerMetric.toNat
    assessCollected rule (validityFor context.policy rule metric.family view.declaredBy.head?) collected
      { assessment with
        sourcesWithEvidence := collected.sourcesWithEvidence
        sourcesFresh := collected.sourcesFresh
        evidence := collected.evidence
        intervalRatePerSecond := collected.intervalRate
        reasons := collected.reasons.foldl addReason assessment.reasons }

/-! ## Lanes together -/

def aggregateDimension : LaneDimension := ⟨true, 0⟩

def worstAssessment (severity : SeverityTable) (first : MetricAssessment) (assessments : List MetricAssessment) :
    MetricAssessment :=
  assessments.foldl (fun worst assessment =>
    if severity.of worst.state < severity.of assessment.state then assessment else worst) first

def ConfidenceLevel.lower (a b : ConfidenceLevel) : ConfidenceLevel :=
  if Enumeration.code a < Enumeration.code b then a else b

def aggregateLane (maxEvidence : ℕ) (aggregate assessment : MetricAssessment) : MetricAssessment :=
  let missing : Bool := assessment.state = .unsupported || assessment.state = .unknown
  let reasons := assessment.reasons.foldl addReason aggregate.reasons
  let reasons := if assessment.state = .conflicting then addReason reasons .equalAuthorityDisagreement else reasons
  { aggregate with
    reasons := if missing then addReason reasons .missingLanes else reasons
    sourcesDeclared := max aggregate.sourcesDeclared assessment.sourcesDeclared
    sourcesWithEvidence := aggregate.sourcesWithEvidence + assessment.sourcesWithEvidence
    sourcesFresh := aggregate.sourcesFresh + assessment.sourcesFresh
    sourcesConflicting := aggregate.sourcesConflicting + assessment.sourcesConflicting
    confidence := assessment.confidence.lower aggregate.confidence
    missingLanes := if missing then aggregate.missingLanes ++ [assessment.lane.lane] else aggregate.missingLanes
    evidence := aggregate.evidence ++ assessment.evidence.take (maxEvidence - aggregate.evidence.length) }

/-- An aggregate does not hide a lane that is not measured. -/
def coverLanes (severity : SeverityTable) (aggregate : MetricAssessment) : MetricAssessment :=
  if aggregate.missingLanes = [] then aggregate
  else
    let withMissing := severity.worst aggregate.state .incomplete
    { aggregate with
      state := withMissing
      reasons :=
        if withMissing ≠ aggregate.state then addReason aggregate.reasons .laneCoveragePartial
        else aggregate.reasons }

def aggregateOf (metric : MetricId) (view : MetricCapabilityView) (worst : MetricAssessment) : MetricAssessment where
  metric := metric
  lane := aggregateDimension
  capabilityDeclared := view.supported
  state := worst.state
  confidence := worst.confidence
  value := worst.value
  ratePerSecond := worst.ratePerSecond
  intervalRatePerSecond := worst.intervalRatePerSecond
  rules := worst.rules

def aggregateLanes (context : ClassifierContext) (link : LinkIdentity) (metric : MetricId)
    (view : MetricCapabilityView) (lanes : List UInt32) (query : QualityQuery) : MetricAssessment :=
  match lanes.map fun lane => assessLane context link metric ⟨false, lane⟩ view query with
  | [] => assessLane context link metric aggregateDimension view query
  | first :: rest =>
    let severity := context.policy.document.aggregation.severity
    coverLanes severity ((first :: rest).foldl (aggregateLane query.maxEvidencePerMetric.toNat)
      (aggregateOf metric view (worstAssessment severity first (first :: rest))))

/-! ## The report -/

def sortMetrics (metrics : List MetricId) : List MetricId := metrics.insertionSort fun a b => (compare a b).isLE

/-- With no metric asked for, the declared ones up to the bound, the first of them in any case. -/
def resolveMetrics (query : QualityQuery) (views : List MetricCapabilityView) : List MetricId :=
  sortMetrics
    (if query.metrics ≠ [] then
      (sortMetrics (query.metrics.take query.maxMetrics.toNat)).destutter (· ≠ ·)
    else (views.map (·.metric)).take (max 1 query.maxMetrics.toNat))

def findView (views : List MetricCapabilityView) (metric : MetricId) : Option MetricCapabilityView :=
  views.find? fun view => view.metric = metric

/-- A metric nobody declares may still be denied by the policy. -/
def standaloneView (document : PolicyDocument) (metric : MetricId) : MetricCapabilityView :=
  ⟨metric, [], if metric ∈ document.unsupportedMetrics then [default] else []⟩

def declaredLanes (view : MetricCapabilityView) : UInt32 :=
  view.declaredBy.foldl (fun lanes source => if source.lanesDeclared then max lanes source.laneCount else lanes) 0

def assessMetric (context : ClassifierContext) (query : QualityQuery) (views : List MetricCapabilityView)
    (metric : MetricId) : MetricAssessment :=
  let view := (findView views metric).getD (standaloneView context.policy.document metric)
  match query.lane.filter fun lane => !lane.aggregate with
  | some lane => assessLane context query.link metric lane view query
  | none =>
    let lanes := (List.range (declaredLanes view).toNat).map UInt32.ofNat
    if lanes = [] then assessLane context query.link metric aggregateDimension view query
    else aggregateLanes context query.link metric view lanes query

def emptyReport (context : ClassifierContext) (query : QualityQuery) : LinkQualityReport where
  link := query.link
  linkRegistered := (context.links.links[query.link]?).isSome
  evidencePresent := false
  policy := context.policy.stamp
  epoch := context.epoch
  overall := .unknown
  confidence := .none
  reasons :=
    match context.links.links[query.link]? with
    | none => addReason [] .linkNotRegistered
    | some state => if state.superseded then addReason [] .fencedGeneration else []
  metrics := []
  evidenceConsidered := 0
  evidenceFresh := 0
  evidenceRecovered := 0
  generatedWallNanos := context.now.wallNanos
  generatedSteadyNanos := context.now.steadyNanos
  truncated := false

def unsupportedReport (report : LinkQualityReport) (reason : ReasonCode) : LinkQualityReport :=
  { report with overall := .unsupported, confidence := .none, reasons := addReason report.reasons reason }

def countReference (report : LinkQualityReport) (reference : EvidenceRef) : LinkQualityReport :=
  { report with
    evidenceFresh := if reference.fresh then report.evidenceFresh + 1 else report.evidenceFresh
    evidenceRecovered :=
      if reference.origin = .recovered then report.evidenceRecovered + 1 else report.evidenceRecovered
    evidencePresent := report.evidencePresent || reference.origin = .live }

def countAssessment (report : LinkQualityReport) (assessment : MetricAssessment) : LinkQualityReport :=
  assessment.evidence.foldl countReference
    { report with
      reasons := assessment.reasons.foldl addReason report.reasons
      evidenceConsidered := report.evidenceConsidered + UInt64.ofNat assessment.evidence.length }

/-- The states of the metrics rolled up, and the lowest confidence. -/
def overallOf (severity : SeverityTable) : List MetricAssessment → QualityState × ConfidenceLevel
  | [] => (.unknown, .none)
  | first :: rest =>
    rest.foldl (fun overall assessment =>
      (severity.worst overall.1 assessment.state, assessment.confidence.lower overall.2))
      (first.state, first.confidence)

def finishReport (context : ClassifierContext) (metrics : List MetricAssessment) (report : LinkQualityReport) :
    LinkQualityReport :=
  let counted := metrics.foldl countAssessment { report with metrics := metrics }
  let aggregation := context.policy.document.aggregation
  let overall := overallOf aggregation.severity metrics
  if metrics.any (fun assessment => assessment.state = .conflicting) && aggregation.conflictingDominates then
    { counted with
      overall := .conflicting
      confidence := .low
      reasons := addReason counted.reasons .equalAuthorityDisagreement }
  else { counted with overall := overall.1, confidence := overall.2 }

/-- The roll-up never is over no metric: the list of metrics is not empty. -/
def classifyLink (context : ClassifierContext) (query : QualityQuery) : LinkQualityReport :=
  let report := emptyReport context query
  let views := context.capabilities.viewForLink query.link
  let metrics := resolveMetrics query views
  if views = [] then unsupportedReport report .noSourcesForLink
  else if metrics = [] then unsupportedReport report .metricNotDeclared
  else finishReport context (metrics.map (assessMetric context query views)) report

end Lqf
