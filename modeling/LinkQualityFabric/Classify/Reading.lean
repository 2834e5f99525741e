import LinkQualityFabric.Runtime.Queries
import LinkQualityFabric.Store.Mirror

/-! What a classification reads of the evidence store.

A stream contributes to a lane the record that counts, the validity selected for its source, and for a counter what
the continuity tracker says. Everything else in the store (the numbers of the records, the statistics, the global
history, the streams of other links) is not read, and the wall clock shows in the ages of evidence only. -/
namespace Lqf
open Foundations
set_option autoImplicit false

def EvidenceRecord.unnumbered (record : EvidenceRecord) : EvidenceRecord := { record with ordinal := 0 }

theorem faithful_unnumbered : Faithful EvidenceRecord.unnumbered := ⟨fun _ => rfl, fun _ => rfl⟩

/-! ## Contributions -/

structure Contribution where
  validity : Int64
  record : EvidenceRecord
  continuity : Option ContinuityView
  deriving DecidableEq

/-- The tracker of a counter; it is not asked about a gauge. -/
def continuityOf (context : ClassifierContext) (key : StreamKey) (stream : StreamState) (record : EvidenceRecord) :
    Option ContinuityView :=
  match record.observation.reading with
  | .gauge _ => none
  | .counter _ => some (continuityAt context key stream)

def contribution (context : ClassifierContext) (link : LinkIdentity) (metric : MetricId) (lane : LaneDimension)
    (declared : List DeclaredSource) (key : StreamKey) (stream : StreamState) : Option Contribution :=
  if key.link ≠ link ∨ key.metric ≠ metric ∨ key.lane ≠ lane then none
  else
    match declared.find? fun source => source.source = key.source with
    | none => none
    | some declaration =>
      (newestAtOrBefore stream context.now context.epoch).map fun record =>
        ⟨validityFor context.policy (context.policy.document.findRule metric) metric.family (some declaration),
          record.unnumbered, continuityOf context key stream record⟩

def contributions (context : ClassifierContext) (link : LinkIdentity) (metric : MetricId) (lane : LaneDimension)
    (declared : List DeclaredSource) : List Contribution :=
  context.store.streams.toList.filterMap fun entry => contribution context link metric lane declared entry.1 entry.2

def collect (now : ClockReading) (epoch : UInt64) (minIntervalNanos : Int64) (maxEvidence : ℕ) (lane : LaneContext)
    (contribution : Contribution) : LaneContext :=
  let freshness := recordIsFresh contribution.record contribution.validity now epoch
  let noted := lane.noteRecord contribution.record freshness
  let collected :=
    match contribution.record.observation.reading, contribution.continuity with
    | .gauge gauge, _ => collectGauge contribution.record gauge freshness noted
    | .counter counter, some view =>
      collectCounter contribution.record counter freshness contribution.validity minIntervalNanos view noted
    | .counter _, none => (referenceTo contribution.record freshness, noted)
  collected.2.keepReference maxEvidence collected.1

section Collect
variable (context : ClassifierContext) (link : LinkIdentity) (metric : MetricId) (lane : LaneDimension)
  (declared : List DeclaredSource) (maxEvidence : ℕ)

theorem collectRecord_eq (validity : Int64) (key : StreamKey) (stream : StreamState) (record : EvidenceRecord)
    (collected : LaneContext) : collectRecord context validity key stream maxEvidence record collected =
      collect context.now context.epoch context.policy.document.freshness.minRateIntervalNanos maxEvidence collected
        ⟨validity, record.unnumbered, continuityOf context key stream record⟩ := by
  obtain ⟨observation, received, ordinal, origin⟩ := record
  unfold collectRecord collect continuityOf
  cases hreading : observation.reading <;> simp only [EvidenceRecord.unnumbered, hreading] <;> rfl

theorem collectStream_eq (collected : LaneContext) {entry : StreamKey × StreamState} (hlink : entry.1.link = link)
    (hmetric : entry.1.metric = metric) :
    collectStream context metric lane declared maxEvidence collected entry =
      match contribution context link metric lane declared entry.1 entry.2 with
      | none => collected
      | some contribution =>
        collect context.now context.epoch context.policy.document.freshness.minRateIntervalNanos maxEvidence collected
          contribution := by
  unfold collectStream contribution
  simp only [hlink, hmetric, ne_eq, not_true_eq_false, false_or]
  split
  · rfl
  · cases declared.find? fun source => source.source = entry.1.source with
    | none => rfl
    | some declaration =>
      cases newestAtOrBefore entry.2 context.now context.epoch with
      | none => rfl
      | some record => exact collectRecord_eq ..

theorem collectLane_eq : collectLane context link metric lane declared maxEvidence =
      (contributions context link metric lane declared).foldl
        (collect context.now context.epoch context.policy.document.freshness.minRateIntervalNanos maxEvidence) {} := by
  unfold collectLane contributions EvidenceStore.streamsFor
  generalize context.store.streams.toList = entries
  generalize ({} : LaneContext) = start
  induction entries generalizing start with
  | nil => rfl
  | cons entry rest ih =>
    rw [List.filter_cons, List.filterMap_cons]
    split
    · next hentry =>
      simp only [Bool.and_eq_true, decide_eq_true_eq] at hentry
      rw [List.foldl_cons, ih, collectStream_eq context link metric lane declared maxEvidence start hentry.1 hentry.2]
      cases contribution context link metric lane declared entry.1 entry.2 <;> rfl
    · next hentry =>
      have hnone : contribution context link metric lane declared entry.1 entry.2 = none := by
        unfold contribution
        refine if_pos ?_
        by_contra hboth
        simp only [not_or, not_not] at hboth
        exact hentry (by simp [hboth.1, hboth.2.1])
      rw [hnone]
      exact ih start

end Collect

/-! ## The numbers of the records are not read -/

section Numbers
variable (context : ClassifierContext) (stream : StreamState)

variable (now : ClockReading) (epoch : UInt64)

theorem newestRecent_seen : newestRecent (stream.seen EvidenceRecord.unnumbered) now epoch =
      (newestRecent stream now epoch).map EvidenceRecord.unnumbered := by
  unfold newestRecent StreamState.seen
  rw [← List.map_reverse, List.find?_map]
  rfl

theorem newestAtOrBefore_seen : newestAtOrBefore (stream.seen EvidenceRecord.unnumbered) now epoch =
      (newestAtOrBefore stream now epoch).map EvidenceRecord.unnumbered := by
  have hfed : (stream.seen EvidenceRecord.unnumbered).latestFed = stream.latestFed.map EvidenceRecord.unnumbered := rfl
  unfold newestAtOrBefore
  rw [hfed, newestRecent_seen]
  cases stream.latestFed with
  | none => rfl
  | some fed =>
    have hsame : receivedAfter fed.unnumbered now epoch = receivedAfter fed now epoch := rfl
    by_cases hafter : receivedAfter fed now epoch = true <;> simp [hafter, hsame]

theorem reconstructed_seen (config : CounterContinuityConfig) (now : ClockReading) (epoch : UInt64) :
    reconstructed (stream.seen EvidenceRecord.unnumbered) config now epoch = reconstructed stream config now epoch := by
  unfold reconstructed StreamState.seen
  rw [List.filter_map, List.foldl_map]
  rfl

theorem continuityAt_seen (key : StreamKey) :
    continuityAt context key (stream.seen EvidenceRecord.unnumbered) = continuityAt context key stream := by
  have hreconstructs : reconstructs (stream.seen EvidenceRecord.unnumbered) context.now context.epoch =
      reconstructs stream context.now context.epoch := by
    unfold reconstructs StreamState.seen
    cases stream.latestFed <;> rfl
  unfold continuityAt
  rw [hreconstructs, reconstructed_seen]
  rfl

theorem contribution_seen (link : LinkIdentity) (metric : MetricId) (lane : LaneDimension)
    (declared : List DeclaredSource) (key : StreamKey) :
    contribution context link metric lane declared key (stream.seen EvidenceRecord.unnumbered) =
      contribution context link metric lane declared key stream := by
  unfold contribution
  rw [newestAtOrBefore_seen]
  simp only [Option.map_map, Function.comp_def, continuityOf, continuityAt_seen]
  rfl

end Numbers

/-! ## Classifications that read the same -/

structure ReadsAlike (link : LinkIdentity) (context context' : ClassifierContext) : Prop where
  views : context'.capabilities.viewForLink link = context.capabilities.viewForLink link
  document : context'.policy.document = context.policy.document
  now : context'.now = context.now
  epoch : context'.epoch = context.epoch
  contributions : ∀ (metric : MetricId) (lane : LaneDimension) (declared : List DeclaredSource),
    contributions context' link metric lane declared = contributions context link metric lane declared

section Alike
variable {link : LinkIdentity} {context context' : ClassifierContext}

theorem validityFor_congr {policy policy' : PolicyGenerationRecord} (h : policy'.document = policy.document)
    (rule : Option MetricRule) (family : MetricFamily) (declaration : Option DeclaredSource) :
    validityFor policy' rule family declaration = validityFor policy rule family declaration := by
  unfold validityFor
  rw [h]

theorem contribution_congr (hdocument : context'.policy.document = context.policy.document)
    (hnow : context'.now = context.now) (hepoch : context'.epoch = context.epoch) :
    contribution context' = contribution context := by
  funext link metric lane declared key stream
  unfold contribution continuityOf continuityAt
  rw [hdocument, hnow, hepoch]
  simp only [validityFor_congr hdocument]

theorem ReadsAlike.of_agree (hviews : context'.capabilities.viewForLink link = context.capabilities.viewForLink link)
    (hdocument : context'.policy.document = context.policy.document) (hnow : context'.now = context.now)
    (hepoch : context'.epoch = context.epoch)
    (h : EvidenceStore.Agree EvidenceRecord.unnumbered (· = link) context.store context'.store) :
    ReadsAlike link context context' := by
  refine ⟨hviews, hdocument, hnow, hepoch, fun metric lane declared => ?_⟩
  unfold Lqf.contributions
  rw [contribution_congr hdocument hnow hepoch]
  refine filterMap_toList_eq fun key => ?_
  by_cases hkey : key.link = link
  · have hseen : ∀ found : Option StreamState,
        found.bind (contribution context link metric lane declared key) =
          (found.map (StreamState.seen EvidenceRecord.unnumbered)).bind
            (contribution context link metric lane declared key) := by
      intro found
      cases found with
      | none => rfl
      | some stream => exact (contribution_seen context stream link metric lane declared key).symm
    rw [hseen, hseen (context.store.streams[key]?), h.streams key hkey]
  · have hnone : ∀ found : Option StreamState,
        found.bind (contribution context link metric lane declared key) = none := by
      intro found
      cases found with
      | none => rfl
      | some stream => exact if_pos (.inl hkey)
    rw [hnone, hnone]

theorem ReadsAlike.assessLane (h : ReadsAlike link context context') (metric : MetricId) (lane : LaneDimension)
    (view : MetricCapabilityView) (query : QualityQuery) :
    assessLane context' link metric lane view query = assessLane context link metric lane view query := by
  unfold Lqf.assessLane
  simp only [collectLane_eq, h.contributions, h.now, h.epoch, h.document, validityFor_congr h.document]

theorem ReadsAlike.aggregateLanes (h : ReadsAlike link context context') (metric : MetricId)
    (view : MetricCapabilityView) (lanes : List UInt32) (query : QualityQuery) :
    aggregateLanes context' link metric view lanes query = aggregateLanes context link metric view lanes query := by
  unfold Lqf.aggregateLanes
  simp only [h.assessLane, h.document]

theorem ReadsAlike.assessMetric {query : QualityQuery} (h : ReadsAlike query.link context context')
    (views : List MetricCapabilityView) (metric : MetricId) :
    assessMetric context' query views metric = assessMetric context query views metric := by
  unfold Lqf.assessMetric
  simp only [h.assessLane, h.aggregateLanes, h.document]

end Alike

/-- What a report says of the link: its state, the confidence in it, and the assessments. -/
structure Findings where
  overall : QualityState
  confidence : ConfidenceLevel
  metrics : List MetricAssessment
  deriving DecidableEq, Repr

def LinkQualityReport.findings (report : LinkQualityReport) : Findings :=
  ⟨report.overall, report.confidence, report.metrics⟩

theorem foldl_countReference (references : List EvidenceRef) (report : LinkQualityReport) :
    (references.foldl countReference report).metrics = report.metrics ∧
      (references.foldl countReference report).truncated = report.truncated ∧
      (references.foldl countReference report).evidenceFresh =
        report.evidenceFresh + UInt64.ofNat (references.countP EvidenceRef.fresh) := by
  induction references generalizing report with
  | nil => exact ⟨rfl, rfl, (UInt64.add_zero _).symm⟩
  | cons reference rest ih =>
    obtain ⟨hmetrics, htruncated, hfresh⟩ := ih (countReference report reference)
    refine ⟨hmetrics, htruncated, hfresh.trans ?_⟩
    rw [List.countP_cons, UInt64.ofNat_add, countReference]
    cases reference.fresh
    · exact congrArg _ (UInt64.add_zero _).symm
    · exact (UInt64.add_assoc _ _ _).trans (congrArg _ (UInt64.add_comm _ _))

theorem foldl_countAssessment (assessments : List MetricAssessment) (report : LinkQualityReport) :
    (assessments.foldl countAssessment report).metrics = report.metrics ∧
      (assessments.foldl countAssessment report).truncated = report.truncated ∧
      (assessments.foldl countAssessment report).evidenceFresh = report.evidenceFresh +
        UInt64.ofNat ((assessments.flatMap MetricAssessment.evidence).countP EvidenceRef.fresh) := by
  induction assessments generalizing report with
  | nil => exact ⟨rfl, rfl, (UInt64.add_zero _).symm⟩
  | cons assessment rest ih =>
    obtain ⟨hmetrics, htruncated, hfresh⟩ := ih (countAssessment report assessment)
    obtain ⟨hmetrics', htruncated', hfresh'⟩ := foldl_countReference assessment.evidence { report with
      reasons := assessment.reasons.foldl addReason report.reasons
      evidenceConsidered := report.evidenceConsidered + UInt64.ofNat assessment.evidence.length }
    refine ⟨hmetrics.trans hmetrics', htruncated.trans htruncated', hfresh.trans ?_⟩
    rw [List.flatMap_cons, List.countP_append, UInt64.ofNat_add, ← UInt64.add_assoc]
    exact congrArg (· + _) hfresh'

theorem finishReport_counts (context : ClassifierContext) (metrics : List MetricAssessment) (report : LinkQualityReport) :
    (finishReport context metrics report).metrics = metrics ∧
      (finishReport context metrics report).truncated = report.truncated ∧
      (finishReport context metrics report).evidenceFresh = report.evidenceFresh +
        UInt64.ofNat ((metrics.flatMap MetricAssessment.evidence).countP EvidenceRef.fresh) := by
  have hcounted := foldl_countAssessment metrics { report with metrics := metrics }
  unfold finishReport
  dsimp only
  split <;> exact hcounted

theorem findings_finishReport (context : ClassifierContext) (metrics : List MetricAssessment)
    (report : LinkQualityReport) : (finishReport context metrics report).findings =
      (if metrics.any (fun assessment => assessment.state = .conflicting) &&
          context.policy.document.aggregation.conflictingDominates then ⟨.conflicting, .low, metrics⟩
      else ⟨(overallOf context.policy.document.aggregation.severity metrics).1,
        (overallOf context.policy.document.aggregation.severity metrics).2, metrics⟩ : Findings) := by
  have hcounted := (foldl_countAssessment metrics { report with metrics := metrics }).1
  unfold finishReport LinkQualityReport.findings
  dsimp only
  split <;> simp only [hcounted]

theorem ReadsAlike.findings {query : QualityQuery} {context context' : ClassifierContext}
    (h : ReadsAlike query.link context context') :
    (classifyLink context' query).findings = (classifyLink context query).findings := by
  unfold classifyLink
  simp only [h.views]
  split
  · rfl
  · split
    · rfl
    · have hassess : Lqf.assessMetric context' query (context.capabilities.viewForLink query.link) =
          Lqf.assessMetric context query (context.capabilities.viewForLink query.link) := funext (h.assessMetric _)
      rw [findings_finishReport, findings_finishReport, hassess, h.document]

end Lqf
