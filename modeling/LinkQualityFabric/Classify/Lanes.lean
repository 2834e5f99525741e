import LinkQualityFabric.Classify.Authority
import LinkQualityFabric.Classify.Rollup

/-! The lanes of a metric and their roll-up.

A lane either has one value that its winners agree on, and then the state of the band that contains it, or it has no
number. The aggregate shows the number and the state of the first lane of the highest severity, raised to incomplete if
a lane is not measured, and the lowest confidence of all lanes. State, number and confidence so may come from three
different lanes. -/
namespace Lqf
open Foundations
set_option autoImplicit false

/-! ## The judgement of a lane -/

/-- A state that a threshold gives. -/
def QualityState.Classified (state : QualityState) : Prop :=
  state = .healthy ∨ state = .marginal ∨ state = .degraded ∨ state = .severe

instance (state : QualityState) : Decidable state.Classified := inferInstanceAs (Decidable (_ ∨ _))

def agreedValue (rule : MetricRule) (candidates : List Candidate) : Option Double :=
  match winners candidates with
  | [] => none
  | first :: rest =>
    if 2 ≤ (first :: rest).length ∧ (spreadOf first (first :: rest)).le rule.conflictTolerance = false then none
    else some first.value

/-- The states without a number, each with its confidence. -/
def numberless : List (QualityState × ConfidenceLevel) :=
  [(.unknown, .none), (.unsupported, .none), (.stale, .low), (.incomplete, .low), (.conflicting, .low)]

/-- What an assessment of the candidates of a lane may say. -/
inductive Judged (rule : Option MetricRule) (validity : Int64) (lane : LaneContext) (assessment : MetricAssessment) :
    Prop
  | silent (hagreed : ∀ applied ∈ rule, agreedValue applied lane.candidates = none) (hvalue : assessment.value = none)
      (hrate : assessment.ratePerSecond = none) (hstate : (assessment.state, assessment.confidence) ∈ numberless)
  | unclassified {applied : MetricRule} {value : Double} (hrule : rule = some applied)
      (hagreed : agreedValue applied lane.candidates = some value) (hband : applied.classify value = none)
      (hvalue : assessment.value = some value) (hstate : assessment.state = .unknown)
      (hconfidence : assessment.confidence = .none)
  | classified {applied : MetricRule} {value : Double} {band : ThresholdBand} (hrule : rule = some applied)
      (hagreed : agreedValue applied lane.candidates = some value) (hband : applied.classify value = some band)
      (hvalue : assessment.value = some value) (hstate : assessment.state = band.state)
      (hconfidence : assessment.confidence = confidenceFor band.state
        ((winners lane.candidates).map Candidate.source).dedup.length lane.newestFreshAge lane.hasFreshAge validity)

section Judge
variable {rule : Option MetricRule} {validity : Int64} {lane : LaneContext} {assessment : MetricAssessment}

theorem agreedValue_nil (rule : MetricRule) : agreedValue rule [] = none := rfl

theorem judged_assessCandidates (hcandidates : lane.candidates ≠ []) (hvalue : assessment.value = none)
    (hrate : assessment.ratePerSecond = none) :
    Judged rule validity lane (assessCandidates rule validity lane assessment) := by
  have hwinners := winners_ne_nil hcandidates
  unfold assessCandidates
  dsimp only
  cases hcons : winners lane.candidates with
  | nil => exact absurd hcons hwinners
  | cons first rest =>
    dsimp only
    unfold assessWinners
    dsimp only
    cases rule with
    | none =>
      split
      · exact .silent (fun _ hnone => absurd hnone (Option.not_mem_none _)) hvalue hrate (by simp [numberless])
      · exact .silent (fun _ hnone => absurd hnone (Option.not_mem_none _)) hvalue hrate (by simp [numberless])
    | some applied =>
      split
      · next hspread =>
        refine .silent (fun other hother => ?_) hvalue hrate (by simp [numberless])
        obtain rfl := Option.mem_some_iff.mp hother
        simp only [agreedValue, hcons]
        exact if_pos hspread
      · next hspread =>
        have hagreed : agreedValue applied lane.candidates = some first.value := by
          simp only [agreedValue, hcons]
          exact if_neg hspread
        unfold assessValue
        dsimp only
        cases hband : applied.classify first.value with
        | none => exact .unclassified rfl hagreed hband rfl rfl rfl
        | some band => exact .classified rfl hagreed hband rfl rfl (by rw [hcons])

theorem judged_assessCollected (hvalue : assessment.value = none) (hrate : assessment.ratePerSecond = none)
    (hevidence : lane.hasEvidence = false → lane.candidates = []) :
    Judged rule validity lane (assessCollected rule validity lane assessment) := by
  unfold assessCollected
  split
  · next hnone =>
    exact .silent (fun applied _ => by rw [hevidence hnone, agreedValue_nil]) hvalue hrate (by simp [numberless])
  · split
    · next hcandidates =>
      have hagreed : ∀ applied ∈ rule, agreedValue applied lane.candidates = none := fun applied _ => by
        rw [hcandidates, agreedValue_nil]
      split
      · exact .silent hagreed hvalue hrate (by simp [numberless])
      · exact .silent hagreed hvalue hrate (by simp [numberless])
    · next hcandidates => exact judged_assessCandidates hcandidates hvalue hrate

end Judge

section Lane
variable (context : ClassifierContext) (link : LinkIdentity) (metric : MetricId) (lane : LaneDimension)
  (view : MetricCapabilityView) (query : QualityQuery)

theorem judged_assessLane : Judged (context.policy.document.findRule metric)
      (validityFor context.policy (context.policy.document.findRule metric) metric.family view.declaredBy.head?)
      (laneOf context link metric lane view query) (assessLane context link metric lane view query) := by
  have hcollected := collected_collectLane context link metric lane view.declaredBy query.maxEvidencePerMetric.toNat
  unfold assessLane
  dsimp only
  split
  · next hunsupported =>
    have hcandidates : (laneOf context link metric lane view query).candidates = [] := by
      rw [hcollected.candidates]
      by_contra hsome
      rw [supported_of_candidates context link metric lane view hsome] at hunsupported
      cases hunsupported
    exact .silent (fun applied _ => by rw [hcandidates, agreedValue_nil]) rfl rfl (by simp [numberless])
  · refine judged_assessCollected rfl rfl fun hnone => ?_
    rw [hcollected.hasEvidence, Bool.not_eq_false', List.isEmpty_iff] at hnone
    rw [hcollected.candidates, hnone, List.filterMap_nil]

theorem assessLane_of_none (hsupported : view.supported = true)
    (h : contributions context link metric lane view.declaredBy = []) :
    (assessLane context link metric lane view query).state = .unknown := by
  unfold assessLane assessCollected
  simp only [hsupported, collectLane_eq, h, List.foldl_nil, Bool.true_eq_false, if_false, if_true]

theorem assessLane_of_stale (hsupported : view.supported = true)
    (hsome : contributions context link metric lane view.declaredBy ≠ [])
    (hstale : (contributions context link metric lane view.declaredBy).any
      (Contribution.isFresh context.now context.epoch) = false) :
    (assessLane context link metric lane view query).state = .stale := by
  have hcollected := collected_collectLane context link metric lane view.declaredBy query.maxEvidencePerMetric.toNat
  have hevidence : (laneOf context link metric lane view query).hasEvidence = true := by
    rw [hcollected.hasEvidence]
    simp [hsome]
  have hreading := hcollected.hasFreshReading.trans hstale
  have hcandidates : (laneOf context link metric lane view query).candidates = [] := by
    rw [hcollected.candidates]
    refine List.filterMap_eq_nil_iff.mpr fun contribution hcontribution => ?_
    have hnot := List.any_eq_false.mp hstale contribution hcontribution
    exact candidate?_of_stale (Bool.not_eq_true _ ▸ hnot)
  unfold assessLane assessCollected
  simp only [hsupported, hevidence, hreading, hcandidates, Bool.true_eq_false, if_false, if_true]

end Lane

/-! ## The roll-up of lanes -/

/-- A lane the aggregate lists as missing. -/
def MetricAssessment.unmeasured (assessment : MetricAssessment) : Bool :=
  assessment.state = .unsupported || assessment.state = .unknown

def SeverityTable.rankOf (table : SeverityTable) (assessment : MetricAssessment) : ℕ :=
  (table.of assessment.state).toNat

theorem SeverityTable.worst_incomplete_eq_iff {table : SeverityTable} {state other : QualityState}
    (hother : other ≠ .incomplete) :
    table.worst state .incomplete = other ↔ state = other ∧ table.of .incomplete ≤ table.of other := by
  unfold worst
  split
  · next hle =>
    constructor
    · rintro rfl
      exact ⟨rfl, hle⟩
    · exact fun h => h.1
  · next hnot =>
    constructor
    · exact fun h => absurd h.symm hother
    · rintro ⟨rfl, hle⟩
      exact absurd hle hnot

structure RollsUp (severity : SeverityTable) (maxEvidence : ℕ) (lanes : List MetricAssessment)
    (worst aggregate : MetricAssessment) : Prop where
  first : IsFirstBest severity.rankOf lanes worst
  state : aggregate.state =
    if lanes.any MetricAssessment.unmeasured then severity.worst worst.state .incomplete else worst.state
  value : aggregate.value = worst.value
  ratePerSecond : aggregate.ratePerSecond = worst.ratePerSecond
  disagreement : aggregate.disagreement = none
  confidence : IsBest (fun level => -(Enumeration.code level : ℤ)) (lanes.map MetricAssessment.confidence)
    aggregate.confidence
  missingLanes : aggregate.missingLanes =
    (lanes.filter MetricAssessment.unmeasured).map fun assessment => assessment.lane.lane
  evidence : aggregate.evidence = (lanes.flatMap MetricAssessment.evidence).take maxEvidence

section Fold
variable (maxEvidence : ℕ) (aggregate : MetricAssessment)

variable (lanes : List MetricAssessment)

theorem foldl_aggregateLane_number : (lanes.foldl (aggregateLane maxEvidence) aggregate).state = aggregate.state ∧
      (lanes.foldl (aggregateLane maxEvidence) aggregate).value = aggregate.value ∧
      (lanes.foldl (aggregateLane maxEvidence) aggregate).ratePerSecond = aggregate.ratePerSecond ∧
      (lanes.foldl (aggregateLane maxEvidence) aggregate).disagreement = aggregate.disagreement := by
  induction lanes generalizing aggregate with
  | nil => exact ⟨rfl, rfl, rfl, rfl⟩
  | cons lane rest ih => exact ih _

theorem foldl_aggregateLane_confidence : (lanes.foldl (aggregateLane maxEvidence) aggregate).confidence =
      lanes.foldl (fun kept lane => lane.confidence.lower kept) aggregate.confidence := by
  induction lanes generalizing aggregate with
  | nil => rfl
  | cons lane rest ih => exact ih _

theorem foldl_aggregateLane_missingLanes :
    (lanes.foldl (aggregateLane maxEvidence) aggregate).missingLanes = aggregate.missingLanes ++
      (lanes.filter MetricAssessment.unmeasured).map fun assessment => assessment.lane.lane := by
  induction lanes generalizing aggregate with
  | nil => simp
  | cons lane rest ih =>
    rw [List.foldl_cons, ih, List.filter_cons]
    unfold aggregateLane MetricAssessment.unmeasured
    dsimp only
    split <;> simp

theorem foldl_aggregateLane_evidence (lanes : List MetricAssessment) {passed : List EvidenceRef}
    (h : aggregate.evidence = passed.take maxEvidence) :
    (lanes.foldl (aggregateLane maxEvidence) aggregate).evidence =
      (passed ++ lanes.flatMap MetricAssessment.evidence).take maxEvidence := by
  induction lanes generalizing aggregate passed with
  | nil => rw [List.foldl_nil, List.flatMap_nil, List.append_nil, h]
  | cons lane rest ih =>
    rw [List.foldl_cons, List.flatMap_cons, ← List.append_assoc]
    refine ih _ ?_
    unfold aggregateLane
    dsimp only
    rw [h, List.length_take, List.take_append]
    congr 2
    omega

end Fold

theorem isBest_foldl_lower (first : ConfidenceLevel) (lanes : List MetricAssessment) :
    IsBest (fun level => -(Enumeration.code level : ℤ)) (first :: lanes.map MetricAssessment.confidence)
      (lanes.foldl (fun kept lane => lane.confidence.lower kept) first) := by
  refine foldl_select (fun level : ConfidenceLevel => -(Enumeration.code level : ℤ)) (fun _ => True)
    (fun kept found => found.lower kept) MetricAssessment.confidence (fun kept found _ _ => ?_) lanes trivial
    fun _ _ => trivial
  unfold ConfidenceLevel.lower
  simp only [neg_lt_neg_iff, Nat.cast_lt]

theorem isFirstBest_worstAssessment (severity : SeverityTable) (first : MetricAssessment) (rest : List MetricAssessment) :
    IsFirstBest severity.rankOf (first :: rest) (worstAssessment severity first (first :: rest)) := by
  unfold worstAssessment
  rw [List.foldl_cons, ite_self]
  exact isFirstBest_foldl first rest

theorem rollsUp_aggregate (severity : SeverityTable) (maxEvidence : ℕ) (metric : MetricId) (view : MetricCapabilityView)
    (first : MetricAssessment) (rest : List MetricAssessment) :
    RollsUp severity maxEvidence (first :: rest) (worstAssessment severity first (first :: rest))
      (coverLanes severity ((first :: rest).foldl (aggregateLane maxEvidence)
        (aggregateOf metric view (worstAssessment severity first (first :: rest))))) := by
  have hworst := isFirstBest_worstAssessment severity first rest
  generalize worstAssessment severity first (first :: rest) = worst at hworst ⊢
  generalize first :: rest = lanes at hworst ⊢
  obtain ⟨hstate, hvalue, hrate, hdisagreement⟩ :=
    foldl_aggregateLane_number maxEvidence (aggregateOf metric view worst) lanes
  have hmissing := foldl_aggregateLane_missingLanes maxEvidence (aggregateOf metric view worst) lanes
  have hevidence := @foldl_aggregateLane_evidence maxEvidence (aggregateOf metric view worst) lanes []
    List.take_nil.symm
  have hconfidence := foldl_aggregateLane_confidence maxEvidence (aggregateOf metric view worst) lanes
  have hlowest : IsBest (fun level => -(Enumeration.code level : ℤ)) (lanes.map MetricAssessment.confidence)
      (lanes.foldl (aggregateLane maxEvidence) (aggregateOf metric view worst)).confidence := by
    rw [hconfidence]
    refine (isBest_foldl_lower worst.confidence lanes).perm fun level => ?_
    rw [List.mem_cons, or_iff_right_of_imp]
    rintro rfl
    exact List.mem_map_of_mem hworst.isBest.mem
  generalize lanes.foldl (aggregateLane maxEvidence) (aggregateOf metric view worst) = folded at *
  have hempty : folded.missingLanes = [] ↔ lanes.any MetricAssessment.unmeasured = false := by
    rw [hmissing]
    simp [aggregateOf, List.filter_eq_nil_iff]
  unfold coverLanes
  split
  · next hnone =>
    refine ⟨hworst, ?_, hvalue, hrate, hdisagreement, hlowest, hmissing, hevidence⟩
    rw [hempty.mp hnone]
    exact hstate
  · next hsome =>
    refine ⟨hworst, ?_, hvalue, hrate, hdisagreement, hlowest, hmissing, hevidence⟩
    rw [hempty, Bool.not_eq_false] at hsome
    rw [hsome, if_pos rfl]
    exact congrArg (severity.worst · .incomplete) hstate

/-! ## The lanes behind an assessment of a report -/

def ClassifierContext.severity (context : ClassifierContext) : SeverityTable :=
  context.policy.document.aggregation.severity

section Report
variable (context : ClassifierContext) (query : QualityQuery) (metric : MetricId)

def metricView : MetricCapabilityView :=
  (findView (context.capabilities.viewForLink query.link) metric).getD (standaloneView context.policy.document metric)

/-- The lanes that are rolled up for the query; none if it is about one lane, or if no lanes are declared. -/
def rolledLanes : List UInt32 :=
  match query.lane.filter fun lane => !lane.aggregate with
  | some _ => []
  | none => (List.range (declaredLanes (metricView context query metric)).toNat).map UInt32.ofNat

def laneAssessments : List MetricAssessment :=
  (rolledLanes context query metric).map fun lane =>
    assessLane context query.link metric ⟨false, lane⟩ (metricView context query metric) query

def singleLane : LaneDimension := (query.lane.filter fun lane => !lane.aggregate).getD aggregateDimension

theorem assessMetric_eq : assessMetric context query (context.capabilities.viewForLink query.link) metric =
      if rolledLanes context query metric = [] then
        assessLane context query.link metric (singleLane query) (metricView context query metric) query else
        aggregateLanes context query.link metric (metricView context query metric) (rolledLanes context query metric)
          query := by
  unfold assessMetric rolledLanes singleLane
  cases query.lane.filter fun lane => !lane.aggregate <;> rfl

theorem report_cases {assessment : MetricAssessment} (h : assessment ∈ (classifyLink context query).metrics) :
    (laneAssessments context query assessment.metric = [] ∧
      assessment = assessLane context query.link assessment.metric (singleLane query)
        (metricView context query assessment.metric) query) ∨
    ∃ worst, RollsUp context.severity query.maxEvidencePerMetric.toNat (laneAssessments context query assessment.metric)
      worst assessment := by
  obtain ⟨metric, hmetric⟩ := mem_classifyLink h
  have hsame : assessment.metric = metric := by rw [hmetric, assessMetric_metric]
  rw [hsame]
  rw [assessMetric_eq] at hmetric
  split at hmetric
  · next hnone =>
    refine .inl ⟨?_, hmetric⟩
    rw [laneAssessments, hnone, List.map_nil]
  · next hlanes =>
    refine .inr ?_
    unfold aggregateLanes at hmetric
    split at hmetric
    · next hempty => exact absurd (List.map_eq_nil_iff.mp hempty) hlanes
    · next first rest hcons =>
      rw [laneAssessments, hcons, hmetric]
      exact ⟨_, rollsUp_aggregate ..⟩

theorem supported_of_rolledLanes (h : rolledLanes context query metric ≠ []) :
    (metricView context query metric).supported = true := by
  cases hdeclared : (metricView context query metric).declaredBy with
  | cons declared rest => simp [MetricCapabilityView.supported, hdeclared]
  | nil =>
    refine absurd ?_ h
    unfold rolledLanes
    split
    · rfl
    · rw [declaredLanes, hdeclared]
      rfl

/-- The lane has a fresh record that counts, from a declared source. -/
def laneFresh (lane : UInt32) : Bool :=
  (contributions context query.link metric ⟨false, lane⟩ (metricView context query metric).declaredBy).any
    (Contribution.isFresh context.now context.epoch)

end Report

section Covered
variable {context : ClassifierContext} {query : QualityQuery} {metric : MetricId} {worst assessment : MetricAssessment}

theorem mem_missingLanes (h : RollsUp context.severity query.maxEvidencePerMetric.toNat
      (laneAssessments context query metric) worst assessment) {lane : UInt32} :
    lane ∈ assessment.missingLanes ↔ lane ∈ rolledLanes context query metric ∧
      (assessLane context query.link metric ⟨false, lane⟩ (metricView context query metric) query).unmeasured = true := by
  rw [h.missingLanes, laneAssessments]
  simp only [List.mem_map, List.mem_filter]
  constructor
  · rintro ⟨other, ⟨⟨lane', hlane', rfl⟩, hunmeasured⟩, rfl⟩
    have hlane := (@assessLane_subject context query.link metric ⟨false, lane'⟩ (metricView context query metric) query).2
    rw [hlane]
    exact ⟨hlane', hunmeasured⟩
  · rintro ⟨hlane, hunmeasured⟩
    refine ⟨_, ⟨⟨lane, hlane, rfl⟩, hunmeasured⟩, ?_⟩
    rw [(assessLane_subject _ _).2]

theorem unmeasured_iff_of_not_fresh (hlanes : rolledLanes context query metric ≠ []) {lane : UInt32}
    (hstale : laneFresh context query metric lane = false) :
    (assessLane context query.link metric ⟨false, lane⟩ (metricView context query metric) query).unmeasured = true ↔
      contributions context query.link metric ⟨false, lane⟩ (metricView context query metric).declaredBy = [] := by
  have hsupported := supported_of_rolledLanes context query metric hlanes
  unfold MetricAssessment.unmeasured
  by_cases hnone : contributions context query.link metric ⟨false, lane⟩ (metricView context query metric).declaredBy = []
  · rw [assessLane_of_none context query.link metric _ _ query hsupported hnone]
    simp [hnone]
  · rw [assessLane_of_stale context query.link metric _ _ query hsupported hnone hstale]
    simp [hnone]

/-- **A lane without fresh evidence shows in the aggregate exactly when it has no evidence at all** (a lane with stale
evidence only is not listed), and the table ranks healthy below incomplete or no healthy lane decides. -/
theorem lanes_covered_iff (hassessment : assessment ∈ (classifyLink context query).metrics)
    (hlanes : rolledLanes context query assessment.metric ≠ []) :
    ((∀ lane ∈ rolledLanes context query assessment.metric, laneFresh context query assessment.metric lane = false →
        lane ∈ assessment.missingLanes) ∧
      ((∃ lane ∈ rolledLanes context query assessment.metric, laneFresh context query assessment.metric lane = false) →
        context.severity.of .incomplete ≤
            context.severity.of assessment.state ∧
          assessment.state ≠ .healthy)) ↔
    (∀ lane ∈ rolledLanes context query assessment.metric, laneFresh context query assessment.metric lane = false →
        contributions context query.link assessment.metric ⟨false, lane⟩
          (metricView context query assessment.metric).declaredBy = []) ∧
      ((∃ lane ∈ rolledLanes context query assessment.metric, laneFresh context query assessment.metric lane = false) →
        context.severity.of .healthy <
            context.severity.of .incomplete ∨
          ∀ worst, IsFirstBest context.severity.rankOf
            (laneAssessments context query assessment.metric) worst → worst.state ≠ .healthy) := by
  rcases report_cases context query hassessment with ⟨hnone, -⟩ | ⟨worst, hrolls⟩
  · exact absurd (List.map_eq_nil_iff.mp hnone) hlanes
  generalize assessment.metric = metric at hlanes hrolls ⊢
  have hlisted : (∀ lane ∈ rolledLanes context query metric, laneFresh context query metric lane = false →
      lane ∈ assessment.missingLanes) ↔
      ∀ lane ∈ rolledLanes context query metric, laneFresh context query metric lane = false →
        contributions context query.link metric ⟨false, lane⟩ (metricView context query metric).declaredBy = [] := by
    refine forall_congr' fun lane => forall_congr' fun hlane => forall_congr' fun hstale => ?_
    rw [mem_missingLanes hrolls, unmeasured_iff_of_not_fresh hlanes hstale]
    exact and_iff_right hlane
  rw [hlisted]
  refine and_congr_right fun hcovered => forall_congr' fun hsome => ?_
  have hmissing : (laneAssessments context query metric).any MetricAssessment.unmeasured = true := by
    obtain ⟨lane, hlane, hstale⟩ := hsome
    exact List.any_eq_true.mpr ⟨_, List.mem_map_of_mem hlane,
      (unmeasured_iff_of_not_fresh hlanes hstale).mpr (hcovered lane hlane hstale)⟩
  rw [hrolls.state, if_pos hmissing, and_iff_right (SeverityTable.right_le_worst _ _ _),
    ne_eq, SeverityTable.worst_incomplete_eq_iff (by decide)]
  constructor
  · intro hstate
    by_contra hnot
    simp only [not_or, not_forall, not_not, UInt8.not_lt] at hnot
    obtain ⟨hle, other, hother, hhealthy⟩ := hnot
    rw [hother.unique hrolls.first] at hhealthy
    exact hstate ⟨hhealthy, hle⟩
  · rintro (hlower | hworst) ⟨hhealthy, hle⟩
    · exact absurd hle (UInt8.not_le.mpr hlower)
    · exact hworst worst hrolls.first hhealthy

end Covered

/-! ## Numbers -/

theorem number_shown_iff {rule : Option MetricRule} {validity : Int64} {lane : LaneContext} {judged : MetricAssessment}
    (h : Judged rule validity lane judged) {shown : QualityState} {covered : QualityState → Prop}
    (hshown : shown.Classified ↔ judged.state.Classified ∧ covered judged.state) :
    (¬ shown.Classified → judged.value = none ∧ judged.ratePerSecond = none) ↔
      ∀ applied ∈ rule, ∀ value ∈ agreedValue applied lane.candidates,
        ∃ band ∈ applied.classify value, band.state.Classified ∧ covered band.state := by
  cases h with
  | silent hagreed hvalue hrate hstate =>
    refine iff_of_true (fun _ => ⟨hvalue, hrate⟩) fun applied happlied value hmem => ?_
    rw [hagreed applied happlied] at hmem
    exact absurd hmem (Option.not_mem_none _)
  | @unclassified applied value hrule hagreed hband hvalue hstate _ =>
    subst hrule
    refine iff_of_false (fun hnumber => ?_) fun hfits => ?_
    · have hunknown : ¬ judged.state.Classified := by
        rw [hstate]
        decide
      have hnone := (hnumber fun hclassified => hunknown (hshown.mp hclassified).1).1
      rw [hvalue] at hnone
      cases hnone
    · obtain ⟨band, hmem, -⟩ := hfits applied rfl value hagreed
      rw [hband] at hmem
      cases hmem
  | @classified applied value band hrule hagreed hband hvalue hstate _ =>
    subst hrule
    rw [hstate] at hshown
    constructor
    · intro hnumber other hother number hnumberOf
      obtain rfl := Option.mem_some_iff.mp hother
      rw [hagreed] at hnumberOf
      obtain rfl := Option.mem_some_iff.mp hnumberOf
      refine ⟨band, hband, hshown.mp ?_⟩
      by_contra hnot
      have hnone := (hnumber hnot).1
      rw [hvalue] at hnone
      cases hnone
    · intro hfits hnot
      obtain ⟨found, hfound, hfits⟩ := hfits applied rfl value hagreed
      rw [hband] at hfound
      obtain rfl := Option.mem_some_iff.mp hfound
      exact absurd (hshown.mpr hfits) hnot

section Numbers
variable {context : ClassifierContext} {query : QualityQuery} {assessment : MetricAssessment}

/-- A number that a lane would be classified by is in a band that gives one of the classified states, and the state of
the band is covered. -/
def NumberFits (context : ClassifierContext) (query : QualityQuery) (metric : MetricId) (lane : LaneDimension)
    (covered : QualityState → Prop) : Prop :=
  ∀ rule ∈ context.policy.document.findRule metric,
    ∀ value ∈ agreedValue rule (candidates context query.link metric lane (metricView context query metric).declaredBy),
      ∃ band ∈ rule.classify value, band.state.Classified ∧ covered band.state

theorem number_shown_lane_iff {metric : MetricId} {lane : LaneDimension} {shown : QualityState}
    (covered : QualityState → Prop) {judged : MetricAssessment}
    (hjudged : judged = assessLane context query.link metric lane (metricView context query metric) query)
    (hshown : shown.Classified ↔ judged.state.Classified ∧ covered judged.state) :
    (¬ shown.Classified → judged.value = none ∧ judged.ratePerSecond = none) ↔
      NumberFits context query metric lane covered := by
  subst hjudged
  rw [number_shown_iff (judged_assessLane context query.link metric lane (metricView context query metric) query) hshown,
    NumberFits, collectLane_candidates]

/-- **Only a classified state carries a number exactly when** the number that is shown, of the one lane or of the first
lane of the highest severity, is in a band that names a classified state, and for an aggregate with an unmeasured lane
that state is not outranked by incomplete. -/
theorem number_only_if_classified_iff (hassessment : assessment ∈ (classifyLink context query).metrics) :
    (¬ assessment.state.Classified → assessment.value = none ∧ assessment.ratePerSecond = none) ↔
      (rolledLanes context query assessment.metric = [] →
        NumberFits context query assessment.metric (singleLane query) fun _ => True) ∧
      ∀ worst, IsFirstBest context.severity.rankOf
          (laneAssessments context query assessment.metric) worst →
        NumberFits context query assessment.metric worst.lane fun state =>
          (laneAssessments context query assessment.metric).any MetricAssessment.unmeasured = true →
            context.severity.of .incomplete ≤
              context.severity.of state := by
  rcases report_cases context query hassessment with ⟨hnone, hsingle⟩ | ⟨worst, hrolls⟩
  · generalize assessment.metric = metric at hnone hsingle ⊢
    rw [number_shown_lane_iff (fun _ => True) hsingle (iff_of_eq (and_true _).symm)]
    have hlanes : rolledLanes context query metric = [] := List.map_eq_nil_iff.mp hnone
    refine ⟨fun hfits => ⟨fun _ => hfits, fun worst hworst => ?_⟩, fun h => h.1 hlanes⟩
    rw [hnone] at hworst
    exact absurd hworst.isBest.mem List.not_mem_nil
  · generalize assessment.metric = metric at hrolls ⊢
    obtain ⟨lane, -, hlane⟩ := List.mem_map.mp hrolls.first.isBest.mem
    have hsubject : worst.lane = ⟨false, lane⟩ := by rw [← hlane, (assessLane_subject _ _).2]
    have hlanes : rolledLanes context query metric ≠ [] := by
      intro hnone
      have hmem := hrolls.first.isBest.mem
      rw [laneAssessments, hnone] at hmem
      exact absurd hmem List.not_mem_nil
    have hshown : assessment.state.Classified ↔ worst.state.Classified ∧
        ((laneAssessments context query metric).any MetricAssessment.unmeasured = true →
          context.severity.of .incomplete ≤
            context.severity.of worst.state) := by
      rw [hrolls.state]
      split
      · next hmissing =>
        simp only [hmissing, true_implies]
        unfold QualityState.Classified
        rw [SeverityTable.worst_incomplete_eq_iff (by decide), SeverityTable.worst_incomplete_eq_iff (by decide),
          SeverityTable.worst_incomplete_eq_iff (by decide), SeverityTable.worst_incomplete_eq_iff (by decide)]
        constructor
        · rintro (⟨hstate, hle⟩ | ⟨hstate, hle⟩ | ⟨hstate, hle⟩ | ⟨hstate, hle⟩) <;> simp [hstate, hle]
        · rintro ⟨hstate | hstate | hstate | hstate, hle⟩ <;> simp_all
      · next hmissing => simp [hmissing]
    rw [hrolls.value, hrolls.ratePerSecond, number_shown_lane_iff (fun state =>
      (laneAssessments context query metric).any MetricAssessment.unmeasured = true →
        context.severity.of .incomplete ≤
          context.severity.of state) hlane.symm hshown, ← hsubject]
    refine ⟨fun hfits => ⟨fun hnone => absurd hnone hlanes, fun other hother => ?_⟩, fun h => h.2 worst hrolls.first⟩
    rw [hother.unique hrolls.first]
    exact hfits

end Numbers

/-! ## Confidence -/

/-- No confidence for what is not measured, and a low one for what is not classified. -/
structure FollowsState (state : QualityState) (confidence : ConfidenceLevel) : Prop where
  none : state = .unknown ∨ state = .unsupported → confidence = .none
  low : state = .stale ∨ state = .incomplete ∨ state = .conflicting → confidence = .low

theorem confidenceFor_eq_none_iff (state : QualityState) (sources : ℕ) (age : Int64) (hasAge : Bool) (validity : Int64) :
    confidenceFor state sources age hasAge validity = .none ↔ state = .unsupported ∨ state = .unknown := by
  unfold confidenceFor
  cases state <;> simp <;> split_ifs <;> simp

theorem confidenceFor_of_low {state : QualityState} (sources : ℕ) (age : Int64) (hasAge : Bool) (validity : Int64)
    (h : state = .stale ∨ state = .incomplete ∨ state = .conflicting) :
    confidenceFor state sources age hasAge validity = .low := by
  rcases h with rfl | rfl | rfl <;> rfl

section Confidence

theorem Judged.confidence {rule : Option MetricRule} {validity : Int64} {lane : LaneContext} {judged : MetricAssessment}
    (h : Judged rule validity lane judged) : (judged.confidence = .none ↔ judged.unmeasured = true) ∧
      (judged.state = .stale ∨ judged.state = .incomplete ∨ judged.state = .conflicting → judged.confidence = .low) := by
  unfold MetricAssessment.unmeasured
  cases h with
  | silent _ _ _ hstate =>
    simp only [numberless, List.mem_cons, Prod.mk.injEq, List.not_mem_nil, or_false] at hstate
    rcases hstate with ⟨hstate, hconfidence⟩ | ⟨hstate, hconfidence⟩ | ⟨hstate, hconfidence⟩ | ⟨hstate, hconfidence⟩ |
      ⟨hstate, hconfidence⟩ <;> simp [hstate, hconfidence]
  | unclassified _ _ _ _ hstate hconfidence => simp [hstate, hconfidence]
  | classified _ _ _ _ hstate hconfidence =>
    rw [hstate, hconfidence, confidenceFor_eq_none_iff]
    exact ⟨by simp, fun hlow => confidenceFor_of_low _ _ _ _ hlow⟩

variable {severity : SeverityTable} {maxEvidence : ℕ} {lanes : List MetricAssessment}
  {worst aggregate : MetricAssessment}

theorem RollsUp.confidence_le {lane : MetricAssessment} (h : RollsUp severity maxEvidence lanes worst aggregate)
    (hlane : lane ∈ lanes) : Enumeration.code aggregate.confidence ≤ Enumeration.code lane.confidence := by
  have hupper := h.confidence.upper lane.confidence (List.mem_map_of_mem hlane)
  omega

theorem RollsUp.confidence_eq_none_iff (h : RollsUp severity maxEvidence lanes worst aggregate)
    (hlanes : ∀ lane ∈ lanes, lane.confidence = .none ↔ lane.unmeasured = true) :
    aggregate.confidence = .none ↔ lanes.any MetricAssessment.unmeasured = true := by
  rw [List.any_eq_true]
  constructor
  · intro hnone
    obtain ⟨lane, hlane, hconfidence⟩ := List.mem_map.mp h.confidence.mem
    exact ⟨lane, hlane, (hlanes lane hlane).mp (hconfidence.trans hnone)⟩
  · rintro ⟨lane, hlane, hunmeasured⟩
    have hle := h.confidence_le hlane
    rw [(hlanes lane hlane).mpr hunmeasured] at hle
    cases hconfidence : aggregate.confidence with
    | none => rfl
    | low | medium | high =>
      rw [hconfidence] at hle
      exact absurd hle (by decide)

variable {context : ClassifierContext} {query : QualityQuery} {assessment : MetricAssessment}

/-- **The confidence follows the state exactly when** no lane is unmeasured, or the state the unmeasured lanes leave is
none of the three that ask for a low confidence: the aggregate has the lowest confidence of its lanes, so none at all
as soon as one of them is not measured. -/
theorem confidence_follows_state_iff (hassessment : assessment ∈ (classifyLink context query).metrics) :
    (FollowsState assessment.state assessment.confidence ∧
      ∀ lane ∈ laneAssessments context query assessment.metric,
        lane.confidence ≠ .high → assessment.confidence ≠ .high) ↔
    ((laneAssessments context query assessment.metric).any MetricAssessment.unmeasured = true →
      ∀ worst, IsFirstBest context.severity.rankOf
          (laneAssessments context query assessment.metric) worst →
        context.severity.of .incomplete ≤
            context.severity.of worst.state ∧
          worst.state ≠ .stale ∧ worst.state ≠ .incomplete ∧ worst.state ≠ .conflicting) := by
  have hcases := report_cases context query hassessment
  generalize assessment.metric = metric at hcases ⊢
  have hjudged : ∀ lane ∈ laneAssessments context query metric,
      (lane.confidence = .none ↔ lane.unmeasured = true) ∧
        (lane.state = .stale ∨ lane.state = .incomplete ∨ lane.state = .conflicting → lane.confidence = .low) := by
    intro lane hlane
    obtain ⟨number, -, rfl⟩ := List.mem_map.mp hlane
    exact (judged_assessLane context query.link metric _ _ query).confidence
  rcases hcases with ⟨hnone, hsingle⟩ | ⟨worst, hrolls⟩
  · rw [hnone]
    obtain ⟨hmeasured, hlow⟩ :=
      (judged_assessLane context query.link metric (singleLane query) (metricView context query metric) query).confidence
    rw [← hsingle] at hmeasured hlow
    refine iff_of_true ⟨⟨fun hstate => hmeasured.mpr ?_, hlow⟩, fun _ hmem => absurd hmem List.not_mem_nil⟩
      fun hany => absurd hany (by simp)
    rcases hstate with hstate | hstate <;> simp [MetricAssessment.unmeasured, hstate]
  have hhigh : ∀ lane ∈ laneAssessments context query metric, lane.confidence ≠ .high →
      assessment.confidence ≠ .high := by
    intro lane hlane hlower hhigh
    have hle := hrolls.confidence_le hlane
    rw [hhigh] at hle
    cases hconfidence : lane.confidence with
    | high => exact hlower hconfidence
    | none | low | medium =>
      rw [hconfidence] at hle
      exact absurd hle (by decide)
  have hnone := hrolls.confidence_eq_none_iff fun lane hlane => (hjudged lane hlane).1
  rw [and_iff_left hhigh]
  by_cases hmissing : (laneAssessments context query metric).any MetricAssessment.unmeasured = true
  · rw [hrolls.state, if_pos hmissing, hnone.mpr hmissing]
    constructor
    · intro hfollows _ other hother
      rw [hother.unique hrolls.first]
      unfold SeverityTable.worst at hfollows
      split at hfollows
      · next hle =>
        refine ⟨hle, fun hstate => ?_, fun hstate => ?_, fun hstate => ?_⟩ <;>
          exact absurd (hfollows.low (by simp [hstate])) (by decide)
      · exact absurd (hfollows.low (.inr (.inl rfl))) (by decide)
    · intro hcovered
      obtain ⟨hle, hstale, hincomplete, hconflicting⟩ := hcovered hmissing worst hrolls.first
      rw [SeverityTable.worst, if_pos hle]
      exact ⟨fun _ => rfl, fun hlow => by simp [hstale, hincomplete, hconflicting] at hlow⟩
  · rw [hrolls.state, if_neg hmissing]
    have hworst := hrolls.first.isBest.mem
    refine iff_of_true ⟨fun hstate => absurd (List.any_eq_true.mpr ⟨worst, hworst, ?_⟩) hmissing, fun hlow => ?_⟩
      fun hany => absurd hany hmissing
    · rcases hstate with hstate | hstate <;> simp [MetricAssessment.unmeasured, hstate]
    · have hle := hrolls.confidence_le hworst
      rw [(hjudged worst hworst).2 hlow] at hle
      cases hconfidence : assessment.confidence with
      | none => exact absurd (hnone.mp hconfidence) hmissing
      | low => rfl
      | medium | high =>
        rw [hconfidence] at hle
        exact absurd hle (by decide)

end Confidence

/-! ## A metric with two lanes -/

namespace Fabric

def signalToNoise : MetricId := ⟨.signalRatio, text "snr"⟩

def clearRule : MetricRule := { coolRule with metric := signalToNoise }

def lanePolicy : PolicyDocument :=
  { PolicyDocument.named (text "plain") with rules := [clearRule], requireCapability := false }

def laneConfig : FabricConfig := { gaugeConfig with initialPolicy := some lanePolicy }

def laneMonitor : CapabilityDeclaration :=
  { thermometer with metrics := [⟨signalToNoise, .decibel, .gauge, .unspecified, true, 2, 0⟩] }

def decibels (lane : UInt32) : Observation :=
  { degrees 1 .one with metric := signalToNoise, unit := .decibel, lane := ⟨false, lane⟩ }

def laneStart : Fabric :=
  (((new laneConfig 1 0).initializeFabric {} ⟨none, none⟩).2.respond
    (.declareCapability laneMonitor, { now := instant 1 })).2

def wholeLink : QualityQuery := { link := ⟨text "a", 1⟩ }

def halfMeasured : ClassifierContext :=
  (laneStart.respond (.ingest (decibels 0), { now := instant 2 })).2.contextAt (instant 4)

def halfStale : ClassifierContext :=
  (machine.final laneStart [(.ingest (decibels 1), { now := instant 2 }),
    (.ingest (decibels 0), { now := instant 20000000000 })]).contextAt (instant 20000000004)

/-- A lane with no fresh evidence that the aggregate does not list. -/
theorem stale_lane_unlisted :
    (classifyLink halfStale wholeLink).metrics.map (fun assessment => (assessment.metric, assessment.missingLanes)) =
        [(signalToNoise, [])] ∧
      1 ∈ rolledLanes halfStale wholeLink signalToNoise ∧ laneFresh halfStale wholeLink signalToNoise 1 = false := by
  decide +kernel

theorem unmeasured_lane_listed :
    ∃ assessment ∈ (classifyLink halfMeasured wholeLink).metrics,
      laneFresh halfMeasured wholeLink assessment.metric 1 = false ∧ 1 ∈ assessment.missingLanes ∧
        assessment.state ≠ .healthy := by
  have hsome : ∃ assessment ∈ (classifyLink halfMeasured wholeLink).metrics, assessment.metric = signalToNoise := by
    decide +kernel
  have hlanes : rolledLanes halfMeasured wholeLink signalToNoise = [0, 1] := by decide +kernel
  have hfresh : laneFresh halfMeasured wholeLink signalToNoise 0 = true ∧
      laneFresh halfMeasured wholeLink signalToNoise 1 = false := by decide +kernel
  have hsilent : contributions halfMeasured wholeLink.link signalToNoise ⟨false, 1⟩
      (metricView halfMeasured wholeLink signalToNoise).declaredBy = [] :=
    List.length_eq_zero_iff.mp (by decide +kernel)
  have hranks : halfMeasured.severity.of .healthy < halfMeasured.severity.of .incomplete := by decide +kernel
  generalize halfMeasured = context at hsome hlanes hfresh hsilent hranks ⊢
  obtain ⟨assessment, hassessment, hmetric⟩ := hsome
  have hcovered := lanes_covered_iff hassessment (by rw [hmetric, hlanes]; exact List.cons_ne_nil _ _)
  rw [hmetric, hlanes] at hcovered
  obtain ⟨hlisted, hstate⟩ := hcovered.mpr ⟨by simp [hfresh, hsilent], fun _ => .inl hranks⟩
  have hone : (1 : UInt32) ∈ [0, 1] := by decide
  exact ⟨assessment, hassessment, by rw [hmetric, hfresh.2], hlisted 1 hone hfresh.2, (hstate ⟨1, hone, hfresh.2⟩).2⟩

/-- An aggregate without a verdict shows the number of its measured lane. -/
theorem incomplete_shows_number :
    (classifyLink halfMeasured wholeLink).metrics.map (fun assessment => (assessment.state, assessment.value)) =
      [(.incomplete, some .one)] := by
  decide +kernel

theorem stale_shows_no_number :
    ∃ assessment ∈ (classifyLink halfStale wholeLink).metrics,
      ¬ assessment.state.Classified ∧ assessment.value = none ∧ assessment.ratePerSecond = none := by
  have hsome : ∃ assessment ∈ (classifyLink halfStale wholeLink).metrics,
      assessment.metric = signalToNoise ∧ ¬ assessment.state.Classified := by decide +kernel
  have hlanes : rolledLanes halfStale wholeLink signalToNoise = [0, 1] := by decide +kernel
  have hlower : halfStale.severity.rankOf (assessLane halfStale wholeLink.link signalToNoise ⟨false, 0⟩
      (metricView halfStale wholeLink signalToNoise) wholeLink) <
      halfStale.severity.rankOf (assessLane halfStale wholeLink.link signalToNoise ⟨false, 1⟩
        (metricView halfStale wholeLink signalToNoise) wholeLink) := by decide +kernel
  have hstale : candidates halfStale wholeLink.link signalToNoise ⟨false, 1⟩
      (metricView halfStale wholeLink signalToNoise).declaredBy = [] := List.length_eq_zero_iff.mp (by decide +kernel)
  generalize halfStale = context at hsome hlanes hlower hstale ⊢
  obtain ⟨assessment, hassessment, hmetric, hstate⟩ := hsome
  refine ⟨assessment, hassessment, hstate, (number_only_if_classified_iff hassessment).mpr ?_ hstate⟩
  rw [hmetric, hlanes]
  refine ⟨fun hnone => absurd hnone (List.cons_ne_nil _ _), fun worst hworst rule _ value hvalue => ?_⟩
  have hbest := hworst.isBest
  rw [laneAssessments, hlanes, List.map_cons, List.map_cons, List.map_nil] at hbest
  rcases List.mem_pair.mp hbest.mem with rfl | rfl
  · exact absurd (hbest.upper _ (by simp)) (not_le.mpr hlower)
  · rw [(assessLane_subject _ _).2, hstale] at hvalue
    exact absurd hvalue (by simp [agreedValue, winners])

/-- An incomplete aggregate with no confidence at all, not a low one. -/
theorem incomplete_without_confidence :
    (classifyLink halfMeasured wholeLink).metrics.map (fun assessment => (assessment.state, assessment.confidence)) =
      [(.incomplete, .none)] := by
  decide +kernel

theorem stale_with_low_confidence :
    ∃ assessment ∈ (classifyLink halfStale wholeLink).metrics,
      assessment.state = .stale ∧ assessment.confidence = .low := by
  have hsome : ∃ assessment ∈ (classifyLink halfStale wholeLink).metrics,
      assessment.metric = signalToNoise ∧ assessment.state = .stale := by decide +kernel
  have hmeasured : (laneAssessments halfStale wholeLink signalToNoise).any MetricAssessment.unmeasured = false := by
    decide +kernel
  generalize halfStale = context at hsome hmeasured ⊢
  obtain ⟨assessment, hassessment, hmetric, hstate⟩ := hsome
  have hfollows := (confidence_follows_state_iff hassessment).mpr fun hmissing => by
    rw [hmetric, hmeasured] at hmissing
    exact absurd hmissing Bool.false_ne_true
  exact ⟨assessment, hassessment, hstate, hfollows.1.2 (.inl hstate)⟩

end Fabric

end Lqf
