import LinkQualityFabric.Classify.Backing

/-! What decides a lane.

A lane that has a candidate is decided by its fresh contributions alone, so a record that is not fresh changes nothing. -/
namespace Lqf
open Foundations
open Std (ExtTreeMap)
set_option autoImplicit false

/-! ## The decision about a lane -/

structure Verdict where
  state : QualityState
  value : Option Double
  ratePerSecond : Option Double
  rules : List Text
  disagreement : Option Double
  deriving DecidableEq

structure Decision extends Verdict where
  sourcesFresh : UInt32
  sourcesConflicting : UInt32
  confidence : ConfidenceLevel
  deriving DecidableEq

namespace MetricAssessment

def verdict (assessment : MetricAssessment) : Verdict :=
  ⟨assessment.state, assessment.value, assessment.ratePerSecond, assessment.rules, assessment.disagreement⟩

def decision (assessment : MetricAssessment) : Decision :=
  ⟨assessment.verdict, assessment.sourcesFresh, assessment.sourcesConflicting, assessment.confidence⟩

end MetricAssessment

section Assess
variable {rule : Option MetricRule} {validity : Int64} {lane lane' : LaneContext}
  {assessment assessment' : MetricAssessment}
variable (first : Candidate) (candidates : List Candidate)

section
variable (hmetric : assessment'.metric = assessment.metric)
include hmetric

theorem assessWinners_verdict (h : assessment'.verdict = assessment.verdict) :
    (assessWinners rule validity lane' first candidates assessment').verdict =
      (assessWinners rule validity lane first candidates assessment).verdict := by
  simp only [MetricAssessment.verdict, Verdict.mk.injEq] at h
  obtain ⟨hstate, hvalue, hrate, hrules, hdisagreement⟩ := h
  unfold assessWinners
  dsimp only
  split
  · simp only [MetricAssessment.verdict, hvalue, hrate, hrules]
  · cases rule with
    | none => simp only [MetricAssessment.verdict, hvalue, hrate, hrules]
    | some rule =>
      unfold assessValue
      dsimp only
      rw [hmetric, hrate, hrules]
      cases rule.classify first.value <;> rfl

theorem assessWinners_decision (h : assessment'.decision = assessment.decision)
    (hcount : lane'.freshCount = lane.freshCount) :
    (assessWinners rule validity lane' first candidates assessment').decision =
      (assessWinners rule validity lane first candidates assessment).decision := by
  simp only [MetricAssessment.decision, Decision.mk.injEq] at h
  obtain ⟨hverdict, hfresh, hconflicting, hconfidence⟩ := h
  simp only [LaneContext.freshCount, FreshCount.mk.injEq] at hcount
  obtain ⟨-, hage, hhas⟩ := hcount
  have hsame := @assessWinners_verdict rule validity lane lane' assessment assessment' first candidates hmetric hverdict
  simp only [MetricAssessment.decision, Decision.mk.injEq, hsame, true_and]
  unfold assessWinners
  dsimp only
  split
  · exact ⟨hfresh, rfl, rfl⟩
  · cases rule with
    | none => exact ⟨hfresh, hconflicting, rfl⟩
    | some rule =>
      unfold assessValue
      dsimp only
      rw [hage, hhas]
      cases rule.classify first.value with
      | none => exact ⟨hfresh, hconflicting, rfl⟩
      | some band => exact ⟨hfresh, hconflicting, rfl⟩

theorem assessCandidates_verdict (h : assessment'.verdict = assessment.verdict)
    (hwinners : winners lane'.candidates = winners lane.candidates) :
    (assessCandidates rule validity lane' assessment').verdict =
      (assessCandidates rule validity lane assessment).verdict := by
  unfold assessCandidates
  dsimp only
  rw [hwinners]
  cases winners lane.candidates with
  | nil => exact h
  | cons first rest => exact assessWinners_verdict first _ hmetric h

theorem assessCandidates_decision (h : assessment'.decision = assessment.decision)
    (hwinners : winners lane'.candidates = winners lane.candidates) (hcount : lane'.freshCount = lane.freshCount) :
    (assessCandidates rule validity lane' assessment').decision =
      (assessCandidates rule validity lane assessment).decision := by
  unfold assessCandidates
  dsimp only
  rw [hwinners]
  cases winners lane.candidates with
  | nil => exact h
  | cons first rest => exact assessWinners_decision first _ hmetric h hcount

end

end Assess

section Lanes
variable (context : ClassifierContext) (link : LinkIdentity) (metric : MetricId) (lane : LaneDimension)
  (view : MetricCapabilityView) (query : QualityQuery)

def assessmentOf (collected : LaneContext) : MetricAssessment where
  metric := metric
  lane := lane
  capabilityDeclared := true
  sourcesDeclared := UInt32.ofNat view.declaredBy.length
  sourcesWithEvidence := collected.sourcesWithEvidence
  sourcesFresh := collected.sourcesFresh
  evidence := collected.evidence
  intervalRatePerSecond := collected.intervalRate
  reasons := collected.reasons.foldl addReason []

theorem assessLane_of_candidates (h : candidates context link metric lane view.declaredBy ≠ []) :
    assessLane context link metric lane view query = assessCandidates (context.policy.document.findRule metric)
        (validityFor context.policy (context.policy.document.findRule metric) metric.family view.declaredBy.head?)
        (laneOf context link metric lane view query)
        (assessmentOf metric lane view (laneOf context link metric lane view query)) := by
  have hsupported := supported_of_candidates context link metric lane view h
  have hcollected := collected_collectLane context link metric lane view.declaredBy query.maxEvidencePerMetric.toNat
  have hevidence : (laneOf context link metric lane view query).hasEvidence = true := by
    rw [hcollected.hasEvidence]
    by_contra hnone
    rw [Bool.not_eq_true, Bool.not_eq_false', List.isEmpty_iff] at hnone
    rw [candidates, hnone] at h
    exact h rfl
  have hcandidates : (laneOf context link metric lane view query).candidates ≠ [] := by
    rw [hcollected.candidates]
    exact h
  unfold assessLane assessCollected
  simp only [hsupported, hevidence, hcandidates, Bool.true_eq_false, if_false]
  rfl

end Lanes

/-! ## Two stores -/

def selectsFresh (context : ClassifierContext) (link : LinkIdentity) (metric : MetricId) (lane : LaneDimension)
    (declared : List DeclaredSource) (key : StreamKey) (stream : StreamState) : Bool :=
  (contribution context link metric lane declared key stream).any fun contribution =>
    contribution.isFresh context.now context.epoch

theorem contributions_fresh (context : ClassifierContext) (link : LinkIdentity) (metric : MetricId)
    (lane : LaneDimension) (declared : List DeclaredSource) :
    (contributions context link metric lane declared).filter (Contribution.isFresh context.now context.epoch) =
      context.store.streams.toList.filterMap fun entry =>
        (contribution context link metric lane declared entry.1 entry.2).filter
          (Contribution.isFresh context.now context.epoch) := by
  unfold contributions
  rw [List.filter_filterMap]

section TwoStores
variable {context context' : ClassifierContext} {link : LinkIdentity} {metric : MetricId} {lane : LaneDimension}
  {view : MetricCapabilityView}

/-- **Expired and recovered evidence decides nothing.** Where the streams with a fresh record are the same and one of
them has a candidate, so is the decision about the lane. -/
theorem decision_from_fresh (query : QualityQuery) (hnow : context'.now = context.now)
    (hepoch : context'.epoch = context.epoch) (hpolicy : context'.policy = context.policy)
    (hstreams : ∀ key : StreamKey,
      (context'.store.streams[key]?).filter (selectsFresh context link metric lane view.declaredBy key) =
        (context.store.streams[key]?).filter (selectsFresh context link metric lane view.declaredBy key))
    (hcandidates :
      (collectLane context link metric lane view.declaredBy query.maxEvidencePerMetric.toNat).candidates ≠ []) :
    (assessLane context' link metric lane view query).decision =
      (assessLane context link metric lane view query).decision := by
  have hdocument : context'.policy.document = context.policy.document := by rw [hpolicy]
  have hfresh : (contributions context' link metric lane view.declaredBy).filter
        (Contribution.isFresh context.now context.epoch) =
      (contributions context link metric lane view.declaredBy).filter
        (Contribution.isFresh context.now context.epoch) := by
    have hfilter : ∀ (key : StreamKey) (found : Option StreamState),
        (found.bind fun stream => (contribution context link metric lane view.declaredBy key stream).filter
            (Contribution.isFresh context.now context.epoch)) =
          (found.filter (selectsFresh context link metric lane view.declaredBy key)).bind
            (contribution context link metric lane view.declaredBy key) := by
      intro key found
      cases found with
      | none => rfl
      | some stream =>
        simp only [Option.bind_some, Option.filter_some]
        cases hsome : contribution context link metric lane view.declaredBy key stream with
        | none => split <;> simp [hsome]
        | some found =>
          by_cases hfound : found.isFresh context.now context.epoch = true <;> simp [selectsFresh, hsome, hfound]
    have hkeys : ∀ key : StreamKey,
        ((context'.store.streams[key]?).bind fun stream =>
            (contribution context link metric lane view.declaredBy key stream).filter
              (Contribution.isFresh context.now context.epoch)) =
          (context.store.streams[key]?).bind fun stream =>
            (contribution context link metric lane view.declaredBy key stream).filter
              (Contribution.isFresh context.now context.epoch) := by
      intro key
      rw [hfilter, hfilter, hstreams key]
    have hlist := filterMap_toList_eq hkeys
    rw [contributions_fresh context, ← hlist, ← hnow, ← hepoch, contributions_fresh context',
      contribution_congr hdocument hnow hepoch]
  have hsame : candidates context' link metric lane view.declaredBy =
      candidates context link metric lane view.declaredBy := by
    unfold candidates
    rw [hnow, hepoch, hpolicy, ← filterMap_fresh, hfresh, filterMap_fresh]
  rw [collectLane_candidates] at hcandidates
  rw [assessLane_of_candidates context link metric lane view query hcandidates,
    assessLane_of_candidates context' link metric lane view query (hsame ▸ hcandidates), hpolicy]
  have hcount : (collectLane context' link metric lane view.declaredBy query.maxEvidencePerMetric.toNat).freshCount =
      (collectLane context link metric lane view.declaredBy query.maxEvidencePerMetric.toNat).freshCount := by
    rw [(collected_collectLane ..).freshCount, (collected_collectLane ..).freshCount, hnow, hepoch, ← noteAll_fresh,
      hfresh, noteAll_fresh]
  refine assessCandidates_decision (by simp only [assessmentOf]) ?_ ?_ hcount
  · have hsources := congrArg FreshCount.sources hcount
    simp only [MetricAssessment.decision, MetricAssessment.verdict, assessmentOf, Decision.mk.injEq, and_true, true_and]
    exact hsources
  · rw [collectLane_candidates, collectLane_candidates, hsame]

end TwoStores

/-! A second thermometer whose evidence is recovered. -/

namespace Fabric

def twoThermometers : MetricCapabilityView where
  metric := temperature
  declaredBy := [{ (default : DeclaredSource) with source := ⟨text "s", 1⟩ },
    { (default : DeclaredSource) with source := ⟨text "t", 1⟩ }]

def degreesBySecond (authority : UInt64) (value : Double) : Observation :=
  { degrees 1 value with source := ⟨text "t", 1⟩, authority := authority }

theorem recovered_decides_nothing :
    (assessLane { measuredFabric.contextAt (instant 3) with
          store := (measuredFabric.evidence.append (degreesBySecond 9 .zero) ⟨0, 0, 1⟩ 1 .recovered .defaults).2 }
        ⟨text "a", 1⟩ temperature ⟨true, 0⟩ twoThermometers { link := ⟨text "a", 1⟩ }).decision =
      (assessLane (measuredFabric.contextAt (instant 3)) ⟨text "a", 1⟩ temperature ⟨true, 0⟩ twoThermometers
        { link := ⟨text "a", 1⟩ }).decision := by
  have hadmits : measuredFabric.evidence.Admits (degreesBySecond 9 .zero).streamKey := .inr (by decide +kernel)
  have hcandidates : (collectLane (measuredFabric.contextAt (instant 3)) ⟨text "a", 1⟩ temperature ⟨true, 0⟩
      twoThermometers.declaredBy 8).candidates ≠ [] := by decide +kernel
  have hstale : (some ((measuredFabric.evidence.streamAt (degreesBySecond 9 .zero).streamKey).append
        measuredFabric.evidence.limits ⟨degreesBySecond 9 .zero, ⟨0, 0, 1⟩, 1, .recovered⟩ .defaults).2).filter
        (selectsFresh (measuredFabric.contextAt (instant 3)) ⟨text "a", 1⟩ temperature ⟨true, 0⟩
          twoThermometers.declaredBy (degreesBySecond 9 .zero).streamKey) = none := by decide +kernel
  have habsent : (measuredFabric.evidence.streams[(degreesBySecond 9 .zero).streamKey]?).filter
        (selectsFresh (measuredFabric.contextAt (instant 3)) ⟨text "a", 1⟩ temperature ⟨true, 0⟩
          twoThermometers.declaredBy (degreesBySecond 9 .zero).streamKey) = none := by decide +kernel
  generalize measuredFabric = fabric at hadmits hcandidates hstale habsent ⊢
  refine decision_from_fresh { link := ⟨text "a", 1⟩ } rfl rfl rfl (fun key => ?_) hcandidates
  dsimp only
  rw [(fabric.evidence.append_of_admits (degreesBySecond 9 .zero) ⟨0, 0, 1⟩ 1 .recovered .defaults hadmits).2,
    ExtTreeMap.getElem?_insert]
  split
  · next hkey =>
    have hsame : (degreesBySecond 9 .zero).streamKey = key := Std.LawfulEqCmp.eq_of_compare hkey
    rw [← hsame]
    exact hstale.trans habsent.symm
  · rfl

end Fabric

end Lqf
