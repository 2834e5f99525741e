import LinkQualityFabric.Classify.Backing

/-! The roll-up of the metrics of a link.

A report has one assessment for each metric that is left behind the cut to the bound of the query, and its state is
the worst of them. Nothing in the report tells that something was cut. -/
namespace Lqf
set_option autoImplicit false

/-! ## The metrics of a report -/

/-- The metrics a query is about, as they are listed before the cut. -/
def requestedMetrics (query : QualityQuery) (views : List MetricCapabilityView) : List MetricId :=
  if query.metrics ≠ [] then query.metrics else views.map MetricCapabilityView.metric

theorem sortMetrics_pairwise (metrics : List MetricId) :
    (sortMetrics metrics).Pairwise fun a b => (compare a b).isLE = true := by
  have htotal : Std.Total fun a b : MetricId => (compare a b).isLE = true :=
    ⟨fun a b => by
      rcases hcompare : compare a b with _ | _ | _
      · exact .inl rfl
      · exact .inl rfl
      · exact .inr (by rw [Std.OrientedOrd.eq_swap, hcompare]; rfl)⟩
  have htrans : IsTrans MetricId fun a b : MetricId => (compare a b).isLE = true :=
    ⟨fun _ _ _ => Std.TransOrd.isLE_trans⟩
  exact List.pairwise_insertionSort _ metrics

theorem destutter_sortMetrics (metrics : List MetricId) :
    (sortMetrics metrics).destutter (· ≠ ·) = (sortMetrics metrics).dedup := by
  have hantisymm : Std.Antisymm fun a b : MetricId => (compare a b).isLE = true :=
    ⟨fun a b hab hba => by
      rcases hcompare : compare a b with _ | _ | _
      · rw [Std.OrientedOrd.eq_swap, hcompare] at hba
        cases hba
      · exact Std.LawfulEqOrd.eq_of_compare hcompare
      · rw [hcompare] at hab
        cases hab⟩
  exact (sortMetrics_pairwise metrics).destutter_eq_dedup

section Resolve
variable {query : QualityQuery} {views : List MetricCapabilityView}

theorem mem_resolveMetrics (hmax : 1 ≤ query.maxMetrics) {metric : MetricId} : metric ∈ resolveMetrics query views ↔
      metric ∈ (requestedMetrics query views).take query.maxMetrics.toNat := by
  have hpositive : max 1 query.maxMetrics.toNat = query.maxMetrics.toNat := by
    rw [UInt64.le_iff_toNat_le] at hmax
    exact max_eq_right hmax
  unfold resolveMetrics requestedMetrics sortMetrics
  rw [List.mem_insertionSort]
  split
  · have hsorted := destutter_sortMetrics (query.metrics.take query.maxMetrics.toNat)
    unfold sortMetrics at hsorted
    rw [hsorted, List.mem_dedup, List.mem_insertionSort]
  · rw [hpositive]

theorem resolveMetrics_nodup (hviews : (views.map MetricCapabilityView.metric).Nodup) :
    (resolveMetrics query views).Nodup := by
  unfold resolveMetrics sortMetrics
  rw [(List.perm_insertionSort _ _).nodup_iff]
  split
  · have hsorted := destutter_sortMetrics (query.metrics.take query.maxMetrics.toNat)
    unfold sortMetrics at hsorted
    rw [hsorted]
    exact List.nodup_dedup _
  · exact hviews.sublist (List.take_sublist _ _)

end Resolve

/-! ## The roll-up -/

theorem assessMetric_metric (context : ClassifierContext) (query : QualityQuery) (views : List MetricCapabilityView)
    (metric : MetricId) : (assessMetric context query views metric).metric = metric := by
  have hlane : ∀ (lane : LaneDimension) (view : MetricCapabilityView),
      (assessLane context query.link metric lane view query).metric = metric := fun lane view =>
    (assessLane_subject view query).1
  unfold assessMetric
  dsimp only
  split
  · exact hlane _ _
  · split
    · exact hlane _ _
    · unfold aggregateLanes
      split
      · exact hlane _ _
      · exact (coverLanes_rules _ _).2.1.trans (foldl_aggregateLane_rules _ _ _).2.1

namespace SeverityTable

variable (table : SeverityTable) (lhs rhs : QualityState)

theorem left_le_worst : table.of lhs ≤ table.of (table.worst lhs rhs) := by
  unfold worst
  split
  · exact UInt8.le_refl _
  · next h => exact UInt8.le_of_lt (UInt8.not_le.mp h)

theorem right_le_worst : table.of rhs ≤ table.of (table.worst lhs rhs) := by
  unfold worst
  split
  · next h => exact h
  · exact UInt8.le_refl _

end SeverityTable

theorem le_overallOf (severity : SeverityTable) {assessments : List MetricAssessment} {assessment : MetricAssessment}
    (h : assessment ∈ assessments) : severity.of assessment.state ≤ severity.of (overallOf severity assessments).1 := by
  have hfold : ∀ (rest : List MetricAssessment) (overall : QualityState × ConfidenceLevel),
      severity.of overall.1 ≤ severity.of (rest.foldl (fun overall assessment =>
          (severity.worst overall.1 assessment.state, assessment.confidence.lower overall.2)) overall).1 ∧
        ∀ assessment ∈ rest, severity.of assessment.state ≤ severity.of (rest.foldl (fun overall assessment =>
          (severity.worst overall.1 assessment.state, assessment.confidence.lower overall.2)) overall).1 := by
    intro rest
    induction rest with
    | nil => exact fun overall => ⟨UInt8.le_refl _, fun _ hmem => absurd hmem List.not_mem_nil⟩
    | cons other rest ih =>
      intro overall
      obtain ⟨hoverall, hrest⟩ := ih (severity.worst overall.1 other.state, other.confidence.lower overall.2)
      refine ⟨UInt8.le_trans (severity.left_le_worst _ _) hoverall, fun assessment hmem => ?_⟩
      rcases List.mem_cons.mp hmem with rfl | hlater
      · exact UInt8.le_trans (severity.right_le_worst _ _) hoverall
      · exact hrest assessment hlater
  cases assessments with
  | nil => exact absurd h List.not_mem_nil
  | cons first rest =>
    obtain ⟨hfirst, hrest⟩ := hfold rest (first.state, first.confidence)
    rcases List.mem_cons.mp h with rfl | hlater
    · exact hfirst
    · exact hrest assessment hlater

section Report
variable {context : ClassifierContext} {query : QualityQuery}

theorem finishReport_worst (report : LinkQualityReport) {metrics : List MetricAssessment} {assessment : MetricAssessment}
    (h : assessment ∈ metrics) : context.policy.document.aggregation.severity.of assessment.state ≤
        context.policy.document.aggregation.severity.of (finishReport context metrics report).overall ∨
      (finishReport context metrics report).overall = .conflicting ∧
        context.policy.document.aggregation.conflictingDominates = true ∧
        ∃ conflicting ∈ metrics, conflicting.state = .conflicting := by
  have hoverall := congrArg Findings.overall (findings_finishReport context metrics report)
  change (finishReport context metrics report).overall = _ at hoverall
  rw [hoverall]
  split
  · next hdominates =>
    simp only [Bool.and_eq_true, List.any_eq_true, decide_eq_true_eq] at hdominates
    exact .inr ⟨rfl, hdominates.2, hdominates.1⟩
  · exact .inl (le_overallOf _ h)

theorem classifyLink_truncated (context : ClassifierContext) (query : QualityQuery) :
    (classifyLink context query).truncated = false := by
  unfold classifyLink
  dsimp only
  split
  · rfl
  · split
    · rfl
    · exact (finishReport_counts ..).2.1

theorem findings_classifyLink (hviews : context.capabilities.viewForLink query.link ≠ [])
    (hmetrics : resolveMetrics query (context.capabilities.viewForLink query.link) ≠ []) :
    (classifyLink context query).findings =
      (finishReport context ((resolveMetrics query (context.capabilities.viewForLink query.link)).map
        (assessMetric context query (context.capabilities.viewForLink query.link)))
        (emptyReport context query)).findings := by
  unfold classifyLink
  dsimp only
  rw [if_neg hviews, if_neg hmetrics]

/-- Every metric the query is about has one assessment, and none of them is worse than the link, unless a conflict
dominates. -/
structure Complete (context : ClassifierContext) (query : QualityQuery) (report : LinkQualityReport) : Prop where
  assessed : ∀ metric ∈ requestedMetrics query (context.capabilities.viewForLink query.link),
    report.metrics.countP (fun assessment => assessment.metric = metric) = 1
  worst : ∀ assessment ∈ report.metrics,
    assessment.metric ∈ requestedMetrics query (context.capabilities.viewForLink query.link) →
      context.policy.document.aggregation.severity.of assessment.state ≤
          context.policy.document.aggregation.severity.of report.overall ∨
        report.overall = .conflicting ∧ context.policy.document.aggregation.conflictingDominates = true ∧
          ∃ conflicting ∈ report.metrics, conflicting.state = .conflicting

theorem countP_assessments {metrics : List MetricId} (hnodup : metrics.Nodup) (views : List MetricCapabilityView)
    (metric : MetricId) :
    (metrics.map (assessMetric context query views)).countP (fun assessment => assessment.metric = metric) =
      if metric ∈ metrics then 1 else 0 := by
  rw [List.countP_map]
  have hsame : (fun assessment : MetricAssessment => decide (assessment.metric = metric)) ∘
      assessMetric context query views = fun other => other == metric := by
    funext other
    simp only [Function.comp_apply, assessMetric_metric, beq_eq_decide]
  rw [hsame]
  exact hnodup.count

/-- **A report covers what was asked for exactly when the cut leaves every metric.** It is the first `maxMetrics` of
the request, or of the declared metrics, that are assessed. -/
theorem complete_iff (hmax : 1 ≤ query.maxMetrics) (hviews : context.capabilities.viewForLink query.link ≠ []) :
    ((classifyLink context query).truncated = false → Complete context query (classifyLink context query)) ↔
      ∀ metric ∈ requestedMetrics query (context.capabilities.viewForLink query.link),
        metric ∈ (requestedMetrics query (context.capabilities.viewForLink query.link)).take query.maxMetrics.toNat := by
  have hrequested : requestedMetrics query (context.capabilities.viewForLink query.link) ≠ [] := by
    unfold requestedMetrics
    split
    · next h => exact h
    · rw [ne_eq, List.map_eq_nil_iff]
      exact hviews
  have hnodup : (resolveMetrics query (context.capabilities.viewForLink query.link)).Nodup :=
    resolveMetrics_nodup (CapabilityRegistry.viewForLink_nodup context.capabilities query.link)
  have hleft : resolveMetrics query (context.capabilities.viewForLink query.link) ≠ [] := by
    obtain ⟨first, rest, hfirst⟩ := List.exists_cons_of_ne_nil hrequested
    refine List.ne_nil_of_mem ((@mem_resolveMetrics query _ hmax first).mpr ?_)
    rw [UInt64.le_iff_toNat_le] at hmax
    obtain ⟨bound, hbound⟩ := Nat.exists_eq_add_of_le' hmax
    rw [hbound, hfirst]
    exact List.mem_cons_self
  have hfindings := findings_classifyLink hviews hleft
  have hmetrics : (classifyLink context query).metrics =
      (resolveMetrics query (context.capabilities.viewForLink query.link)).map
        (assessMetric context query (context.capabilities.viewForLink query.link)) :=
    (congrArg Findings.metrics hfindings).trans (finishReport_counts ..).1
  have hcount : ∀ metric, (classifyLink context query).metrics.countP (fun assessment => assessment.metric = metric) =
      if metric ∈ (requestedMetrics query (context.capabilities.viewForLink query.link)).take query.maxMetrics.toNat
        then 1 else 0 := by
    intro metric
    rw [hmetrics, countP_assessments hnodup]
    simp only [mem_resolveMetrics hmax]
  constructor
  · intro h metric hmetric
    by_contra hcut
    have hone := (h (classifyLink_truncated context query)).assessed metric hmetric
    rw [hcount, if_neg hcut] at hone
    cases hone
  · intro h _
    refine ⟨fun metric hmetric => ?_, fun assessment hassessment _ => ?_⟩
    · rw [hcount, if_pos (h metric hmetric)]
    · have hoverall := congrArg Findings.overall hfindings
      change (classifyLink context query).overall = (finishReport context _ _).overall at hoverall
      rw [hmetrics] at hassessment ⊢
      rw [hoverall]
      exact finishReport_worst _ hassessment

end Report

/-! ## A second metric behind the cut -/

namespace Fabric

def biasCurrent : MetricId := ⟨.bias, text "bias.current"⟩

def burntRule : MetricRule :=
  { coolRule with metric := biasCurrent, bands := [⟨text "burnt", .negativeInfinity, none, .severe, []⟩] }

def modulePolicy : PolicyDocument :=
  { PolicyDocument.named (text "plain") with rules := [coolRule, burntRule], requireCapability := false }

def moduleConfig : FabricConfig := { gaugeConfig with initialPolicy := some modulePolicy }

def moduleMonitor : CapabilityDeclaration :=
  { thermometer with metrics := thermometer.metrics ++
      [⟨biasCurrent, .microAmpere, .gauge, .unspecified, false, 0, 0⟩] }

def microAmperes : Observation := { degrees 1 .one with metric := biasCurrent, unit := .microAmpere }

def moduleFabric : Fabric :=
  machine.final ((new moduleConfig 1 0).initializeFabric {} ⟨none, none⟩).2
    [(.declareCapability moduleMonitor, { now := instant 1 }), (.ingest (degrees 1 .one), { now := instant 2 }),
      (.ingest microAmperes, { now := instant 3 })]

/-- Of a link with a severe metric, a report with room for the other metric only. -/
theorem cut_hides_severe :
    (classifyLink (moduleFabric.contextAt (instant 4)) { link := ⟨text "a", 1⟩ }).overall = .severe ∧
      (classifyLink (moduleFabric.contextAt (instant 4)) { link := ⟨text "a", 1⟩, maxMetrics := 1 }).overall = .healthy ∧
      (classifyLink (moduleFabric.contextAt (instant 4)) { link := ⟨text "a", 1⟩, maxMetrics := 1 }).truncated = false ∧
      ¬ Complete (moduleFabric.contextAt (instant 4)) { link := ⟨text "a", 1⟩, maxMetrics := 1 }
        (classifyLink (moduleFabric.contextAt (instant 4)) { link := ⟨text "a", 1⟩, maxMetrics := 1 }) := by
  refine ⟨by decide +kernel, by decide +kernel, by decide +kernel, fun hcomplete => ?_⟩
  have hrequested : biasCurrent ∈ requestedMetrics { link := ⟨text "a", 1⟩, maxMetrics := 1 }
      ((moduleFabric.contextAt (instant 4)).capabilities.viewForLink ⟨text "a", 1⟩) := by decide +kernel
  have hnone : (classifyLink (moduleFabric.contextAt (instant 4))
      { link := ⟨text "a", 1⟩, maxMetrics := 1 }).metrics.countP
      (fun assessment => assessment.metric = biasCurrent) = 0 := by decide +kernel
  have hone := hcomplete.assessed biasCurrent hrequested
  rw [hnone] at hone
  cases hone

theorem both_metrics_assessed :
    Complete (moduleFabric.contextAt (instant 4)) { link := ⟨text "a", 1⟩, maxMetrics := 2 }
      (classifyLink (moduleFabric.contextAt (instant 4)) { link := ⟨text "a", 1⟩, maxMetrics := 2 }) := by
  have hviews : (moduleFabric.contextAt (instant 4)).capabilities.viewForLink ⟨text "a", 1⟩ ≠ [] := by decide +kernel
  have hall : ∀ metric ∈ requestedMetrics { link := ⟨text "a", 1⟩, maxMetrics := 2 }
      ((moduleFabric.contextAt (instant 4)).capabilities.viewForLink ⟨text "a", 1⟩),
      metric ∈ (requestedMetrics { link := ⟨text "a", 1⟩, maxMetrics := 2 }
        ((moduleFabric.contextAt (instant 4)).capabilities.viewForLink ⟨text "a", 1⟩)).take 2 := by decide +kernel
  generalize moduleFabric.contextAt (instant 4) = context at hviews hall ⊢
  exact (complete_iff (by decide) hviews).mpr hall (classifyLink_truncated context _)

end Fabric

end Lqf
