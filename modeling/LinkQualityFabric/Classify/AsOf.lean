import LinkQualityFabric.Classify.Candidates
import LinkQualityFabric.Store.ContinuityRestore

/-! Classification at an instant of the steady clock.

The wall clock gives nothing but the ages of evidence that is not fresh, and these are shown in the list of evidence
only. A stream that has grown since an instant says the same about that instant as it said then, if the record it
had fed last was the last to arrive, or nothing was fed to it since. -/
namespace Lqf
open Foundations
set_option autoImplicit false

/-! ## The wall clock -/

section Wall
variable {now now' : ClockReading} (hsteady : now'.steadyNanos = now.steadyNanos)
include hsteady

theorem receivedAfter_steady (record : EvidenceRecord) (epoch : UInt64) :
    receivedAfter record now' epoch = receivedAfter record now epoch := by
  unfold receivedAfter
  rw [hsteady]

theorem recordIsFresh_steady (record : EvidenceRecord) (validity : Int64) (epoch : UInt64) :
    (recordIsFresh record validity now' epoch).1 = (recordIsFresh record validity now epoch).1 ∧
      ((recordIsFresh record validity now epoch).1 = true →
        recordIsFresh record validity now' epoch = recordIsFresh record validity now epoch) := by
  unfold recordIsFresh
  rw [hsteady]
  split
  · exact ⟨rfl, fun h => by cases h⟩
  · exact ⟨rfl, fun _ => rfl⟩

end Wall

namespace LaneContext

def unlisted (lane : LaneContext) : LaneContext := { lane with evidence := [] }

theorem keepReference_unlisted (lane : LaneContext) (maxEvidence : ℕ) (reference : EvidenceRef) :
    (lane.keepReference maxEvidence reference).unlisted = lane.unlisted := by
  unfold keepReference
  split <;> rfl

theorem noteRecord_stale (lane : LaneContext) (record : EvidenceRecord) (age age' : Int64) :
    lane.noteRecord record (false, age') = lane.noteRecord record (false, age) := by
  simp [noteRecord]

end LaneContext

variable {now now' : ClockReading} {lane' : LaneContext} {context context' : ClassifierContext}
  (record : EvidenceRecord) (rule : Option MetricRule) (severity : SeverityTable) (counter : CounterReading)
  (maxEvidence : ℕ) (validity : Int64) (lane : LaneContext)

theorem collectGauge_unlisted (gauge : GaugeReading) (freshness : Bool × Int64) (lane : LaneContext) :
    (collectGauge record gauge freshness lane).2.unlisted = (collectGauge record gauge freshness lane.unlisted).2 := by
  unfold collectGauge
  cases freshness.1 <;> rfl

theorem collectCounter_unlisted (freshness : Bool × Int64) (validity minIntervalNanos : Int64) (view : ContinuityView)
    (lane : LaneContext) : (collectCounter record counter freshness validity minIntervalNanos view lane).2.unlisted =
      (collectCounter record counter freshness validity minIntervalNanos view lane.unlisted).2 := by
  unfold collectCounter collectRate
  cases view.delta with
  | none => rfl
  | some delta =>
    cases hrate : delta.ratePerSecond minIntervalNanos with
    | none => simp only [hrate]; rfl
    | some rate =>
      simp only [hrate]
      split <;> rfl

theorem collectCounter_stale (age age' : Int64) (validity minIntervalNanos : Int64) (view : ContinuityView)
    (lane : LaneContext) : (collectCounter record counter (false, age') validity minIntervalNanos view lane).2 =
      (collectCounter record counter (false, age) validity minIntervalNanos view lane).2 := by
  unfold collectCounter collectRate
  cases view.delta with
  | none => rfl
  | some delta =>
    cases hrate : delta.ratePerSecond minIntervalNanos with
    | none => simp only [hrate]
    | some rate => simp [hrate]

theorem collect_unlisted (hsteady : now'.steadyNanos = now.steadyNanos) (epoch : UInt64) (minIntervalNanos : Int64)
    (maxEvidence : ℕ) {lane : LaneContext} (h : lane'.unlisted = lane.unlisted) (contribution : Contribution) :
    (collect now' epoch minIntervalNanos maxEvidence lane' contribution).unlisted =
      (collect now epoch minIntervalNanos maxEvidence lane contribution).unlisted := by
  obtain ⟨validity, record, continuity⟩ := contribution
  obtain ⟨hfresh, hsame⟩ := recordIsFresh_steady hsteady record validity epoch
  unfold collect
  dsimp only
  rw [LaneContext.keepReference_unlisted, LaneContext.keepReference_unlisted]
  generalize recordIsFresh record validity now' epoch = freshness' at hfresh hsame ⊢
  generalize recordIsFresh record validity now epoch = freshness at hfresh hsame ⊢
  have hnoted : ∀ freshness, (lane'.noteRecord record freshness).unlisted = (lane.noteRecord record freshness).unlisted :=
    fun freshness => congrArg (LaneContext.noteRecord record freshness) h
  obtain ⟨fresh, age⟩ := freshness
  obtain ⟨fresh', age'⟩ := freshness'
  obtain rfl : fresh' = fresh := hfresh
  cases fresh' with
  | true =>
    obtain rfl : age' = age := congrArg Prod.snd (hsame rfl)
    cases record.observation.reading with
    | gauge gauge => simp only [collectGauge_unlisted, hnoted]
    | counter counter =>
      cases continuity with
      | none => exact hnoted _
      | some view => simp only [collectCounter_unlisted, hnoted]
  | false =>
    rw [lane'.noteRecord_stale record age age']
    cases record.observation.reading with
    | gauge gauge => exact hnoted (false, age)
    | counter counter =>
      cases continuity with
      | none => exact hnoted _
      | some view => simp only [collectCounter_stale record counter age age', collectCounter_unlisted, hnoted]

theorem foldl_collect_unlisted (hsteady : now'.steadyNanos = now.steadyNanos) (epoch : UInt64)
    (minIntervalNanos : Int64) (maxEvidence : ℕ) (contributions : List Contribution) {lane : LaneContext}
    (h : lane'.unlisted = lane.unlisted) :
    (contributions.foldl (collect now' epoch minIntervalNanos maxEvidence) lane').unlisted =
      (contributions.foldl (collect now epoch minIntervalNanos maxEvidence) lane).unlisted := by
  induction contributions generalizing lane lane' with
  | nil => exact h
  | cons contribution rest ih => exact ih (collect_unlisted hsteady epoch minIntervalNanos maxEvidence h contribution)

/-! ## Assessments without their evidence -/

def MetricAssessment.unlisted (assessment : MetricAssessment) : MetricAssessment := { assessment with evidence := [] }

theorem assessWinners_unlisted (first : Candidate) (candidates : List Candidate) (assessment : MetricAssessment) :
    (assessWinners rule validity lane first candidates assessment).unlisted =
      assessWinners rule validity lane.unlisted first candidates assessment.unlisted := by
  unfold assessWinners
  dsimp only
  split
  · rfl
  · cases rule with
    | none => rfl
    | some rule =>
      unfold assessValue
      dsimp only
      cases rule.classify first.value <;> rfl

theorem assessCollected_unlisted (assessment : MetricAssessment) :
    (assessCollected rule validity lane assessment).unlisted =
      assessCollected rule validity lane.unlisted assessment.unlisted := by
  have hevidence : lane.unlisted.hasEvidence = lane.hasEvidence := rfl
  have hcandidates : lane.unlisted.candidates = lane.candidates := rfl
  have hfresh : lane.unlisted.hasFreshReading = lane.hasFreshReading := rfl
  unfold assessCollected
  rw [hevidence, hcandidates, hfresh]
  split
  · rfl
  · split
    · split <;> rfl
    · unfold assessCandidates
      dsimp only
      rw [hcandidates]
      cases winners lane.candidates with
      | nil => rfl
      | cons first rest => exact assessWinners_unlisted ..

theorem aggregateLane_unlisted (aggregate assessment : MetricAssessment) :
    (aggregateLane maxEvidence aggregate assessment).unlisted =
      (aggregateLane maxEvidence aggregate.unlisted assessment.unlisted).unlisted := rfl

theorem foldl_aggregateLane_unlisted {assessments assessments' : List MetricAssessment}
    (h : assessments'.map MetricAssessment.unlisted = assessments.map MetricAssessment.unlisted)
    {aggregate aggregate' : MetricAssessment} (haggregate : aggregate'.unlisted = aggregate.unlisted) :
    (assessments'.foldl (aggregateLane maxEvidence) aggregate').unlisted =
      (assessments.foldl (aggregateLane maxEvidence) aggregate).unlisted := by
  induction assessments generalizing assessments' aggregate aggregate' with
  | nil =>
    rw [List.map_nil, List.map_eq_nil_iff] at h
    rw [h]
    exact haggregate
  | cons assessment rest ih =>
    obtain ⟨assessment', rest', rfl, hfirst, hrest⟩ := List.map_eq_cons_iff.mp h
    refine ih hrest ?_
    rw [aggregateLane_unlisted, hfirst, haggregate, ← aggregateLane_unlisted]

theorem worstAssessment_unlisted (first : MetricAssessment) (assessments : List MetricAssessment) :
    (worstAssessment severity first assessments).unlisted =
      worstAssessment severity first.unlisted (assessments.map MetricAssessment.unlisted) := by
  unfold worstAssessment
  induction assessments generalizing first with
  | nil => rfl
  | cons assessment rest ih =>
    rw [List.foldl_cons, List.map_cons, List.foldl_cons, ih]
    congr 1
    have hfirst : first.unlisted.state = first.state := rfl
    have hassessment : assessment.unlisted.state = assessment.state := rfl
    rw [hfirst, hassessment]
    split <;> rfl

theorem coverLanes_unlisted (aggregate : MetricAssessment) :
    (coverLanes severity aggregate).unlisted = coverLanes severity aggregate.unlisted := by
  have hmissing : aggregate.unlisted.missingLanes = aggregate.missingLanes := rfl
  unfold coverLanes
  rw [hmissing]
  split <;> rfl

theorem overallOf_unlisted (assessments : List MetricAssessment) :
    overallOf severity (assessments.map MetricAssessment.unlisted) = overallOf severity assessments := by
  cases assessments with
  | nil => rfl
  | cons first rest =>
    simp only [overallOf, List.map_cons, List.foldl_map]
    rfl

/-! ## One instant, two contexts -/

/-- At the instant of the contexts, every stream contributes the same to the link. -/
structure AgreesAt (link : LinkIdentity) (context context' : ClassifierContext) : Prop where
  views : context'.capabilities.viewForLink link = context.capabilities.viewForLink link
  document : context'.policy.document = context.policy.document
  steady : context'.now.steadyNanos = context.now.steadyNanos
  epoch : context'.epoch = context.epoch
  contributions : ∀ (metric : MetricId) (lane : LaneDimension) (declared : List DeclaredSource),
    contributions context' link metric lane declared = contributions context link metric lane declared

section Agrees
variable {link : LinkIdentity} {context context' : ClassifierContext}

theorem AgreesAt.assessLane (h : AgreesAt link context context') (metric : MetricId) (lane : LaneDimension)
    (view : MetricCapabilityView) (query : QualityQuery) :
    (assessLane context' link metric lane view query).unlisted =
      (assessLane context link metric lane view query).unlisted := by
  have hcollected : (collectLane context' link metric lane view.declaredBy query.maxEvidencePerMetric.toNat).unlisted =
      (collectLane context link metric lane view.declaredBy query.maxEvidencePerMetric.toNat).unlisted := by
    rw [collectLane_eq, collectLane_eq, h.contributions, h.epoch, h.document]
    exact foldl_collect_unlisted h.steady _ _ _ _ rfl
  unfold Lqf.assessLane
  dsimp only
  split
  · rfl
  · rw [assessCollected_unlisted, assessCollected_unlisted, hcollected, h.document, validityFor_congr h.document]
    congr 1
    have hwith := congrArg LaneContext.sourcesWithEvidence hcollected
    have hfresh := congrArg LaneContext.sourcesFresh hcollected
    have hrate := congrArg LaneContext.intervalRate hcollected
    have hreasons := congrArg LaneContext.reasons hcollected
    simp only [LaneContext.unlisted] at hwith hfresh hrate hreasons
    simp only [MetricAssessment.unlisted, hwith, hfresh, hrate, hreasons]

theorem AgreesAt.aggregateLanes (h : AgreesAt link context context') (metric : MetricId) (view : MetricCapabilityView)
    (lanes : List UInt32) (query : QualityQuery) : (aggregateLanes context' link metric view lanes query).unlisted =
      (aggregateLanes context link metric view lanes query).unlisted := by
  have hlanes : (lanes.map fun lane => Lqf.assessLane context' link metric ⟨false, lane⟩ view query).map
        MetricAssessment.unlisted =
      (lanes.map fun lane => Lqf.assessLane context link metric ⟨false, lane⟩ view query).map
        MetricAssessment.unlisted := by
    rw [List.map_map, List.map_map]
    exact List.map_congr_left fun lane _ => h.assessLane metric ⟨false, lane⟩ view query
  unfold Lqf.aggregateLanes
  cases hassessed : lanes.map fun lane => Lqf.assessLane context link metric ⟨false, lane⟩ view query with
  | nil =>
    rw [hassessed, List.map_nil, List.map_eq_nil_iff] at hlanes
    rw [hlanes]
    exact h.assessLane metric aggregateDimension view query
  | cons first rest =>
    rw [hassessed] at hlanes
    obtain ⟨first', rest', hassessed', hfirst, hrest⟩ := List.map_eq_cons_iff.mp hlanes
    rw [hassessed']
    dsimp only
    rw [hassessed'] at hlanes
    rw [coverLanes_unlisted, coverLanes_unlisted, h.document]
    congr 1
    refine foldl_aggregateLane_unlisted _ hlanes ?_
    have hworst : (worstAssessment context.policy.document.aggregation.severity first' (first' :: rest')).unlisted =
        (worstAssessment context.policy.document.aggregation.severity first (first :: rest)).unlisted := by
      rw [worstAssessment_unlisted, worstAssessment_unlisted, hfirst, hlanes]
    have haggregate : ∀ worst : MetricAssessment, (aggregateOf metric view worst).unlisted =
        aggregateOf metric view worst.unlisted := fun _ => rfl
    rw [haggregate, haggregate, hworst]

theorem AgreesAt.assessMetric {query : QualityQuery} (h : AgreesAt query.link context context')
    (views : List MetricCapabilityView) (metric : MetricId) :
    (assessMetric context' query views metric).unlisted = (assessMetric context query views metric).unlisted := by
  unfold Lqf.assessMetric
  rw [h.document]
  dsimp only
  split
  · exact h.assessLane ..
  · split
    · exact h.assessLane ..
    · exact h.aggregateLanes ..

end Agrees

def Findings.unlisted (findings : Findings) : Findings :=
  { findings with metrics := findings.metrics.map MetricAssessment.unlisted }

/-- **Contexts that agree at an instant find the same there**, but for the ages in the lists of evidence. -/
theorem AgreesAt.findings {query : QualityQuery} (h : AgreesAt query.link context context') :
    (classifyLink context' query).findings.unlisted = (classifyLink context query).findings.unlisted := by
  unfold classifyLink
  simp only [h.views]
  split
  · rfl
  · split
    · rfl
    · have hmetrics : ((resolveMetrics query (context.capabilities.viewForLink query.link)).map
            (Lqf.assessMetric context' query (context.capabilities.viewForLink query.link))).map
              MetricAssessment.unlisted =
          ((resolveMetrics query (context.capabilities.viewForLink query.link)).map
            (Lqf.assessMetric context query (context.capabilities.viewForLink query.link))).map
              MetricAssessment.unlisted := by
        rw [List.map_map, List.map_map]
        exact List.map_congr_left fun metric _ => h.assessMetric _ metric
      rw [findings_finishReport, findings_finishReport, h.document]
      generalize (resolveMetrics query (context.capabilities.viewForLink query.link)).map
        (Lqf.assessMetric context' query (context.capabilities.viewForLink query.link)) = metrics' at hmetrics ⊢
      generalize (resolveMetrics query (context.capabilities.viewForLink query.link)).map
        (Lqf.assessMetric context query (context.capabilities.viewForLink query.link)) = metrics at hmetrics ⊢
      have hany : ∀ assessments : List MetricAssessment, (assessments.any fun assessment =>
          decide (assessment.state = .conflicting)) = (assessments.map MetricAssessment.unlisted).any fun assessment =>
            decide (assessment.state = .conflicting) := by
        intro assessments
        rw [List.any_map]
        rfl
      rw [hany metrics', hany metrics, hmetrics, ← overallOf_unlisted _ metrics', hmetrics, overallOf_unlisted]
      split <;> simp only [Findings.unlisted, hmetrics]

/-! ## Streams that grow -/

namespace StreamState

def takes (limits : FabricLimits) (stream : StreamState) (observation : Observation) : Bool :=
  match stream.verdict limits.maxDedupWindow observation.sequence (evidenceDigest observation) with
  | .accept _ => true
  | _ => false

def Early (now : ClockReading) (epoch : UInt64) (stream : StreamState) : Prop :=
  ∀ record ∈ stream.held, receivedAfter record now epoch = false

def rerun (config : CounterContinuityConfig) (stream : StreamState) : CounterStep × CounterContinuity :=
  stream.recent.foldl (reconstructStep config) (⟨.baseline, .none, none, false⟩, .initial)

/-- The record fed last is the last of the ring, and the tracker has run over the readings of the ring. -/
structure InStep (config : CounterContinuityConfig) (stream : StreamState) : Prop where
  last : stream.recent.getLast? = stream.latestFed
  counter : stream.counter = (stream.rerun config).2
  view : stream.continuityView = ⟨(stream.rerun config).1.delta, (stream.rerun config).2.rateAdmissible,
    (stream.rerun config).1.event, (stream.rerun config).1.reason⟩

structure Rested (stream later : StreamState) : Prop where
  latestFed : later.latestFed = stream.latestFed
  view : later.continuityView = stream.continuityView

/-- The stream has taken in records from behind the instant and has lost none. -/
structure Grown (now : ClockReading) (epoch : UInt64) (stream later : StreamState) : Prop where
  recent : ∃ added, later.recent = stream.recent ++ added ∧ ∀ record ∈ added, receivedAfter record now epoch = true
  fed : Rested stream later ∨ ∃ fed, later.latestFed = some fed ∧ receivedAfter fed now epoch = true

section Growth
variable {now : ClockReading} {epoch : UInt64} {config : CounterContinuityConfig} {limits : FabricLimits}
  {stream later : StreamState} {record : EvidenceRecord}

theorem append_of_not_takes (h : stream.takes limits record.observation = false) (config : CounterContinuityConfig) :
    ∃ stats, (stream.append limits record config).2 = { stream with stats := stats } := by
  rcases append_cases limits stream record config with ⟨reordered, hverdict, -⟩ | ⟨-, hcounted⟩
  · simp [takes, hverdict] at h
  · exact hcounted

theorem append_of_takes (h : stream.takes limits record.observation = true) (config : CounterContinuityConfig) :
    ∃ reordered, (stream.append limits record config).2 = (stream.accept limits record config reordered).2 := by
  unfold takes at h
  split at h
  · next reordered hverdict => exact ⟨reordered, by simp only [append, hverdict]⟩
  · cases h

theorem accept_recent_of_room (h : stream.recent.length < limits.maxStreamHistory) (record : EvidenceRecord)
    (config : CounterContinuityConfig) (reordered : Bool) :
    (stream.accept limits record config reordered).2.recent = stream.recent ++ [record] := by
  have hnone : (stream.recent ++ [record]).length - limits.maxStreamHistory = 0 := by
    rw [List.length_append, List.length_singleton]
    omega
  rw [accept_recent, hnone, List.drop_zero]

theorem TracksAlike.continuityView {other : StreamState} (h : TracksAlike stream other) :
    other.continuityView = stream.continuityView := by
  simp only [StreamState.continuityView, h.delta, h.rate, h.event, h.reason]

theorem Early.append (h : stream.Early now epoch) (hrecord : receivedAfter record now epoch = false)
    (limits : FabricLimits) (config : CounterContinuityConfig) :
    (stream.append limits record config).2.Early now epoch := by
  intro other hother
  rcases mem_held_append hother with hearlier | rfl
  · exact h other hearlier
  · exact hrecord

theorem early_fresh (now : ClockReading) (epoch : UInt64) : fresh.Early now epoch :=
  fun _ hrecord => absurd hrecord List.not_mem_nil

theorem inStep_fresh (config : CounterContinuityConfig) : fresh.InStep config := ⟨rfl, rfl, rfl⟩

theorem reconstructStep_eq (config : CounterContinuityConfig) (state : CounterStep × CounterContinuity)
    (record : EvidenceRecord) :
    reconstructStep config state record =
      match record.counterReading? with
      | none => state
      | some reading => state.2.observe reading config := by
  unfold reconstructStep counterObservationOf EvidenceRecord.counterReading?
  cases record.observation.reading <;> rfl

theorem InStep.append (h : stream.InStep config) {current : CounterContinuityConfig}
    (hfeeds : stream.takes limits record.observation = true → stream.feeds record.observation.sequence = true)
    (hroom : stream.takes limits record.observation = true → stream.recent.length < limits.maxStreamHistory)
    (hconfig : record.counterReading?.isSome = true → current = config) :
    (stream.append limits record current).2.InStep config := by
  cases htakes : stream.takes limits record.observation with
  | false =>
    obtain ⟨stats, hcounted⟩ := append_of_not_takes htakes current
    rw [hcounted]
    exact ⟨h.last, h.counter, h.view⟩
  | true =>
    obtain ⟨reordered, haccept⟩ := append_of_takes htakes current
    have hrecent := accept_recent_of_room (hroom htakes) record current reordered
    have hfed := (accept_fed limits stream record current reordered).1
    have halike := accept_tracksAlike limits stream record current reordered
    rw [hfeeds htakes, if_pos rfl] at hfed
    have hreading : stream.fedReading? record = record.counterReading? := by
      rw [fedReading?, hfeeds htakes, if_pos rfl]
    have hrerun : (stream.accept limits record current reordered).2.rerun config =
        reconstructStep config (stream.rerun config) record := by
      rw [rerun, hrecent, List.foldl_append]
      rfl
    rw [reconstructStep_eq] at hrerun
    rw [respondedTo, hreading] at halike
    have hlast : (stream.accept limits record current reordered).2.recent.getLast? =
        (stream.accept limits record current reordered).2.latestFed := by
      rw [hrecent, hfed, List.getLast?_concat]
    rw [haccept]
    cases hcounter : record.counterReading? with
    | none =>
      rw [hcounter] at hrerun halike
      exact ⟨hlast, by rw [halike.counter, hrerun, h.counter], by rw [halike.continuityView, hrerun, h.view]⟩
    | some reading =>
      rw [hcounter] at hrerun halike
      obtain rfl := hconfig (by rw [hcounter]; rfl)
      refine ⟨hlast, ?_, ?_⟩
      · rw [halike.counter, hrerun, ← h.counter]
        rfl
      · rw [halike.continuityView, hrerun, ← h.counter]
        rfl

theorem rested_accept (hfeeds : stream.feeds record.observation.sequence = false) (config : CounterContinuityConfig)
    (reordered : Bool) : Rested stream (stream.accept limits record config reordered).2 := by
  have hview := (accept_tracksAlike limits stream record config reordered).continuityView
  have hreading : stream.fedReading? record = none := by
    rw [fedReading?, hfeeds]
    rfl
  rw [respondedTo, hreading] at hview
  refine ⟨?_, hview⟩
  rw [(accept_fed limits stream record config reordered).1, hfeeds]
  rfl

theorem Grown.append (h : Grown now epoch stream later) (hrecord : receivedAfter record now epoch = true)
    (hroom : later.takes limits record.observation = true → later.recent.length < limits.maxStreamHistory)
    (config : CounterContinuityConfig) : Grown now epoch stream (later.append limits record config).2 := by
  cases htakes : later.takes limits record.observation with
  | false =>
    obtain ⟨stats, hcounted⟩ := append_of_not_takes htakes config
    rw [hcounted]
    exact ⟨h.recent, h.fed.imp (fun hrested => ⟨hrested.latestFed, hrested.view⟩) id⟩
  | true =>
    obtain ⟨reordered, haccept⟩ := append_of_takes htakes config
    obtain ⟨added, hadded, hlate⟩ := h.recent
    have hfed := (accept_fed limits later record config reordered).1
    rw [haccept]
    refine ⟨⟨added ++ [record], ?_, ?_⟩, ?_⟩
    · rw [accept_recent_of_room (hroom htakes), hadded, List.append_assoc]
    · exact List.forall_mem_append.mpr ⟨hlate, List.forall_mem_singleton.mpr hrecord⟩
    · cases hfeeds : later.feeds record.observation.sequence with
      | true =>
        rw [hfeeds, if_pos rfl] at hfed
        exact .inr ⟨record, hfed, hrecord⟩
      | false =>
        obtain ⟨hkept, hview⟩ := @rested_accept limits later record hfeeds config reordered
        refine h.fed.imp (fun hrested => ⟨hkept.trans hrested.latestFed, hview.trans hrested.view⟩) ?_
        rintro ⟨fed, hlatest, hafter⟩
        exact ⟨fed, hkept.trans hlatest, hafter⟩

theorem Rested.append (h : Rested stream later)
    (hfeeds : later.takes limits record.observation = true → later.feeds record.observation.sequence = false)
    (config : CounterContinuityConfig) : Rested stream (later.append limits record config).2 := by
  cases htakes : later.takes limits record.observation with
  | false =>
    obtain ⟨stats, hcounted⟩ := append_of_not_takes htakes config
    rw [hcounted]
    exact ⟨h.latestFed, h.view⟩
  | true =>
    obtain ⟨reordered, haccept⟩ := append_of_takes htakes config
    obtain ⟨hkept, hview⟩ := @rested_accept limits later record (hfeeds htakes) config reordered
    rw [haccept]
    exact ⟨hkept.trans h.latestFed, hview.trans h.view⟩

/-! ### What a grown stream says -/

theorem Grown.newestRecent (h : Grown now epoch stream later) :
    newestRecent later now epoch = newestRecent stream now epoch := by
  obtain ⟨added, hadded, hlate⟩ := h.recent
  have hnone : added.reverse.find? (fun record => !receivedAfter record now epoch) = none := by
    rw [List.find?_eq_none]
    intro record hrecord
    simp [hlate record (List.mem_reverse.mp hrecord)]
  unfold Lqf.newestRecent
  rw [hadded, List.reverse_append, List.find?_append, hnone, Option.none_or]

theorem Grown.reconstructed (h : Grown now epoch stream later) (config : CounterContinuityConfig) :
    reconstructed later config now epoch = reconstructed stream config now epoch := by
  obtain ⟨added, hadded, hlate⟩ := h.recent
  have hnone : added.filter (fun record => !receivedAfter record now epoch) = [] := by
    rw [List.filter_eq_nil_iff]
    intro record hrecord
    simp [hlate record hrecord]
  unfold Lqf.reconstructed
  rw [hadded, List.filter_append, hnone, List.append_nil]

theorem Early.newestRecent (h : stream.Early now epoch) : newestRecent stream now epoch = stream.recent.getLast? := by
  have hring : ∀ record ∈ stream.recent, receivedAfter record now epoch = false := fun record hrecord =>
    h record (List.mem_append_right _ hrecord)
  unfold Lqf.newestRecent
  rw [← List.head?_reverse]
  cases hreverse : stream.recent.reverse with
  | nil => rfl
  | cons first rest =>
    have hfirst : first ∈ stream.recent := List.mem_reverse.mp (hreverse ▸ List.mem_cons_self)
    simp [hring first hfirst]

theorem Early.reconstructed (h : stream.Early now epoch) (config : CounterContinuityConfig) :
    reconstructed stream config now epoch = ⟨(stream.rerun config).1.delta, (stream.rerun config).2.rateAdmissible,
      (stream.rerun config).1.event, (stream.rerun config).1.reason⟩ := by
  have hring : stream.recent.filter (fun record => !receivedAfter record now epoch) = stream.recent := by
    rw [List.filter_eq_self]
    intro record hrecord
    simp [h record (List.mem_append_right _ hrecord)]
  unfold Lqf.reconstructed rerun
  rw [hring]

theorem Early.latestFed (h : stream.Early now epoch) {fed : EvidenceRecord} (hfed : stream.latestFed = some fed) :
    receivedAfter fed now epoch = false :=
  h fed (List.mem_append_left _ (by rw [hfed]; exact List.mem_singleton_self fed))

end Growth

end StreamState

section Instant
variable {now : ClockReading} {epoch : UInt64} {config : CounterContinuityConfig} {stream later : StreamState}

theorem last_of_grown (hearly : stream.Early now epoch) (hstep : stream.InStep config ∨ stream.Rested later)
    {fed : EvidenceRecord} (hfed : later.latestFed = some fed) (hafter : receivedAfter fed now epoch = true) :
    stream.InStep config := by
  refine hstep.resolve_right fun hrested => ?_
  rw [hearly.latestFed (hrested.latestFed.symm.trans hfed)] at hafter
  cases hafter

theorem newestAtOrBefore_of_grown (hearly : stream.Early now epoch) (h : stream.Grown now epoch later)
    (hstep : stream.InStep config ∨ stream.Rested later) :
    newestAtOrBefore later now epoch = newestAtOrBefore stream now epoch := by
  unfold newestAtOrBefore
  rcases h.fed with hrested | ⟨fed, hfed, hafter⟩
  · rw [hrested.latestFed, h.newestRecent]
  · have hlast := (last_of_grown hearly hstep hfed hafter).last
    rw [hfed]
    dsimp only
    rw [if_pos hafter, h.newestRecent, hearly.newestRecent, hlast]
    cases hlatest : stream.latestFed with
    | none => rfl
    | some latest => simp [hearly.latestFed hlatest]

variable {context : ClassifierContext} {key : StreamKey}

section
variable (hearly : stream.Early context.now context.epoch) (h : stream.Grown context.now context.epoch later)
  (hstep : stream.InStep (counterConfigFor context.policy.document key.metric) ∨ stream.Rested later)
include hearly h hstep

theorem continuityAt_of_grown : continuityAt context key later = continuityAt context key stream := by
  unfold continuityAt reconstructs
  rcases h.fed with hrested | ⟨fed, hfed, hafter⟩
  · rw [hrested.latestFed, h.reconstructed, hrested.view]
  · have hview := (last_of_grown hearly hstep hfed hafter).view
    rw [hfed]
    dsimp only
    rw [if_pos hafter, h.reconstructed, hearly.reconstructed, ← hview, ite_self]

theorem contribution_of_grown (link : LinkIdentity) (metric : MetricId) (lane : LaneDimension)
    (declared : List DeclaredSource) : contribution context link metric lane declared key later =
      contribution context link metric lane declared key stream := by
  unfold contribution continuityOf
  rw [newestAtOrBefore_of_grown hearly h hstep, continuityAt_of_grown hearly h hstep]

end

end Instant

theorem contribution_steady (hpolicy : context'.policy = context.policy)
    (hsteady : context'.now.steadyNanos = context.now.steadyNanos) (hepoch : context'.epoch = context.epoch)
    (link : LinkIdentity) (metric : MetricId) (lane : LaneDimension) (declared : List DeclaredSource)
    (key : StreamKey) (stream : StreamState) : contribution context' link metric lane declared key stream =
      contribution context link metric lane declared key stream := by
  have hafter : ∀ record : EvidenceRecord, receivedAfter record context'.now context.epoch =
      receivedAfter record context.now context.epoch := fun record => receivedAfter_steady hsteady record _
  have hnewest : newestAtOrBefore stream context'.now context.epoch =
      newestAtOrBefore stream context.now context.epoch := by
    simp only [newestAtOrBefore, newestRecent, hafter]
  have hreconstructs : reconstructs stream context'.now context.epoch =
      reconstructs stream context.now context.epoch := by
    unfold reconstructs
    cases stream.latestFed with
    | none => rfl
    | some fed => exact hafter fed
  have hcontinuity : continuityAt context' key stream = continuityAt context key stream := by
    rw [continuityAt, hpolicy, hepoch, hreconstructs]
    simp only [continuityAt, reconstructed, hafter]
  unfold contribution continuityOf
  rw [hpolicy, hepoch, hnewest, hcontinuity]

/-! ## Stores that grow -/

theorem contribution_fresh (context : ClassifierContext) (link : LinkIdentity) (metric : MetricId) (lane : LaneDimension)
    (declared : List DeclaredSource) (key : StreamKey) :
    contribution context link metric lane declared key .fresh = none := by
  unfold contribution
  split
  · rfl
  · split <;> rfl

theorem contributions_of_streamAt {link : LinkIdentity}
    (h : ∀ key : StreamKey, key.link = link → ∀ (metric : MetricId) (lane : LaneDimension)
      (declared : List DeclaredSource),
      contribution context' link metric lane declared key (context'.store.streamAt key) =
        contribution context link metric lane declared key (context.store.streamAt key)) (metric : MetricId)
    (lane : LaneDimension) (declared : List DeclaredSource) :
    contributions context' link metric lane declared = contributions context link metric lane declared := by
  have hstream : ∀ (context : ClassifierContext) (key : StreamKey),
      (context.store.streams[key]?).bind (contribution context link metric lane declared key) =
        contribution context link metric lane declared key (context.store.streamAt key) := by
    intro context key
    unfold EvidenceStore.streamAt
    cases context.store.streams[key]? with
    | none => exact (contribution_fresh context link metric lane declared key).symm
    | some stream => rfl
  have hkeys : ∀ key : StreamKey,
      (context'.store.streams[key]?).bind (contribution context' link metric lane declared key) =
        (context.store.streams[key]?).bind (contribution context link metric lane declared key) := by
    intro key
    rw [hstream, hstream]
    by_cases hlink : key.link = link
    · exact h key hlink metric lane declared
    · rw [show contribution context' link metric lane declared key (context'.store.streamAt key) = none from
        if_pos (.inl hlink)]
      exact (if_pos (.inl hlink)).symm
  exact filterMap_toList_eq hkeys

end Lqf
