import LinkQualityFabric.Classify.Contributions
import LinkQualityFabric.Domain.CounterThresholds
import LinkQualityFabric.Runtime.StateInvariant

/-! A classification rests on live fresh evidence.

A rule is applied to the value of a candidate, and a candidate is made from a record only when the record is fresh:
live, of this epoch, and not older than the validity that is selected for its source. The age is a difference in 64
bits, so a record from `2 ^ 63` nanoseconds ago or earlier counts as new. Recovered evidence is never fresh, so right
behind a recovery no rule is applied. -/
namespace Lqf
open Std (ExtTreeMap)
set_option autoImplicit false

/-! ## Records -/

variable {stream : StreamState} {now : ClockReading} {epoch : UInt64} {record : EvidenceRecord} {validity : Int64}
  {context : ClassifierContext} {candidate : Candidate}

theorem not_receivedAfter_of_newestRecent (h : newestRecent stream now epoch = some record) :
    record ∈ stream.recent ∧ receivedAfter record now epoch = false := by
  unfold newestRecent at h
  have hkept := List.find?_some h
  exact ⟨List.mem_reverse.mp (List.mem_of_find?_eq_some h), Bool.not_eq_true' _ ▸ hkept⟩

theorem newestAtOrBefore_held (h : newestAtOrBefore stream now epoch = some record) :
    record ∈ stream.held ∧ receivedAfter record now epoch = false := by
  have hrecent : newestRecent stream now epoch = some record →
      record ∈ stream.held ∧ receivedAfter record now epoch = false := by
    intro hnewest
    obtain ⟨hmem, hbefore⟩ := not_receivedAfter_of_newestRecent hnewest
    exact ⟨List.mem_append_right _ hmem, hbefore⟩
  unfold newestAtOrBefore at h
  split at h
  · next fed hfed =>
    split at h
    · exact hrecent h
    · next hbefore =>
      obtain rfl := Option.some.inj h
      refine ⟨List.mem_append_left _ ?_, Bool.not_eq_true _ ▸ hbefore⟩
      rw [hfed]
      exact List.mem_singleton_self fed
  · exact hrecent h

theorem recordIsFresh_iff : (recordIsFresh record validity now epoch).1 = true ↔
      record.origin = .live ∧ record.received.epoch = epoch ∧ 0 < validity ∧
        now.steadyNanos - record.received.steadyNanos ≤ validity := by
  unfold recordIsFresh
  by_cases hlive : record.origin ≠ .live ∨ record.received.epoch ≠ epoch
  · rw [if_pos hlive]
    constructor
    · intro h
      cases h
    · rintro ⟨horigin, hepoch, -⟩
      exact (hlive.elim (fun h => h horigin) fun h => h hepoch).elim
  · rw [if_neg hlive]
    obtain ⟨horigin, hepoch⟩ := not_or.mp hlive
    simp only [not_not.mp horigin, not_not.mp hepoch, true_and]
    by_cases hvalidity : validity ≤ 0
    · simp [hvalidity, Int64.not_lt]
    · have hpositive : 0 < validity := Int64.not_le.mp hvalidity
      simp only [hvalidity, if_false, decide_eq_true_eq, hpositive, true_and]
      split
      · next hnegative =>
        refine ⟨fun _ => ?_, fun _ => Int64.le_of_lt hpositive⟩
        exact Int64.le_of_lt (Int64.lt_trans hnegative hpositive)
      · rfl

theorem receivedAfter_eq_false (hlive : record.origin = .live) (hepoch : record.received.epoch = epoch)
    (h : receivedAfter record now epoch = false) : record.received.steadyNanos ≤ now.steadyNanos := by
  simpa [receivedAfter, hlive, hepoch, Int64.not_lt] using h

/-! ## Candidates -/

/-- A candidate comes from the record that counts in a stream of a declared source. -/
def Supported (context : ClassifierContext) (link : LinkIdentity) (metric : MetricId) (lane : LaneDimension)
    (declared : List DeclaredSource) (candidate : Candidate) : Prop :=
  ∃ entry ∈ context.store.streamsFor link metric, ∃ declaration record, entry.1.lane = lane ∧
    (declared.find? fun source => source.source = entry.1.source) = some declaration ∧
    newestAtOrBefore entry.2 context.now context.epoch = some record ∧
    (recordIsFresh record (validityFor context.policy (context.policy.document.findRule metric) metric.family
      (some declaration)) context.now context.epoch).1 = true ∧
    candidate.source = record.observation.source

section Lanes
variable {context : ClassifierContext} {link : LinkIdentity} {metric : MetricId} {lane : LaneDimension}

variable {declared : List DeclaredSource} {maxEvidence : ℕ} {collected : LaneContext} (severity : SeverityTable)

theorem supported_collectLane : ∀ candidate ∈ (collectLane context link metric lane declared maxEvidence).candidates,
      Supported context link metric lane declared candidate := by
  intro candidate hcandidate
  rw [collectLane_candidates] at hcandidate
  obtain ⟨found, hfound, hcandidate⟩ := List.mem_filterMap.mp hcandidate
  obtain ⟨entry, hentry, hcontribution⟩ := List.mem_filterMap.mp hfound
  obtain ⟨hlink, hmetric, hlane, declaration, record, hdeclaration, hrecord, rfl⟩ :=
    contribution_eq_some context link metric lane hcontribution
  obtain ⟨hfresh, -, -, -, hsource⟩ := candidate?_eq_some hcandidate
  exact ⟨entry, List.mem_filter.mpr ⟨hentry, by simp [hlink, hmetric]⟩, declaration, record, hlane, hdeclaration,
    hrecord, hfresh, hsource⟩

/-! ## Assessments -/

theorem rules_assessCollected {rule : Option MetricRule} {validity : Int64} {assessment : MetricAssessment}
    (hnone : assessment.rules = []) (h : (assessCollected rule validity collected assessment).rules ≠ []) :
    collected.candidates ≠ [] := by
  intro hempty
  unfold assessCollected at h
  split at h
  · exact h hnone
  · split at h <;> exact h hnone

theorem rules_assessLane {view : MetricCapabilityView} {query : QualityQuery}
    (h : (assessLane context link metric lane view query).rules ≠ []) :
    ∃ candidate, Supported context link metric lane view.declaredBy candidate := by
  unfold assessLane at h
  dsimp only at h
  split at h
  · exact absurd rfl h
  · obtain ⟨candidate, hcandidate⟩ := List.exists_mem_of_ne_nil _ (rules_assessCollected rfl h)
    exact ⟨candidate, supported_collectLane candidate hcandidate⟩

theorem worstAssessment_mem (first : MetricAssessment) (assessments : List MetricAssessment) :
    worstAssessment severity first assessments = first ∨ worstAssessment severity first assessments ∈ assessments := by
  unfold worstAssessment
  induction assessments generalizing first with
  | nil => exact .inl rfl
  | cons assessment rest ih =>
    rw [List.foldl_cons]
    split
    · rcases ih assessment with hsame | hmem
      · rw [hsame]
        exact .inr List.mem_cons_self
      · exact .inr (List.mem_cons_of_mem _ hmem)
    · rcases ih first with hsame | hmem
      · exact .inl hsame
      · exact .inr (List.mem_cons_of_mem _ hmem)

theorem assessCollected_subject (rule : Option MetricRule) (validity : Int64) (collected : LaneContext)
    (assessment : MetricAssessment) :
    (assessCollected rule validity collected assessment).metric = assessment.metric ∧
      (assessCollected rule validity collected assessment).lane = assessment.lane := by
  unfold assessCollected
  split
  · exact ⟨rfl, rfl⟩
  · split
    · split <;> exact ⟨rfl, rfl⟩
    · unfold assessCandidates
      dsimp only
      split
      · exact ⟨rfl, rfl⟩
      · unfold assessWinners
        dsimp only
        split
        · exact ⟨rfl, rfl⟩
        · split
          · exact ⟨rfl, rfl⟩
          · unfold assessValue
            dsimp only
            split <;> exact ⟨rfl, rfl⟩

theorem assessLane_subject (view : MetricCapabilityView) (query : QualityQuery) :
    (assessLane context link metric lane view query).metric = metric ∧
      (assessLane context link metric lane view query).lane = lane := by
  unfold assessLane
  dsimp only
  split
  · exact ⟨rfl, rfl⟩
  · exact assessCollected_subject ..

theorem foldl_aggregateLane_rules (maxEvidence : ℕ) (assessments : List MetricAssessment) (aggregate : MetricAssessment) :
    (assessments.foldl (aggregateLane maxEvidence) aggregate).rules = aggregate.rules ∧
      (assessments.foldl (aggregateLane maxEvidence) aggregate).metric = aggregate.metric ∧
      (assessments.foldl (aggregateLane maxEvidence) aggregate).lane = aggregate.lane := by
  induction assessments generalizing aggregate with
  | nil => exact ⟨rfl, rfl, rfl⟩
  | cons assessment rest ih => exact ih _

theorem coverLanes_rules (aggregate : MetricAssessment) :
    (coverLanes severity aggregate).rules = aggregate.rules ∧ (coverLanes severity aggregate).metric = aggregate.metric ∧
      (coverLanes severity aggregate).lane = aggregate.lane := by
  unfold coverLanes
  split <;> exact ⟨rfl, rfl, rfl⟩

end Lanes

/-! ## Reports -/

/-- The lane a record has to be of: that of the assessment, or any single lane for an aggregate. -/
def MetricAssessment.Covers (assessment : MetricAssessment) (lane : LaneDimension) : Prop :=
  assessment.lane = lane ∨ assessment.lane = aggregateDimension ∧ lane.aggregate = false

def Applied (context : ClassifierContext) (link : LinkIdentity) (metric : MetricId) (view : MetricCapabilityView)
    (assessment : MetricAssessment) : Prop :=
  assessment.metric = metric ∧ ∃ lane candidate, assessment.Covers lane ∧
    Supported context link metric lane view.declaredBy candidate

section Reports
variable {context : ClassifierContext} {link : LinkIdentity} {metric : MetricId} {view : MetricCapabilityView}
  {query : QualityQuery}

theorem applied_assessLane {lane : LaneDimension} (h : (assessLane context link metric lane view query).rules ≠ []) :
    Applied context link metric view (assessLane context link metric lane view query) := by
  obtain ⟨hmetric, hlane⟩ : _ ∧ _ := assessLane_subject view query
  obtain ⟨candidate, hsupported⟩ := rules_assessLane h
  exact ⟨hmetric, lane, candidate, .inl hlane, hsupported⟩

theorem applied_aggregateLanes {lanes : List UInt32}
    (h : (aggregateLanes context link metric view lanes query).rules ≠ []) :
    Applied context link metric view (aggregateLanes context link metric view lanes query) := by
  unfold aggregateLanes at h ⊢
  split at h
  · exact applied_assessLane h
  · next first rest hlanes =>
    dsimp only at h ⊢
    generalize hworst : worstAssessment context.policy.document.aggregation.severity first (first :: rest) = worst at h ⊢
    obtain ⟨hcovered, hcoveredMetric, hcoveredLane⟩ := coverLanes_rules context.policy.document.aggregation.severity
      ((first :: rest).foldl (aggregateLane query.maxEvidencePerMetric.toNat) (aggregateOf metric view worst))
    obtain ⟨hfolded, hmetric, hlane⟩ := foldl_aggregateLane_rules query.maxEvidencePerMetric.toNat (first :: rest)
      (aggregateOf metric view worst)
    rw [hcovered, hfolded] at h
    have hmem : worst ∈ first :: rest := by
      rcases worstAssessment_mem context.policy.document.aggregation.severity first (first :: rest) with hsame | hmem
      · rw [← hworst, hsame]
        exact List.mem_cons_self
      · exact hworst ▸ hmem
    rw [← hlanes] at hmem
    obtain ⟨lane, -, rfl⟩ := List.mem_map.mp hmem
    obtain ⟨candidate, hsupported⟩ := rules_assessLane h
    exact ⟨hcoveredMetric.trans hmetric, ⟨false, lane⟩, candidate, .inr ⟨hcoveredLane.trans hlane, rfl⟩, hsupported⟩

theorem applied_assessMetric {views : List MetricCapabilityView}
    (h : (assessMetric context query views metric).rules ≠ []) : ∃ view, findView views metric = some view ∧
      Applied context query.link metric view (assessMetric context query views metric) := by
  have happlied : Applied context query.link metric
      ((findView views metric).getD (standaloneView context.policy.document metric))
      (assessMetric context query views metric) := by
    unfold assessMetric at h ⊢
    dsimp only at h ⊢
    split at h
    · exact applied_assessLane h
    · split at h
      · next hnone =>
        rw [if_pos hnone]
        exact applied_assessLane h
      · next hlanes =>
        rw [if_neg hlanes]
        exact applied_aggregateLanes h
  cases hview : findView views metric with
  | some view =>
    rw [hview] at happlied
    exact ⟨view, rfl, happlied⟩
  | none =>
    rw [hview] at happlied
    obtain ⟨-, lane, candidate, -, entry, -, declaration, record, -, hdeclaration, -⟩ := happlied
    cases hdeclaration

theorem mem_classifyLink {assessment : MetricAssessment} (h : assessment ∈ (classifyLink context query).metrics) :
    ∃ metric, assessment = assessMetric context query (context.capabilities.viewForLink query.link) metric := by
  unfold classifyLink at h
  dsimp only at h
  split at h
  · exact absurd h List.not_mem_nil
  · split at h
    · exact absurd h List.not_mem_nil
    · rw [(finishReport_counts ..).1] at h
      obtain ⟨metric, -, rfl⟩ := List.mem_map.mp h
      exact ⟨metric, rfl⟩

end Reports

/-! ## Backing -/

/-- The declaration that decides for a source: its first one in the view of the metric. -/
def declarationOf (registry : CapabilityRegistry) (link : LinkIdentity) (metric : MetricId) (source : SourceIdentity) :
    Option DeclaredSource :=
  (findView (registry.viewForLink link) metric).bind fun view =>
    view.declaredBy.find? fun declared => declared.source = source

/-- The validity of the rule, of the declaration of the source, or of the policy. -/
def selectedValidity (context : ClassifierContext) (link : LinkIdentity) (metric : MetricId) (source : SourceIdentity) :
    Int64 :=
  validityFor context.policy (context.policy.document.findRule metric) metric.family
    (declarationOf context.capabilities link metric source)

/-- A retained record that a classification may rest on, with its age over the integers. -/
structure Backs (context : ClassifierContext) (link : LinkIdentity) (metric : MetricId) (record : EvidenceRecord) :
    Prop where
  retained : ∃ (key : StreamKey) (stream : StreamState),
    context.store.streams[key]? = some stream ∧ record ∈ stream.held
  ofLink : record.observation.link = link
  ofMetric : record.observation.metric = metric
  live : record.origin = .live
  epoch : record.received.epoch = context.epoch
  declared : CapabilityRegistry.Declares context.capabilities.declarations link metric record.observation.source
  received : record.received.steadyNanos ≤ context.now.steadyNanos
  valid : 0 < selectedValidity context link metric record.observation.source
  age : context.now.steadyNanos.toInt - record.received.steadyNanos.toInt ≤
    (selectedValidity context link metric record.observation.source).toInt

/-- No live record of the metric lies so far back that its age overflows. -/
def AgesFit (context : ClassifierContext) (link : LinkIdentity) (metric : MetricId) : Prop :=
  context.store.Each fun _ stream => ∀ record ∈ stream.held, record.observation.link = link →
    record.observation.metric = metric → record.origin = .live → record.received.epoch = context.epoch →
      context.now.steadyNanos.toInt - record.received.steadyNanos.toInt < 2 ^ 63

theorem toInt_age {received evaluated : Int64} (hbefore : received ≤ evaluated)
    (hfits : evaluated.toInt - received.toInt < 2 ^ 63) :
    (evaluated - received).toInt = evaluated.toInt - received.toInt := by
  have horder := Int64.le_iff_toInt_le.mp hbefore
  exact toInt_sub_of_bounds (by omega) hfits

theorem backs_of_supported {link : LinkIdentity} {metric : MetricId} {lane : LaneDimension}
    {view : MetricCapabilityView}
    (hkeyed : context.store.Each fun key stream => ∀ record ∈ stream.held, record.observation.streamKey = key)
    (hfits : AgesFit context link metric) (hview : findView (context.capabilities.viewForLink link) metric = some view)
    (h : Supported context link metric lane view.declaredBy candidate) :
    ∃ record, Backs context link metric record ∧ record.observation.lane = lane := by
  obtain ⟨⟨key, stream⟩, hentry, declaration, record, hlane, hdeclaration, hrecord, hfresh, -⟩ := h
  obtain ⟨hstream, hkey⟩ := List.mem_filter.mp hentry
  have hstored : context.store.streams[key]? = some stream := ExtTreeMap.mem_toList_iff_getElem?_eq_some.mp hstream
  simp only [Bool.and_eq_true, decide_eq_true_eq] at hkey
  obtain ⟨hheld, hbefore⟩ := newestAtOrBefore_held hrecord
  obtain rfl : record.observation.streamKey = key := hkeyed key stream hstored record hheld
  have hvalidity : declarationOf context.capabilities link metric record.observation.source = some declaration := by
    rw [declarationOf, hview]
    exact hdeclaration
  have hmetric : view.metric = metric := by simpa using List.find?_some hview
  have hfound := List.find?_some hdeclaration
  have hsource : declaration.source = record.observation.source := of_decide_eq_true hfound
  obtain ⟨hlive, hepoch, hpositive, hage⟩ := recordIsFresh_iff.mp hfresh
  have hreceived := receivedAfter_eq_false hlive hepoch hbefore
  refine ⟨record, ⟨⟨_, stream, hstored, hheld⟩, hkey.1, hkey.2, hlive, hepoch, ?_, hreceived, ?_, ?_⟩, hlane⟩
  · have hdeclares := CapabilityRegistry.declares_of_viewForLink (List.mem_of_find?_eq_some hview)
      (List.mem_of_find?_eq_some hdeclaration)
    rwa [hmetric, hsource] at hdeclares
  · rw [selectedValidity, hvalidity]
    exact hpositive
  · rw [selectedValidity, hvalidity,
      ← toInt_age hreceived (hfits _ stream hstored record hheld hkey.1 hkey.2 hlive hepoch)]
    exact Int64.le_iff_toInt_le.mp hage

namespace Fabric
open FabricState

theorem Reachable.keyed {fabric : Fabric} (h : Reachable fabric) :
    fabric.evidence.Each fun key stream => ∀ record ∈ stream.held, record.observation.streamKey = key :=
  fun key stream hstream record hrecord => (h.vetted.records key stream hstream record hrecord).key

end Fabric

/-! ## Recovered evidence -/

def Change.Replayed : Change → Prop
  | .append _ _ _ origin => origin = .recovered
  | _ => True

namespace FabricState
variable {config : FabricConfig} {catalog : MetricCatalog} {before after : FabricState}

def AllRecovered (state : FabricState) : Prop :=
  state.evidence.Each fun _ stream => ∀ record ∈ stream.held, record.origin = .recovered

theorem AllRecovered.changed (h : AllRecovered before) {change : Change} (hreplayed : change.Replayed)
    (hchanged : Changed config catalog change before after) : AllRecovered after := by
  cases hchanged with
  | declare | publish | restore | observe | advance => exact h
  | drain => exact EvidenceStore.Each.drops h _
  | append hvalid received ordinal origin =>
    refine EvidenceStore.Each.append h _ received ordinal origin _ fun stream hstream record hrecord => ?_
    rcases StreamState.mem_held_append hrecord with hearlier | rfl
    · rcases hstream with rfl | hstream
      · exact absurd hearlier List.not_mem_nil
      · exact hstream record hearlier
    · exact hreplayed
  | seed _ key entries =>
    refine EvidenceStore.Each.seed h key entries fun stream hstream => ?_
    rw [StreamState.seed_held]
    rcases hstream with rfl | hstream
    · exact fun _ hrecord => absurd hrecord List.not_mem_nil
    · exact hstream

end FabricState

namespace Fabric
open FabricState

theorem permitsRecord_replayed (config : FabricConfig) (catalog : MetricCatalog) (record : JournalRecord) :
    PermitsRecord config catalog Change.Replayed record := by
  unfold PermitsRecord
  split <;> first
    | exact trivial
    | exact fun _ _ => trivial
    | exact fun _ _ _ => ⟨rfl, trivial⟩

theorem allRecovered_initializeFabric (config : FabricConfig) (derived : UInt64) (publishedAt : Int64)
    (io : InitializeIo) (disk : Disk) :
    AllRecovered ((new config derived publishedAt).initializeFabric io disk).2.toFabricState := by
  have hnew : AllRecovered (new config derived publishedAt).toFabricState := EvidenceStore.each_empty _
  unfold initializeFabric
  split
  · exact hnew
  · have hpermits : PermitsJournal Change.Replayed config (.withBuiltinDescriptors 256) io disk := fun _ _ _ _ =>
      ⟨permitsRecord_replayed _ _ _, fun _ _ _ _ _ => permitsRecord_replayed _ _ _⟩
    have hmoves : RunsBy Change.Replayed _ _ := RunsBy.bringUp trivial
      { new config derived publishedAt with catalog := .withBuiltinDescriptors 256 } hpermits
    exact hmoves.steps.invariant (fun _ _ _ hchange hbefore hchanged => hbefore.changed hchange hchanged) hnew

/-- In every reachable state an assessment that applied a rule rests on a live fresh record, as long as no age of its
metric overflows, and an opening leaves none. -/
theorem classification_backed (now : ClockReading) (query : QualityQuery) :
    (∀ fabric : Fabric, Reachable fabric →
      ∀ assessment ∈ (classifyLink (fabric.contextAt now) query).metrics, assessment.rules ≠ [] →
        AgesFit (fabric.contextAt now) query.link assessment.metric →
        ∃ record, Backs (fabric.contextAt now) query.link assessment.metric record ∧
          assessment.Covers record.observation.lane) ∧
      ∀ (config : FabricConfig) (derived : UInt64) (publishedAt : Int64) (io : InitializeIo) (disk : Disk),
        ((new config derived publishedAt).initializeFabric io disk).1 = .ok () →
        ∀ assessment ∈ (classifyLink
          (((new config derived publishedAt).initializeFabric io disk).2.contextAt now) query).metrics,
          assessment.rules = [] := by
  have hbacked : ∀ fabric : Fabric, Reachable fabric →
      ∀ assessment ∈ (classifyLink (fabric.contextAt now) query).metrics, assessment.rules ≠ [] →
        AgesFit (fabric.contextAt now) query.link assessment.metric →
        ∃ record, Backs (fabric.contextAt now) query.link assessment.metric record ∧
          assessment.Covers record.observation.lane := by
    intro fabric hreachable assessment hassessment hrules hfits
    obtain ⟨metric, rfl⟩ := mem_classifyLink hassessment
    obtain ⟨view, hview, hmetric, lane, candidate, hcovers, hsupported⟩ := applied_assessMetric hrules
    rw [hmetric] at hfits
    obtain ⟨record, hbacks, rfl⟩ := backs_of_supported hreachable.keyed hfits hview hsupported
    rw [← hmetric] at hbacks
    exact ⟨record, hbacks, hcovers⟩
  refine ⟨hbacked, fun config derived publishedAt io disk hopen assessment hassessment => ?_⟩
  have hrecovered := allRecovered_initializeFabric config derived publishedAt io disk
  by_contra hrules
  obtain ⟨record, hbacks, -⟩ := hbacked _ (.opened config derived publishedAt io disk hopen) assessment hassessment
    hrules fun key stream hstream record hheld _ _ hlive => by
      rw [hrecovered key stream hstream record hheld] at hlive
      cases hlive
  obtain ⟨key, stream, hstream, hheld⟩ := hbacks.retained
  have hlive := hbacks.live
  rw [hrecovered key stream hstream record hheld] at hlive
  cases hlive

/-! ## A classified gauge -/

def temperature : MetricId := ⟨.environmental, text "temperature"⟩

def coolRule : MetricRule where
  metric := temperature
  basis := .gaugeValue
  bands := [⟨text "cool", .negativeInfinity, none, .healthy, []⟩]
  conflictTolerance := .zero
  validityNanos := 0
  maxContinuityGapNanos := 0
  wrapInference := false
  wrapCeilingFraction := .threeQuarters
  wrapFloorFraction := .quarter

def gaugeConfig : FabricConfig where
  limits := .defaults
  journal := .defaults
  initialPolicy := some { PolicyDocument.named (text "plain") with rules := [coolRule], requireCapability := false }
  forcedEpoch := 1
  maxPolicyGenerations := 8

def thermometer : CapabilityDeclaration := CapabilityRegistry.revised 1 none "temperature"

def degrees (sequence : UInt64) (value : Double) : Observation where
  link := ⟨text "a", 1⟩
  source := ⟨text "s", 1⟩
  sequence := sequence
  metric := temperature
  lane := ⟨true, 0⟩
  unit := .milliDegreeCelsius
  reading := .gauge ⟨value, 0⟩
  observedAt := ⟨0, false⟩
  intervalNanos := none
  authority := 1
  provenance := ⟨default, default, [], [], false, 0⟩

def instant (steadyNanos : Int64) : ClockReading := ⟨steadyNanos, steadyNanos⟩

def gaugeStart : Fabric := ((new gaugeConfig 1 0).initializeFabric {} ⟨none, none⟩).2

def declaredAt (steadyNanos : Int64) : Fabric :=
  (gaugeStart.respond (.declareCapability thermometer, { now := instant steadyNanos })).2

def declaredFabric : Fabric := declaredAt 1

def measuredAt (steadyNanos : Int64) : Fabric :=
  ((declaredAt (steadyNanos - 1)).respond (.ingest (degrees 1 .one), { now := instant steadyNanos })).2

def measuredFabric : Fabric := measuredAt 2

theorem reachable_measuredAt (steadyNanos : Int64) : Reachable (measuredAt steadyNanos) :=
  .called (.ingest (degrees 1 .one)) { now := instant steadyNanos }
    (.called (.declareCapability thermometer) { now := instant (steadyNanos - 1) }
      (.opened gaugeConfig 1 0 {} ⟨none, none⟩ (by decide +kernel)))

theorem each_received {store : EvidenceStore} {steadyNanos : Int64}
    (h : ∀ entry ∈ store.streams.toList, ∀ record ∈ entry.2.held, record.received.steadyNanos = steadyNanos) :
    store.Each fun _ stream => ∀ record ∈ stream.held, record.received.steadyNanos = steadyNanos :=
  fun key stream hstream => h (key, stream) (ExtTreeMap.mem_toList_iff_getElem?_eq_some.mpr hstream)

theorem measured_backed :
    ∃ assessment ∈ (classifyLink (measuredFabric.contextAt (instant 3)) { link := ⟨text "a", 1⟩ }).metrics,
      assessment.rules = [text "cool"] ∧
        ∃ record, Backs (measuredFabric.contextAt (instant 3)) ⟨text "a", 1⟩ assessment.metric record ∧
          assessment.Covers record.observation.lane := by
  have happlied : ∃ assessment ∈
      (classifyLink (measuredFabric.contextAt (instant 3)) { link := ⟨text "a", 1⟩ }).metrics,
      assessment.rules = [text "cool"] := by decide +kernel
  have hreceived : (measuredFabric.contextAt (instant 3)).store.Each fun _ stream => ∀ record ∈ stream.held,
      record.received.steadyNanos = 2 := each_received (by decide +kernel)
  obtain ⟨assessment, hmem, hrules⟩ := happlied
  refine ⟨assessment, hmem, hrules, (classification_backed (instant 3) { link := ⟨text "a", 1⟩ }).1
    measuredFabric (reachable_measuredAt 2) assessment hmem (by rw [hrules]; exact List.cons_ne_nil _ _)
    fun key stream hstream record hheld _ _ _ _ => ?_⟩
  rw [hreceived key stream hstream record hheld]
  decide

/-- Between steady readings of -2 and `2 ^ 63 - 1` the age is negative in 64 bits, and the oldest record is fresh. -/
theorem ancient_measurement_classified :
    Reachable (measuredAt (-2)) ∧
      ∃ assessment ∈ (classifyLink ((measuredAt (-2)).contextAt (instant Int64.maxValue))
          { link := ⟨text "a", 1⟩ }).metrics,
        assessment.rules = [text "cool"] ∧ assessment.state = .healthy ∧
          ¬ ∃ record, Backs ((measuredAt (-2)).contextAt (instant Int64.maxValue)) ⟨text "a", 1⟩ assessment.metric
            record := by
  have happlied : ∃ assessment ∈ (classifyLink ((measuredAt (-2)).contextAt (instant Int64.maxValue))
      { link := ⟨text "a", 1⟩ }).metrics, assessment.rules = [text "cool"] ∧ assessment.state = .healthy := by
    decide +kernel
  have hreceived : ((measuredAt (-2)).contextAt (instant Int64.maxValue)).store.Each fun _ stream =>
      ∀ record ∈ stream.held, record.received.steadyNanos = -2 := each_received (by decide +kernel)
  obtain ⟨assessment, hmem, hrules, hstate⟩ := happlied
  refine ⟨reachable_measuredAt (-2), assessment, hmem, hrules, hstate, ?_⟩
  rintro ⟨record, hbacks⟩
  obtain ⟨key, stream, hstream, hheld⟩ := hbacks.retained
  have hage := hbacks.age
  rw [hreceived key stream hstream record hheld] at hage
  exact absurd (hage.trans_lt (Int64.toInt_lt _)) (by decide)

end Fabric

end Lqf
