import LinkQualityFabric.Classify.Candidates

/-! Authority and conflict.

The candidates of the highest authority decide a lane. Those below it are told apart only in the reasons, so the
verdict is the same without the streams behind them. The deciding candidates are compared by the spread between the
largest and the smallest value, which is over the tolerance exactly when two of them are apart by more, unless the
spread is rounded onto the tolerance. -/
namespace Lqf
open Foundations
open Std (ExtTreeMap)
set_option autoImplicit false

/-! ## The candidates of the highest authority -/

theorem bestAuthority_isBest {candidates : List Candidate} (h : candidates ≠ []) :
    IsBest UInt64.toNat (candidates.map Candidate.authority) (bestAuthority candidates) := by
  have hselect : ∀ kept found : UInt64, True → True →
      (if kept < found then found else kept) = if kept.toNat < found.toNat then found else kept := by
    intro kept found _ _
    simp only [UInt64.lt_iff_toNat_lt]
  have hbest : IsBest UInt64.toNat (0 :: candidates.map Candidate.authority) (bestAuthority candidates) :=
    foldl_select UInt64.toNat (fun _ => True) (fun kept found => if kept < found then found else kept)
      Candidate.authority hselect candidates trivial fun _ _ => trivial
  refine ⟨?_, fun value hvalue => hbest.upper value (List.mem_cons_of_mem _ hvalue)⟩
  rcases List.mem_cons.mp hbest.mem with hzero | hmem
  · -- Nothing is above zero, so any candidate has the authority zero.
    obtain ⟨first, rest, rfl⟩ := List.exists_cons_of_ne_nil h
    have hfirst := hbest.upper first.authority (by simp)
    rw [hzero] at hfirst ⊢
    have hsame : first.authority = 0 := UInt64.toNat_inj.mp (Nat.le_zero.mp hfirst)
    simp [hsame]
  · exact hmem

theorem mem_winners {candidates : List Candidate} {candidate : Candidate} : candidate ∈ winners candidates ↔
      candidate ∈ candidates ∧ candidate.authority = bestAuthority candidates := by
  unfold winners
  rw [List.mem_insertionSort, List.mem_filter, decide_eq_true_eq]

theorem winners_length_le (candidates : List Candidate) : (winners candidates).length ≤ candidates.length := by
  unfold winners
  rw [List.length_insertionSort]
  exact List.length_filter_le _ _

theorem winners_ne_nil {candidates : List Candidate} (h : candidates ≠ []) : winners candidates ≠ [] := by
  obtain ⟨candidate, hmem, hauthority⟩ := List.mem_map.mp (bestAuthority_isBest h).mem
  exact List.ne_nil_of_mem (mem_winners.mpr ⟨hmem, hauthority⟩)

theorem winners_filter {candidates : List Candidate} {best : UInt64}
    (hbest : IsBest UInt64.toNat (candidates.map Candidate.authority) best) :
    winners (candidates.filter fun candidate => !decide (candidate.authority < best)) = winners candidates := by
  have hne : candidates ≠ [] := by
    rintro rfl
    exact List.not_mem_nil hbest.mem
  have hsame := hbest.unique (fun _ _ => UInt64.toNat_inj.mp) (bestAuthority_isBest hne)
  obtain ⟨top, htop, hauthority⟩ := List.mem_map.mp hbest.mem
  have hkept : (candidates.filter fun candidate => !decide (candidate.authority < best)) =
      candidates.filter fun candidate => candidate.authority = best := by
    refine List.filter_congr fun candidate hcandidate => ?_
    have hupper := hbest.upper candidate.authority (List.mem_map_of_mem hcandidate)
    rw [← decide_not, decide_eq_decide, UInt64.lt_iff_toNat_lt, ← UInt64.toNat_inj]
    omega
  have hagain : bestAuthority (candidates.filter fun candidate => candidate.authority = best) = best := by
    have hmem : top ∈ candidates.filter fun candidate => candidate.authority = best :=
      List.mem_filter.mpr ⟨htop, decide_eq_true hauthority⟩
    obtain ⟨other, hother, heq⟩ := List.mem_map.mp (bestAuthority_isBest (List.ne_nil_of_mem hmem)).mem
    rw [← heq]
    exact of_decide_eq_true (List.mem_filter.mp hother).2
  unfold winners
  rw [hkept, hagain, ← hsame, List.filter_filter]
  simp only [Bool.and_self]

/-! ## The spread of the winners -/

/-- The largest difference, if it is over the tolerance, is not rounded onto it. -/
def SpreadKept (tolerance : Double) (values : List Double) : Prop :=
  ∀ highest ∈ values, ∀ lowest ∈ values,
    (∀ a ∈ values, ∀ b ∈ values, |a.value - b.value| ≤ |highest.value - lowest.value|) →
      tolerance.value < |highest.value - lowest.value| → (highest.sub lowest).value ≠ tolerance.value

theorem SpreadKept.of_mem {tolerance : Double} {values values' : List Double} (h : SpreadKept tolerance values)
    (hmem : ∀ value, value ∈ values' ↔ value ∈ values) : SpreadKept tolerance values' := by
  unfold SpreadKept at h ⊢
  simpa only [hmem] using h

section Spread
variable {first : Candidate} {candidates : List Candidate} {tolerance : Double}

section
variable (hfirst : first ∈ candidates) (hfinite : ∀ candidate ∈ candidates, candidate.value.isFinite = true)
include hfirst hfinite

theorem spreadOf_eq :
    ∃ highest ∈ candidates, ∃ lowest ∈ candidates, spreadOf first candidates =
        (if (highest.value.sub lowest.value).isFinite then highest.value.sub lowest.value else .positiveInfinity) ∧
      ∀ candidate ∈ candidates,
        lowest.value.units ≤ candidate.value.units ∧ candidate.value.units ≤ highest.value.units := by
  have hvalues : ∀ value : Double, value ∈ first.value :: candidates.map Candidate.value ↔
      value ∈ candidates.map Candidate.value := by
    intro value
    simp only [List.mem_cons, or_iff_right_iff_imp]
    rintro rfl
    exact List.mem_map_of_mem hfirst
  have hhighest := (foldl_select Double.units (fun value => value.isFinite = true) Double.maximum Candidate.value
    (fun _ _ => Double.maximum_eq) candidates (hfinite first hfirst) hfinite).perm fun value => (hvalues value).symm
  have hlowest := (foldl_select (fun value => -value.units) (fun value => value.isFinite = true) Double.minimum
    Candidate.value (fun _ _ => Double.minimum_eq) candidates (hfinite first hfirst) hfinite).perm
      fun value => (hvalues value).symm
  obtain ⟨highest, hhigh, hhighvalue⟩ := List.mem_map.mp hhighest.mem
  obtain ⟨lowest, hlow, hlowvalue⟩ := List.mem_map.mp hlowest.mem
  refine ⟨highest, hhigh, lowest, hlow, ?_, fun candidate hcandidate => ⟨?_, ?_⟩⟩
  · unfold spreadOf
    dsimp only
    rw [← hhighvalue, ← hlowvalue]
  · have hupper := hlowest.upper candidate.value (List.mem_map_of_mem hcandidate)
    rw [← hlowvalue] at hupper
    exact neg_le_neg_iff.mp hupper
  · have hupper := hhighest.upper candidate.value (List.mem_map_of_mem hcandidate)
    rwa [← hhighvalue] at hupper

theorem disagree_iff (hbound : tolerance.isFinite = true) (hnonneg : 0 ≤ tolerance.units)
    (hkept : SpreadKept tolerance (candidates.map Candidate.value)) :
    (2 ≤ candidates.length ∧ (spreadOf first candidates).le tolerance = false) ↔
      ∃ a ∈ candidates, ∃ b ∈ candidates, tolerance.value < |a.value.value - b.value.value| := by
  obtain ⟨highest, hhigh, lowest, hlow, hspread, hbetween⟩ := spreadOf_eq hfirst hfinite
  have horder := (hbetween highest hhigh).1
  have hwidest : ∀ a ∈ candidates, ∀ b ∈ candidates,
      |a.value.units - b.value.units| ≤ highest.value.units - lowest.value.units := by
    intro a ha b hb
    have hbounds := hbetween a ha
    have hbounds' := hbetween b hb
    rw [abs_le]
    omega
  have hspreads : |highest.value.units - lowest.value.units| = highest.value.units - lowest.value.units :=
    abs_of_nonneg (by omega)
  have hrounded : tolerance.units < highest.value.units - lowest.value.units →
      (highest.value.sub lowest.value).units ≠ tolerance.units := by
    intro hover hsame
    refine hkept _ (List.mem_map_of_mem hhigh) _ (List.mem_map_of_mem hlow) ?_ ?_ (Double.value_inj.mpr hsame)
    · simp only [List.forall_mem_map]
      intro a ha b hb
      rw [Double.abs_value_le_iff, hspreads]
      exact hwidest a ha b hb
    · rwa [Double.value_lt_abs_iff, hspreads]
  simp only [Double.value_lt_abs_iff]
  rw [← Bool.not_eq_true, hspread,
    Double.spread_le_iff (hfinite highest hhigh) (hfinite lowest hlow) horder hbound hnonneg hrounded, not_le]
  constructor
  · rintro ⟨-, hover⟩
    exact ⟨highest, hhigh, lowest, hlow, hover.trans_le (le_abs_self _)⟩
  · rintro ⟨a, ha, b, hb, hover⟩
    refine ⟨?_, hover.trans_le (hwidest a ha b hb)⟩
    by_contra hshort
    have hpositive := List.length_pos_of_mem ha
    obtain ⟨only, honly⟩ := List.length_eq_one_iff.mp (show candidates.length = 1 by omega)
    have hsame : a = b := by
      rw [honly, List.mem_singleton] at ha hb
      rw [ha, hb]
    rw [hsame, sub_self, abs_zero] at hover
    omega

end

end Spread

/-! ## Conflicts -/

def MetricAssessment.ReportsConflict (assessment : MetricAssessment) : Prop :=
  2 ≤ assessment.sourcesConflicting ∧ .equalAuthorityDisagreement ∈ assessment.reasons

instance (assessment : MetricAssessment) : Decidable assessment.ReportsConflict :=
  inferInstanceAs (Decidable (_ ∧ _))

/-- How far apart values of equal authority may be: without a rule, not at all. -/
def PolicyDocument.toleranceFor (document : PolicyDocument) (metric : MetricId) : Double :=
  ((document.findRule metric).map MetricRule.conflictTolerance).getD .zero

theorem mem_addReason (reasons : ReasonList) {code : ReasonCode} (h : code ≠ .none) : code ∈ addReason reasons code := by
  unfold addReason
  split
  · next hknown => exact hknown.resolve_left h
  · simp

theorem assessWinners_reportsConflict (rule : Option MetricRule) (validity : Int64) (lane : LaneContext)
    (first : Candidate) {candidates : List Candidate} (hroom : candidates.length < 2 ^ 32)
    {assessment : MetricAssessment} (hnone : assessment.sourcesConflicting = 0) :
    (assessWinners rule validity lane first candidates assessment).ReportsConflict ↔ 2 ≤ candidates.length ∧
        (spreadOf first candidates).le ((rule.map MetricRule.conflictTolerance).getD .zero) = false := by
  have hsilent : ∀ other : MetricAssessment, other.sourcesConflicting = 0 → ¬ other.ReportsConflict := by
    rintro other hother ⟨hmany, -⟩
    rw [hother] at hmany
    exact absurd hmany (by decide)
  unfold assessWinners
  dsimp only
  split
  · next hover =>
    refine iff_of_true ⟨?_, mem_addReason _ (by decide)⟩ hover
    rw [UInt32.le_iff_toNat_le, UInt32.toNat_ofNat_of_lt' hroom]
    exact hover.1
  · next hagree =>
    refine iff_of_false (hsilent _ ?_) hagree
    cases rule with
    | none => exact hnone
    | some rule =>
      unfold assessValue
      dsimp only
      split <;> exact hnone

theorem contributions_length_le (context : ClassifierContext) (link : LinkIdentity) (metric : MetricId)
    (lane : LaneDimension) (declared : List DeclaredSource) :
    (contributions context link metric lane declared).length ≤ (context.store.linkStreams link).length := by
  unfold contributions EvidenceStore.linkStreams EvidenceStore.streamKeys
  rw [List.length_filterMap_eq_countP, ← List.countP_eq_length_filter, ← ExtTreeMap.map_fst_toList_eq_keys,
    List.countP_map]
  refine List.countP_mono_left fun entry _ hentry => ?_
  by_contra hother
  have hnone : contribution context link metric lane declared entry.1 entry.2 = none :=
    if_pos (.inl (by simpa using hother))
  rw [hnone] at hentry
  cases hentry

namespace Fabric

theorem Sound.streamsPerLink {fabric : Fabric} (h : fabric.Sound) : fabric.config.limits.maxStreamsPerLink ≤ 2 ^ 20 := by
  have hchecked := h.checked
  rw [checkConfig, Outcome.check_bind_eq_ok] at hchecked
  have hvalid := hchecked.1
  simp only [FabricLimits.validate, Outcome.check_bind_eq_ok, requireBetween_eq_ok] at hvalid
  exact hvalid.2.2.2.1.2

theorem Reachable.tolerance {fabric : Fabric} (h : Reachable fabric) (metric : MetricId) :
    (fabric.policies.current.document.toleranceFor metric).isFinite = true ∧
      0 ≤ (fabric.policies.current.document.toleranceFor metric).units := by
  have hvalid := h.policies fabric.policies.current (List.getLast_mem fabric.policies.nonempty)
  unfold PolicyDocument.toleranceFor
  cases hrule : fabric.policies.current.document.findRule metric with
  | none => exact ⟨rfl, le_of_eq rfl⟩
  | some rule =>
    simp only [PolicyChecks.validate, validatePolicy, Outcome.check_bind_eq_ok] at hvalid
    obtain ⟨-, -, hrules, -⟩ := hvalid
    obtain ⟨seen, hchecked⟩ := validateRules_each hrules rule (List.mem_of_find?_eq_some hrule)
    simp only [validateRule, Outcome.check_bind_eq_ok, Outcome.refuseIf_eq_ok] at hchecked
    obtain ⟨-, -, -, htolerance, -⟩ := hchecked
    simp only [not_or, Bool.not_eq_false] at htolerance
    exact ⟨htolerance.2, (Double.le_iff_units rfl htolerance.2).mp htolerance.1⟩

end Fabric

/-! ## Streams of lower authority -/

/-- The record a stream is judged by is of lower authority. -/
def selectsLower (context : ClassifierContext) (best : UInt64) (stream : StreamState) : Bool :=
  (newestAtOrBefore stream context.now context.epoch).any fun record => record.observation.authority < best

section Lower
variable {context context' : ClassifierContext} {link : LinkIdentity} {metric : MetricId} {lane : LaneDimension}
  {view : MetricCapabilityView} {best : UInt64}

theorem selectsLower_of_contribution {declared : List DeclaredSource} {key : StreamKey} {stream : StreamState}
    {found : Contribution} (h : contribution context link metric lane declared key stream = some found) :
    selectsLower context best stream = decide (found.record.observation.authority < best) := by
  unfold contribution at h
  split at h
  · cases h
  · split at h
    · cases h
    · obtain ⟨record, hrecord, rfl⟩ := Option.map_eq_some_iff.mp h
      rw [selectsLower, hrecord]
      rfl

section
variable (hnow : context'.now = context.now) (hepoch : context'.epoch = context.epoch)
  (hpolicy : context'.policy = context.policy)
  (hstreams : ∀ key : StreamKey, context'.store.streams[key]? =
    (context.store.streams[key]?).filter fun stream => !selectsLower context best stream)
  (declared : List DeclaredSource)
include hnow hepoch hpolicy hstreams declared

theorem contributions_without_lower : contributions context' link metric lane declared =
      (contributions context link metric lane declared).filter fun contribution =>
        !decide (contribution.record.observation.authority < best) := by
  have hkeys : ∀ key : StreamKey,
      ((context'.store.streams[key]?).bind (contribution context link metric lane declared key)) =
        (context.store.streams[key]?).bind fun stream =>
          (contribution context link metric lane declared key stream).filter fun contribution =>
            !decide (contribution.record.observation.authority < best) := by
    intro key
    rw [hstreams key]
    cases context.store.streams[key]? with
    | none => rfl
    | some stream =>
      simp only [Option.filter_some, Option.bind_some]
      cases hfound : contribution context link metric lane declared key stream with
      | none => split <;> simp [hfound]
      | some found =>
        rw [selectsLower_of_contribution hfound, Option.filter_some]
        split <;> simp [hfound]
  have hlist := filterMap_toList_eq hkeys
  unfold contributions
  rw [contribution_congr (congrArg _ hpolicy) hnow hepoch, hlist, List.filter_filterMap]

theorem candidates_without_lower : candidates context' link metric lane declared =
      (candidates context link metric lane declared).filter fun candidate => !decide (candidate.authority < best) := by
  unfold candidates
  rw [contributions_without_lower hnow hepoch hpolicy hstreams, hnow, hepoch, hpolicy, List.filterMap_filter,
    List.filter_filterMap]
  refine List.filterMap_congr fun contribution _ => ?_
  cases hcandidate : contribution.candidate? context.now context.epoch
      context.policy.document.freshness.minRateIntervalNanos with
  | none => split <;> rfl
  | some candidate => rw [Option.filter_some, (candidate?_eq_some hcandidate).2.2.2.1]

end

theorem verdict_without_lower (hnow : context'.now = context.now) (hepoch : context'.epoch = context.epoch)
    (hpolicy : context'.policy = context.policy) (query : QualityQuery)
    (hbest : IsBest UInt64.toNat ((candidates context link metric lane view.declaredBy).map Candidate.authority) best)
    (hstreams : ∀ key : StreamKey, context'.store.streams[key]? =
      (context.store.streams[key]?).filter fun stream => !selectsLower context best stream) :
    (assessLane context' link metric lane view query).verdict =
      (assessLane context link metric lane view query).verdict := by
  have hwinners : winners (candidates context' link metric lane view.declaredBy) =
      winners (candidates context link metric lane view.declaredBy) := by
    rw [candidates_without_lower hnow hepoch hpolicy hstreams, winners_filter hbest]
  have hcandidates : candidates context link metric lane view.declaredBy ≠ [] := by
    intro hnone
    rw [hnone] at hbest
    exact List.not_mem_nil hbest.mem
  have hcandidates' : candidates context' link metric lane view.declaredBy ≠ [] := by
    intro hnone
    rw [hnone] at hwinners
    exact winners_ne_nil hcandidates hwinners.symm
  rw [assessLane_of_candidates context link metric lane view query hcandidates,
    assessLane_of_candidates context' link metric lane view query hcandidates', hpolicy]
  refine assessCandidates_verdict (by simp only [assessmentOf]) (by simp only [MetricAssessment.verdict, assessmentOf]) ?_
  rw [collectLane_candidates, collectLane_candidates, hwinners]

end Lower

namespace Fabric

theorem Reachable.reportsConflict_iff {fabric : Fabric} (h : Reachable fabric) (now : ClockReading)
    (link : LinkIdentity) (metric : MetricId) (lane : LaneDimension) (view : MetricCapabilityView) (query : QualityQuery)
    (hcandidates : candidates (fabric.contextAt now) link metric lane view.declaredBy ≠ []) {decisive : List Candidate}
    (hwinners : winners (candidates (fabric.contextAt now) link metric lane view.declaredBy) = decisive)
    (hfinite : ∀ winner ∈ decisive, winner.value.isFinite = true)
    (hkept : SpreadKept (fabric.policies.current.document.toleranceFor metric) (decisive.map Candidate.value)) :
    (assessLane (fabric.contextAt now) link metric lane view query).ReportsConflict ↔ ∃ a ∈ decisive, ∃ b ∈ decisive,
      (fabric.policies.current.document.toleranceFor metric).value < |a.value.value - b.value.value| := by
  have hroom : decisive.length < 2 ^ 32 := by
    have hfiltered : (candidates (fabric.contextAt now) link metric lane view.declaredBy).length ≤
        (contributions (fabric.contextAt now) link metric lane view.declaredBy).length := List.length_filterMap_le _ _
    have hstreams := contributions_length_le (fabric.contextAt now) link metric lane view.declaredBy
    have hcounted := h.vetted.evidence.counted link
    have hbound := h.vetted.evidence.room link
    rw [h.vetted.evidenceLimits] at hbound
    have hlimit := h.sound.streamsPerLink
    have hfewer := winners_length_le (candidates (fabric.contextAt now) link metric lane view.declaredBy)
    rw [hwinners] at hfewer
    change _ ≤ (fabric.evidence.linkStreams link).length at hstreams
    omega
  rw [assessLane_of_candidates _ link metric lane view query hcandidates]
  unfold assessCandidates
  dsimp only
  rw [collectLane_candidates, hwinners]
  cases decisive with
  | nil => exact absurd hwinners (winners_ne_nil hcandidates)
  | cons first rest =>
    rw [assessWinners_reportsConflict _ _ _ first hroom rfl]
    exact disagree_iff List.mem_cons_self hfinite (h.tolerance metric).1 (h.tolerance metric).2 hkept

/-- **The highest authority decides.** Among finite values whose spread is not rounded onto the tolerance, a conflict is
reported exactly when two candidates of the highest authority are apart by more than the tolerance. Without the streams
of lower authority the verdict is the same, whatever the values are. -/
theorem highest_authority_decides {fabric : Fabric} (h : Reachable fabric) (now : ClockReading) (link : LinkIdentity)
    (metric : MetricId) (lane : LaneDimension) (view : MetricCapabilityView) (query : QualityQuery)
    {found : List Candidate} {best : UInt64} {store : EvidenceStore}
    (hfound : (collectLane (fabric.contextAt now) link metric lane view.declaredBy
      query.maxEvidencePerMetric.toNat).candidates = found)
    (hbest : IsBest UInt64.toNat (found.map Candidate.authority) best)
    (hstore : ∀ key : StreamKey, store.streams[key]? =
      (fabric.evidence.streams[key]?).filter fun stream => !selectsLower (fabric.contextAt now) best stream) :
    ((∀ a ∈ found, a.authority = best → a.value.isFinite = true) →
        SpreadKept (fabric.policies.current.document.toleranceFor metric)
          ((found.filter fun a => a.authority = best).map Candidate.value) →
        ((assessLane (fabric.contextAt now) link metric lane view query).ReportsConflict ↔
          ∃ a ∈ found, ∃ b ∈ found, a.authority = best ∧ b.authority = best ∧
            (fabric.policies.current.document.toleranceFor metric).value < |a.value.value - b.value.value|)) ∧
      (assessLane { fabric.contextAt now with store := store } link metric lane view query).verdict =
        (assessLane (fabric.contextAt now) link metric lane view query).verdict := by
  rw [collectLane_candidates] at hfound
  subst hfound
  have hcandidates : candidates (fabric.contextAt now) link metric lane view.declaredBy ≠ [] := by
    intro hnone
    rw [hnone] at hbest
    exact List.not_mem_nil hbest.mem
  have hsame := hbest.unique (fun _ _ => UInt64.toNat_inj.mp) (bestAuthority_isBest hcandidates)
  have hverdict := @verdict_without_lower (fabric.contextAt now) { fabric.contextAt now with store := store } link metric
    lane view best rfl rfl rfl query hbest hstore
  refine ⟨fun hfinite hkept => ?_, hverdict⟩
  rw [h.reportsConflict_iff now link metric lane view query hcandidates rfl]
  · simp only [mem_winners, ← hsame]
    constructor
    · rintro ⟨a, ⟨ha, hauthority⟩, b, ⟨hb, hauthority'⟩, hover⟩
      exact ⟨a, ha, b, hb, hauthority, hauthority', hover⟩
    · rintro ⟨a, ha, b, hb, hauthority, hauthority', hover⟩
      exact ⟨a, ⟨ha, hauthority⟩, b, ⟨hb, hauthority'⟩, hover⟩
  · intro a ha
    rw [mem_winners, ← hsame] at ha
    exact hfinite a ha.1 ha.2
  · refine hkept.of_mem fun value => ?_
    simp only [List.mem_map, mem_winners, List.mem_filter, decide_eq_true_eq, ← hsame]

/-! Two thermometers of one authority that disagree, by a difference that is rounded, and a third of a lower one. -/

def tenth : Double := ⟨0x3FB999999999999A⟩

def threeThermometers : MetricCapabilityView :=
  { twoThermometers with declaredBy :=
      twoThermometers.declaredBy ++ [{ (default : DeclaredSource) with source := ⟨text "u", 1⟩ }] }

def degreesByThird : Observation := { degrees 1 .one with source := ⟨text "u", 1⟩, authority := 0 }

def comparedFabric : Fabric :=
  ((measuredFabric.respond (.ingest (degreesBySecond 1 tenth), { now := instant 3 })).2.respond
    (.ingest degreesByThird, { now := instant 4 })).2

def withoutLower (context : ClassifierContext) (best : UInt64) : ClassifierContext :=
  let kept := context.store.streams.filter fun _ stream => !selectsLower context best stream
  { context with store := { context.store with streams := kept } }

theorem equal_thermometers_conflict :
    (assessLane (comparedFabric.contextAt (instant 5)) ⟨text "a", 1⟩ temperature ⟨true, 0⟩ threeThermometers
        { link := ⟨text "a", 1⟩ }).ReportsConflict ∧
      (assessLane (withoutLower (comparedFabric.contextAt (instant 5)) 1) ⟨text "a", 1⟩ temperature ⟨true, 0⟩
        threeThermometers { link := ⟨text "a", 1⟩ }).verdict =
      (assessLane (comparedFabric.contextAt (instant 5)) ⟨text "a", 1⟩ temperature ⟨true, 0⟩ threeThermometers
        { link := ⟨text "a", 1⟩ }).verdict := by
  have hreachable : Reachable comparedFabric :=
    .called (.ingest degreesByThird) { now := instant 4 } (.called (.ingest (degreesBySecond 1 tenth))
      { now := instant 3 } (reachable_measuredAt 2))
  have htolerance : (comparedFabric.policies.current.document.toleranceFor temperature).units = 0 := by decide +kernel
  have hvalues : (collectLane (comparedFabric.contextAt (instant 5)) ⟨text "a", 1⟩ temperature ⟨true, 0⟩
      threeThermometers.declaredBy 8).candidates.map (fun candidate => (candidate.authority, candidate.value)) =
        [(1, .one), (1, tenth), (0, .one)] := by decide +kernel
  generalize comparedFabric = fabric at hreachable htolerance hvalues ⊢
  obtain ⟨a, b, c, hfound⟩ := List.length_eq_three.mp ((List.length_map _).symm.trans (congrArg List.length hvalues))
  rw [hfound] at hvalues
  simp only [List.map_cons, List.map_nil, List.cons.injEq, Prod.mk.injEq, and_true] at hvalues
  obtain ⟨⟨ha, hone⟩, ⟨hb, htenth⟩, hc, -⟩ := hvalues
  have hrounds : ∀ d ∈ [Double.one, tenth], ∀ e ∈ [Double.one, tenth],
      0 < |d.units - e.units| → (d.sub e).units ≠ 0 := by decide +kernel
  have hkept : SpreadKept (fabric.policies.current.document.toleranceFor temperature)
      (([a, b, c].filter fun found => found.authority = 1).map Candidate.value) := by
    have hwinners : ([a, b, c].filter fun found => found.authority = 1).map Candidate.value = [.one, tenth] := by
      simp [ha, hone, hb, htenth, hc]
    rw [hwinners]
    intro d hd e he _ hover
    rw [Double.value_lt_abs_iff, htolerance] at hover
    rw [Ne, Double.value_inj, htolerance]
    exact hrounds d hd e he hover
  have hbest : IsBest UInt64.toNat ([a, b, c].map Candidate.authority) 1 := ⟨by simp [ha], by simp [ha, hb, hc]⟩
  have hstore : ∀ key : StreamKey, (withoutLower (fabric.contextAt (instant 5)) 1).store.streams[key]? =
      (fabric.evidence.streams[key]?).filter fun stream => !selectsLower (fabric.contextAt (instant 5)) 1 stream :=
    fun key => ExtTreeMap.getElem?_filter'
  have hdecides := highest_authority_decides hreachable (instant 5) ⟨text "a", 1⟩ temperature ⟨true, 0⟩
    threeThermometers { link := ⟨text "a", 1⟩ } hfound hbest hstore
  have hfinite : ∀ found ∈ [a, b, c], found.authority = 1 → found.value.isFinite = true := by
    simp [ha, hone, hb, htenth, hc]
    decide
  refine ⟨(hdecides.1 hfinite hkept).mpr ⟨a, by simp, b, by simp, ha, hb, ?_⟩, hdecides.2⟩
  rw [Double.value_lt_abs_iff, htolerance, hone, htenth]
  decide +kernel

end Fabric

end Lqf
