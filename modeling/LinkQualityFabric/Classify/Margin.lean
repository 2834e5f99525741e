import LinkQualityFabric.Classify.Lanes

/-! The margin that the freshest evidence leaves of its window.

A lane with one winning source has a medium confidence while twice the age of its freshest record is within the window.
The window is that of the declaration in front, whatever source the record is of. The age is a difference in 64 bits,
zero where it comes out negative, and it is doubled in 64 bits too. -/
namespace Lqf
open Foundations
set_option autoImplicit false

/-! ## The age of the freshest record -/

def Contribution.age (now : ClockReading) (contribution : Contribution) : ℤ :=
  now.steadyNanos.toInt - contribution.record.received.steadyNanos.toInt

def Freshest (now : ClockReading) (epoch : UInt64) (contributions : List Contribution) (freshest : Contribution) : Prop :=
  IsBest (fun contribution => -contribution.age now) (contributions.filter (Contribution.isFresh now epoch)) freshest

/-- Some record counts as fresh with an age that does not fit into 64 bits. -/
def AgeOverflows (now : ClockReading) (epoch : UInt64) (contributions : List Contribution) : Prop :=
  ∃ contribution ∈ contributions, contribution.isFresh now epoch = true ∧ 2 ^ 63 ≤ contribution.age now

section Newest
variable {now : ClockReading} {epoch : UInt64}

/-- The age that is kept is the least one of the fresh contributions. -/
theorem noteAll_newest (contributions : List Contribution) :
    let count := FreshCount.noteAll now epoch contributions ⟨0, 0, false⟩
    (∀ found ∈ contributions, found.isFresh now epoch = true →
      count.hasAge = true ∧ count.newestAge.toInt ≤ (found.freshness now epoch).2.toInt) ∧
      (count.hasAge = true → ∃ found ∈ contributions, found.isFresh now epoch = true ∧
        count.newestAge = (found.freshness now epoch).2) := by
  induction contributions using List.reverseRecOn with
  | nil => exact ⟨fun _ h => absurd h List.not_mem_nil, fun h => absurd h Bool.false_ne_true⟩
  | append_singleton rest last ih =>
    simp only [FreshCount.noteAll, List.foldl_append, List.foldl_cons, List.foldl_nil] at ih ⊢
    generalize List.foldl _ _ rest = count at ih ⊢
    obtain ⟨hleast, hkept⟩ := ih
    unfold FreshCount.note
    simp only [Int64.lt_iff_toInt_lt]
    grind [Contribution.isFresh]

theorem fresh_age {contribution : Contribution} (hfresh : contribution.isFresh now epoch = true)
    (hbefore : contribution.record.received.steadyNanos ≤ now.steadyNanos) :
    0 ≤ contribution.age now ∧ (contribution.freshness now epoch).2.toInt =
      if contribution.age now < 2 ^ 63 then contribution.age now else 0 := by
  obtain ⟨hlive, hepoch, -, -⟩ := recordIsFresh_iff.mp hfresh
  have horder := Int64.le_iff_toInt_le.mp hbefore
  have hclamped : (contribution.freshness now epoch).2 =
      if now.steadyNanos - contribution.record.received.steadyNanos < 0 then 0
      else now.steadyNanos - contribution.record.received.steadyNanos := by
    rw [Contribution.freshness, recordIsFresh, if_neg (by simp [hlive, hepoch])]
  have hlow := contribution.record.received.steadyNanos.le_toInt
  have hhigh := now.steadyNanos.toInt_lt
  rw [hclamped]
  unfold Contribution.age
  refine ⟨Int.sub_nonneg_of_le horder, ?_⟩
  by_cases hfits : now.steadyNanos.toInt - contribution.record.received.steadyNanos.toInt < 2 ^ 63
  · have hage := toInt_age hbefore hfits
    have hpast : ¬ now.steadyNanos - contribution.record.received.steadyNanos < 0 := by
      rw [Int64.not_lt, Int64.le_iff_toInt_le, hage]
      exact Int.sub_nonneg_of_le horder
    rw [if_pos hfits, if_neg hpast, hage]
  · -- the difference wraps to a negative one
    have hwrapped : now.steadyNanos - contribution.record.received.steadyNanos < 0 := by
      rw [Int64.lt_iff_toInt_lt, Int64.toInt_sub, Int.bmod_def, Int64.toInt_zero]
      omega
    rw [if_neg hfits, if_pos hwrapped, Int64.toInt_zero]

/-- The age the lane goes by is that of its freshest record, or zero once an age overflows. -/
theorem Freshest.newestAge {contributions : List Contribution} {freshest : Contribution}
    (h : Freshest now epoch contributions freshest)
    (hbefore : ∀ found ∈ contributions, found.isFresh now epoch = true →
      found.record.received.steadyNanos ≤ now.steadyNanos) :
    (AgeOverflows now epoch contributions →
      (FreshCount.noteAll now epoch contributions ⟨0, 0, false⟩).newestAge.toInt = 0) ∧
    (¬ AgeOverflows now epoch contributions →
      (FreshCount.noteAll now epoch contributions ⟨0, 0, false⟩).newestAge.toInt = freshest.age now) := by
  obtain ⟨hmem, hisFresh⟩ := List.mem_filter.mp h.mem
  obtain ⟨hleast, hkept⟩ := @noteAll_newest now epoch contributions
  obtain ⟨youngest, hfound, hfresh, hnewest⟩ := hkept (hleast freshest hmem hisFresh).1
  obtain ⟨hnonneg, hage⟩ := fresh_age hfresh (hbefore youngest hfound hfresh)
  rw [hnewest] at hleast ⊢
  refine ⟨?_, fun hfits => ?_⟩
  · rintro ⟨old, hold, holds, hover⟩
    have hzero := (hleast old hold holds).2
    rw [(fresh_age holds (hbefore old hold holds)).2, if_neg (by omega), hage] at hzero
    rw [hage]
    split at hzero <;> omega
  · have hshort : ∀ other ∈ contributions, other.isFresh now epoch = true → other.age now < 2 ^ 63 :=
      fun other hother hisFresh => not_le.mp fun hover => hfits ⟨other, hother, hisFresh, hover⟩
    have hupper := h.upper youngest (List.mem_filter.mpr ⟨hfound, hfresh⟩)
    have hlower := (hleast freshest hmem hisFresh).2
    rw [(fresh_age hisFresh (hbefore freshest hmem hisFresh)).2, if_pos (hshort freshest hmem hisFresh)] at hlower
    rw [hage, if_pos (hshort youngest hfound hfresh)] at hlower ⊢
    omega

end Newest

/-! ## The margin -/

theorem double_le_iff {age window : Int64} (hage : 0 ≤ age.toInt) (hwindow : 0 < window.toInt) :
    age * 2 ≤ window ↔ 2 * age.toInt ≤ window.toInt ∨ 2 ^ 63 ≤ 2 * age.toInt := by
  have hlt := age.toInt_lt
  have hdouble : (age * 2).toInt = (age.toInt * 2).bmod (2 ^ 64) := Int64.toInt_mul age 2
  rw [Int64.le_iff_toInt_le, hdouble]
  have hsmall := window.toInt_lt
  rw [Int.bmod_def]
  split <;> omega

theorem confidenceFor_of_one {state : QualityState} (hstate : state.Classified) (age validity : Int64) :
    confidenceFor state 1 age true validity =
      if validity ≤ 0 then .medium else if age * 2 ≤ validity then .medium else .low := by
  rcases hstate with rfl | rfl | rfl | rfl <;> simp [confidenceFor]

section Lane
variable {context : ClassifierContext} {link : LinkIdentity} {metric : MetricId} {lane : LaneDimension}
  {view : MetricCapabilityView} {query : QualityQuery}

theorem contributions_received {found : Contribution}
    (h : found ∈ contributions context link metric lane view.declaredBy)
    (hfresh : found.isFresh context.now context.epoch = true) :
    found.record.received.steadyNanos ≤ context.now.steadyNanos := by
  obtain ⟨entry, -, hcontribution⟩ := List.mem_filterMap.mp h
  obtain ⟨-, -, -, declaration, record, -, hrecord, rfl⟩ := contribution_eq_some context link metric lane hcontribution
  obtain ⟨hlive, hepoch, -, -⟩ := recordIsFresh_iff.mp hfresh
  exact @receivedAfter_eq_false _ _ record hlive hepoch (newestAtOrBefore_held hrecord).2

section
variable (hstate : (assessLane context link metric lane view query).state.Classified)
  (hone : ((winners (candidates context link metric lane view.declaredBy)).map Candidate.source).dedup.length = 1)
  {freshest : Contribution} (hfreshest : Freshest context.now context.epoch
    (contributions context link metric lane view.declaredBy) freshest)
include hstate hone hfreshest

theorem confidence_of_one : (assessLane context link metric lane view query).confidence =
      if validityFor context.policy (context.policy.document.findRule metric) metric.family view.declaredBy.head? ≤ 0 then
        .medium else if (FreshCount.noteAll context.now context.epoch
            (contributions context link metric lane view.declaredBy) ⟨0, 0, false⟩).newestAge * 2 ≤
          validityFor context.policy (context.policy.document.findRule metric) metric.family view.declaredBy.head? then
        .medium else .low := by
  have hcollected := collected_collectLane context link metric lane view.declaredBy query.maxEvidencePerMetric.toNat
  obtain ⟨hmem, hfresh⟩ := List.mem_filter.mp hfreshest.mem
  have hhas := (noteAll_newest _).1 freshest hmem hfresh |>.1
  have hhas' := congrArg FreshCount.hasAge hcollected.freshCount
  have hage' := congrArg FreshCount.newestAge hcollected.freshCount
  cases judged_assessLane context link metric lane view query with
  | silent _ _ _ hnumberless =>
    generalize (assessLane context link metric lane view query).state = state at hstate hnumberless
    rcases hstate with rfl | rfl | rfl | rfl <;> simp [numberless] at hnumberless
  | unclassified _ _ _ _ hunknown _ =>
    rw [hunknown] at hstate
    exact absurd hstate (by decide)
  | classified hrule _ _ _ hband hconfidence =>
    rw [hconfidence, ← hband, collectLane_candidates, hone]
    rw [show (laneOf context link metric lane view query).hasFreshAge = true from hhas'.trans hhas,
      show (laneOf context link metric lane view query).newestFreshAge = _ from hage']
    exact confidenceFor_of_one hstate _ _

/-- **The confidence of a lane with one winning source goes by the window of its freshest record exactly when** the
window of the declaration in front says the same about twice its age, and neither the age nor its double overflows. -/
theorem margin_of_own_window_iff :
    let age := freshest.age context.now
    let overflows := AgeOverflows context.now context.epoch (contributions context link metric lane view.declaredBy)
    let window := (validityFor context.policy (context.policy.document.findRule metric) metric.family
      view.declaredBy.head?).toInt
    (assessLane context link metric lane view query).confidence =
        (if 2 * age ≤ freshest.validity.toInt then .medium else .low) ↔
      (window ≤ 0 ∨ overflows → 2 * age ≤ freshest.validity.toInt) ∧
        (0 < window → ¬ overflows → 2 * age < 2 ^ 63 ∧ (2 * age ≤ window ↔ 2 * age ≤ freshest.validity.toInt)) := by
  intro age overflows window
  have hown := freshest.validity.toInt_lt
  obtain ⟨hmem, hfresh⟩ := List.mem_filter.mp hfreshest.mem
  have hage : 0 ≤ age := (fresh_age hfresh (contributions_received hmem hfresh)).1
  obtain ⟨hover, hfits⟩ := hfreshest.newestAge fun found hfound => contributions_received hfound
  rw [confidence_of_one hstate hone hfreshest]
  generalize (FreshCount.noteAll context.now context.epoch (contributions context link metric lane view.declaredBy)
    ⟨0, 0, false⟩).newestAge = newest at hover hfits ⊢
  have hlevels : ∀ (a b : Prop) [Decidable a] [Decidable b],
      ((if a then ConfidenceLevel.medium else .low) = if b then .medium else .low) ↔ (a ↔ b) := by
    intro a b _ _
    by_cases ha : a <;> by_cases hb : b <;> simp [ha, hb]
  by_cases hpositive : 0 < window
  · have hnot : ¬ validityFor context.policy (context.policy.document.findRule metric) metric.family
        view.declaredBy.head? ≤ 0 := by
      rw [Int64.not_le, Int64.lt_iff_toInt_lt]
      exact hpositive
    rw [if_neg hnot, hlevels]
    by_cases hold : overflows
    · have hzero := hover hold
      rw [double_le_iff (by omega) hpositive, hzero]
      simp only [hold, or_true, true_imp_iff, not_true_eq_false, false_imp_iff, imp_true_iff, and_true]
      omega
    · have hexact : newest.toInt = age := hfits hold
      rw [double_le_iff (by omega) hpositive, hexact]
      simp only [hold, or_false, not_false_eq_true, true_imp_iff]
      omega
  · have hnone : validityFor context.policy (context.policy.document.findRule metric) metric.family
        view.declaredBy.head? ≤ 0 := by
      rw [Int64.le_iff_toInt_le]
      exact not_lt.mp hpositive
    rw [if_pos hnone]
    have hmedium := hlevels True (2 * age ≤ freshest.validity.toInt)
    rw [if_pos trivial, true_iff] at hmedium
    rw [hmedium]
    exact ⟨fun h => ⟨fun _ => h, fun h => absurd h hpositive⟩, fun h => h.1 (.inl (not_lt.mp hpositive))⟩

end

end Lane

/-! ## A source that is slower than the one in front -/

namespace Fabric

def slowThermometer : CapabilityDeclaration :=
  { thermometer with
    source := ⟨text "t", 1⟩
    metrics := [⟨temperature, .milliDegreeCelsius, .gauge, .unspecified, false, 0, 100000000000⟩] }

def slowlyMeasured (instantOfQuery : Int64) : ClassifierContext :=
  (machine.final declaredFabric [(.declareCapability slowThermometer, { now := instant 1 }),
    (.ingest (degreesBySecond 1 .one), { now := instant 2 })]).contextAt (instant instantOfQuery)

def slowLane (context : ClassifierContext) : MetricAssessment :=
  assessLane context wholeLink.link temperature ⟨true, 0⟩ (metricView context wholeLink temperature) wholeLink

/-- Eight seconds of a hundred are a low confidence, since the window in front has fifteen. -/
theorem slow_source_low :
    (slowLane (slowlyMeasured 8000000002)).state = .healthy ∧
      (slowLane (slowlyMeasured 8000000002)).confidence = .low ∧
      (contributions (slowlyMeasured 8000000002) wholeLink.link temperature ⟨true, 0⟩
        (metricView (slowlyMeasured 8000000002) wholeLink temperature).declaredBy).map
          (fun found => (found.isFresh (instant 8000000002) 1, found.age (instant 8000000002), found.validity)) =
        [(true, 8000000000, 100000000000)] := by
  decide +kernel

theorem slow_source_medium : (slowLane (slowlyMeasured 1000000002)).confidence = .medium := by
  have hstate : (slowLane (slowlyMeasured 1000000002)).state.Classified := by decide +kernel
  have hone : ((winners (candidates (slowlyMeasured 1000000002) wholeLink.link temperature ⟨true, 0⟩
      (metricView (slowlyMeasured 1000000002) wholeLink temperature).declaredBy)).map Candidate.source).dedup.length =
        1 := by decide +kernel
  have hfound : (contributions (slowlyMeasured 1000000002) wholeLink.link temperature ⟨true, 0⟩
      (metricView (slowlyMeasured 1000000002) wholeLink temperature).declaredBy).map
        (fun found => (found.isFresh (slowlyMeasured 1000000002).now (slowlyMeasured 1000000002).epoch,
          found.age (slowlyMeasured 1000000002).now, found.validity)) = [(true, 1000000000, 100000000000)] := by
    decide +kernel
  have hwindow : validityFor (slowlyMeasured 1000000002).policy
      ((slowlyMeasured 1000000002).policy.document.findRule temperature) temperature.family
      (metricView (slowlyMeasured 1000000002) wholeLink temperature).declaredBy.head? = 15000000000 := by decide +kernel
  generalize slowlyMeasured 1000000002 = context at hstate hone hfound hwindow ⊢
  obtain ⟨freshest, hlist, hentry⟩ := List.map_eq_singleton_iff.mp hfound
  obtain ⟨hfresh, hpair⟩ := Prod.mk.inj hentry
  obtain ⟨hage, hvalidity⟩ := Prod.mk.inj hpair
  have hfreshest : Freshest context.now context.epoch (contributions context wholeLink.link temperature ⟨true, 0⟩
      (metricView context wholeLink temperature).declaredBy) freshest := by
    rw [Freshest, hlist, List.filter_singleton, hfresh]
    exact ⟨List.mem_singleton_self _, fun other hother => by rw [List.mem_singleton.mp hother]⟩
  have hfits : ¬ AgeOverflows context.now context.epoch (contributions context wholeLink.link temperature ⟨true, 0⟩
      (metricView context wholeLink temperature).declaredBy) := by
    rintro ⟨found, hmem, -, hover⟩
    rw [hlist, List.mem_singleton] at hmem
    rw [hmem, hage] at hover
    exact absurd hover (by decide)
  have hmargin := margin_of_own_window_iff hstate hone hfreshest
  rw [hage, hvalidity, hwindow] at hmargin
  exact hmargin.mpr ⟨fun _ => by decide, fun _ _ => by decide⟩

end Fabric

end Lqf
