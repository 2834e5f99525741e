import LinkQualityFabric.Classify.Reading

/-! What the contributions to a lane leave in it.

Every contribution is noted with its age and its reasons, is listed while there is room, and gives at most one
candidate. Only a fresh contribution gives one, and only a fresh contribution counts for the freshness of the lane. -/
namespace Lqf
set_option autoImplicit false

/-! ## One contribution -/

def Contribution.freshness (now : ClockReading) (epoch : UInt64) (contribution : Contribution) : Bool × Int64 :=
  recordIsFresh contribution.record contribution.validity now epoch

def Contribution.isFresh (now : ClockReading) (epoch : UInt64) (contribution : Contribution) : Bool :=
  (contribution.freshness now epoch).1

/-- The candidate of a fresh counter. -/
def counterCandidate? (record : EvidenceRecord) (counter : CounterReading) (freshness : Bool × Int64) (validity : Int64)
    (minIntervalNanos : Int64) (view : ContinuityView) : Option Candidate :=
  view.delta.bind fun delta => (delta.ratePerSecond minIntervalNanos).bind fun rate =>
    if view.rateAdmissible ∧ delta.elapsedNanos ≤ validity then
      some ⟨{ referenceTo record freshness with
        counterReading := some counter.value, delta := view.delta, value := rate }, rate,
        record.observation.authority, record.observation.source⟩
    else none

def Contribution.candidate? (now : ClockReading) (epoch : UInt64) (minIntervalNanos : Int64)
    (contribution : Contribution) : Option Candidate :=
  let freshness := contribution.freshness now epoch
  let record := contribution.record
  if freshness.1 = false then none
  else
    match record.observation.reading, contribution.continuity with
    | .gauge gauge, _ =>
      some ⟨{ referenceTo record freshness with value := gauge.value }, gauge.value, record.observation.authority,
        record.observation.source⟩
    | .counter counter, some view =>
      counterCandidate? record counter freshness contribution.validity minIntervalNanos view
    | .counter _, none => none

/-- What the lane lists of a contribution. The rate of a counter is listed when it is a candidate. -/
def Contribution.reference (now : ClockReading) (epoch : UInt64) (minIntervalNanos : Int64)
    (contribution : Contribution) : EvidenceRef :=
  let reference := referenceTo contribution.record (contribution.freshness now epoch)
  match contribution.record.observation.reading, contribution.continuity with
  | .gauge gauge, _ => { reference with value := gauge.value }
  | .counter counter, some view =>
    { reference with
      counterReading := some counter.value
      delta := view.delta
      value := ((contribution.candidate? now epoch minIntervalNanos).map Candidate.value).getD .zero }
  | .counter _, none => reference

structure FreshCount where
  sources : UInt32
  newestAge : Int64
  hasAge : Bool
  deriving DecidableEq

def LaneContext.freshCount (lane : LaneContext) : FreshCount :=
  ⟨lane.sourcesFresh, lane.newestFreshAge, lane.hasFreshAge⟩

def FreshCount.note (count : FreshCount) (freshness : Bool × Int64) : FreshCount :=
  if freshness.1 = false then count
  else
    ⟨count.sources + 1,
      if count.hasAge = false ∨ freshness.2 < count.newestAge then freshness.2 else count.newestAge, true⟩

def FreshCount.noteAll (now : ClockReading) (epoch : UInt64) (contributions : List Contribution) (count : FreshCount) :
    FreshCount :=
  contributions.foldl (fun count contribution => count.note (contribution.freshness now epoch)) count

section Candidate
variable {now : ClockReading} {epoch : UInt64} {minIntervalNanos : Int64} {contribution : Contribution}
  {candidate : Candidate}

theorem candidate?_of_stale (h : contribution.isFresh now epoch = false) :
    contribution.candidate? now epoch minIntervalNanos = none :=
  if_pos h

theorem candidate?_eq_some (h : contribution.candidate? now epoch minIntervalNanos = some candidate) :
    contribution.isFresh now epoch = true ∧ candidate.reference = contribution.reference now epoch minIntervalNanos ∧
      candidate.value = candidate.reference.value ∧ candidate.authority = contribution.record.observation.authority ∧
      candidate.source = contribution.record.observation.source := by
  have hfresh : contribution.isFresh now epoch = true := by
    by_contra hstale
    rw [candidate?_of_stale (Bool.not_eq_true _ ▸ hstale)] at h
    cases h
  refine ⟨hfresh, ?_⟩
  unfold Contribution.reference
  rw [h]
  unfold Contribution.candidate? at h
  rw [Contribution.isFresh] at hfresh
  simp only [hfresh, Bool.true_eq_false, if_false] at h
  split at h
  · rw [← Option.some.inj h]
    simp
  · obtain ⟨delta, -, h⟩ := Option.bind_eq_some_iff.mp h
    obtain ⟨rate, -, h⟩ := Option.bind_eq_some_iff.mp h
    split at h
    · rw [← Option.some.inj h]
      simp
    · cases h
  · cases h

end Candidate

/-- One reading adds its candidate to the lane and leaves what the record was noted with. -/
structure Adds (candidate : Option Candidate) (lane after : LaneContext) : Prop where
  candidates : after.candidates = lane.candidates ++ candidate.toList
  freshCount : after.freshCount = lane.freshCount
  hasEvidence : after.hasEvidence = lane.hasEvidence
  hasFreshReading : (candidate.isSome = true → lane.hasFreshReading = true) → after.hasFreshReading = lane.hasFreshReading
  evidence : after.evidence = lane.evidence

section Reading
variable (record : EvidenceRecord) (freshness : Bool × Int64) (lane : LaneContext)

theorem adds_none {candidate : Option Candidate} {lane after : LaneContext} (h : candidate = none)
    (hcandidates : after.candidates = lane.candidates) (hcount : after.freshCount = lane.freshCount)
    (hevidence : after.hasEvidence = lane.hasEvidence) (hreading : after.hasFreshReading = lane.hasFreshReading)
    (hlisted : after.evidence = lane.evidence) : Adds candidate lane after :=
  ⟨by simp [h, hcandidates], hcount, hevidence, fun _ => hreading, hlisted⟩

theorem noteRecord_freshCount : (lane.noteRecord record freshness).freshCount = lane.freshCount.note freshness := by
  unfold LaneContext.noteRecord LaneContext.freshCount FreshCount.note
  cases freshness.1 <;> simp

theorem adds_collectGauge (gauge : GaugeReading) : Adds (if freshness.1 = false then none
        else some ⟨{ referenceTo record freshness with value := gauge.value }, gauge.value,
          record.observation.authority, record.observation.source⟩) lane (collectGauge record gauge freshness lane).2 := by
  unfold collectGauge
  cases hfresh : freshness.1 with
  | false => exact adds_none rfl rfl rfl rfl rfl rfl
  | true => exact ⟨rfl, rfl, rfl, fun _ => rfl, rfl⟩

theorem adds_collectCounter (counter : CounterReading) (validity minIntervalNanos : Int64) (view : ContinuityView) :
    Adds (if freshness.1 = false then none
        else counterCandidate? record counter freshness validity minIntervalNanos view) lane
        (collectCounter record counter freshness validity minIntervalNanos view lane).2 ∧
      (collectCounter record counter freshness validity minIntervalNanos view lane).1 =
        { referenceTo record freshness with
          counterReading := some counter.value
          delta := view.delta
          value := ((if freshness.1 = false then none
            else counterCandidate? record counter freshness validity minIntervalNanos view).map
              Candidate.value).getD .zero } := by
  obtain ⟨delta, admissible, event, reason⟩ := view
  unfold collectCounter counterCandidate?
  dsimp only
  cases delta with
  | none => exact ⟨adds_none (ite_self _) rfl rfl rfl rfl rfl, by simp [referenceTo]⟩
  | some delta =>
    cases hrate : delta.ratePerSecond minIntervalNanos with
    | none =>
      simp only [Option.bind_some, hrate, Option.bind_none, ite_self]
      exact ⟨adds_none rfl rfl rfl rfl rfl rfl, rfl⟩
    | some rate =>
      simp only [Option.bind_some, hrate]
      unfold collectRate
      cases hfresh : freshness.1 with
      | false => exact ⟨adds_none rfl (by simp) (by simp; rfl) (by simp) (by simp) (by simp), by simp [referenceTo]⟩
      | true =>
        by_cases hrates : admissible = true ∧ delta.elapsedNanos ≤ validity
        · simp only [hrates, and_self, Bool.true_eq_false, if_false, if_true]
          exact ⟨⟨rfl, rfl, rfl, fun h => (h rfl).symm, rfl⟩, rfl⟩
        · simp only [true_and, hrates, Bool.true_eq_false, if_false]
          exact ⟨adds_none rfl rfl rfl rfl rfl rfl, rfl⟩

end Reading

/-! ## All contributions -/

structure Collected (now : ClockReading) (epoch : UInt64) (minIntervalNanos : Int64) (maxEvidence : ℕ)
    (contributions : List Contribution) (lane : LaneContext) : Prop where
  candidates : lane.candidates = contributions.filterMap (Contribution.candidate? now epoch minIntervalNanos)
  freshCount : lane.freshCount = FreshCount.noteAll now epoch contributions ⟨0, 0, false⟩
  hasEvidence : lane.hasEvidence = !contributions.isEmpty
  hasFreshReading : lane.hasFreshReading = contributions.any (Contribution.isFresh now epoch)
  evidence : lane.evidence = (contributions.map (Contribution.reference now epoch minIntervalNanos)).take maxEvidence

def LaneContext.listing (evidence : List EvidenceRef) (lane : LaneContext) : LaneContext :=
  { lane with evidence := evidence }

section Collect
variable {now : ClockReading} {epoch : UInt64} {minIntervalNanos : Int64} {maxEvidence : ℕ}
  {passed : List Contribution} {lane : LaneContext}

theorem Adds.keep {candidate : Option Candidate} {after : LaneContext} (h : Adds candidate lane after)
    (reference : EvidenceRef) :
    Adds candidate (lane.listing (lane.evidence ++ [reference].take (maxEvidence - lane.evidence.length)))
      (after.keepReference maxEvidence reference) := by
  unfold LaneContext.keepReference
  rw [h.evidence]
  split
  · next hroom =>
    refine ⟨h.candidates, h.freshCount, h.hasEvidence, h.hasFreshReading, ?_⟩
    rw [List.take_of_length_le (by rw [List.length_singleton]; omega)]
    rfl
  · next hfull =>
    refine ⟨h.candidates, h.freshCount, h.hasEvidence, h.hasFreshReading, ?_⟩
    rw [Nat.sub_eq_zero_of_le (not_lt.mp hfull), List.take_zero, List.append_nil, h.evidence]
    rfl

theorem adds_collect (lane : LaneContext) (contribution : Contribution) :
    Adds (contribution.candidate? now epoch minIntervalNanos)
      ((lane.noteRecord contribution.record (contribution.freshness now epoch)).listing (lane.evidence ++
        [contribution.reference now epoch minIntervalNanos].take (maxEvidence - lane.evidence.length)))
      (collect now epoch minIntervalNanos maxEvidence lane contribution) := by
  obtain ⟨validity, record, continuity⟩ := contribution
  unfold collect Contribution.reference Contribution.candidate? Contribution.freshness
  dsimp only
  generalize recordIsFresh record validity now epoch = freshness
  cases hreading : record.observation.reading with
  | gauge gauge => exact (adds_collectGauge record freshness _ gauge).keep _
  | counter counter =>
    cases continuity with
    | none =>
      simp only [ite_self]
      exact (adds_none rfl rfl rfl rfl rfl rfl).keep _
    | some view =>
      obtain ⟨hadds, hreference⟩ := adds_collectCounter record freshness (lane.noteRecord record freshness) counter
        validity minIntervalNanos view
      dsimp only
      rw [hreference]
      exact hadds.keep _

theorem Collected.step (h : Collected now epoch minIntervalNanos maxEvidence passed lane) (contribution : Contribution) :
    Collected now epoch minIntervalNanos maxEvidence (passed ++ [contribution])
      (collect now epoch minIntervalNanos maxEvidence lane contribution) := by
  have hadds := @adds_collect now epoch minIntervalNanos maxEvidence lane contribution
  refine ⟨?_, ?_, ?_, ?_, ?_⟩
  · rw [hadds.candidates, List.filterMap_append]
    refine congrArg₂ _ h.candidates ?_
    cases hcandidate : contribution.candidate? now epoch minIntervalNanos <;> simp [hcandidate]
  · rw [hadds.freshCount, FreshCount.noteAll, List.foldl_append]
    refine (noteRecord_freshCount contribution.record _ lane).trans ?_
    rw [h.freshCount]
    rfl
  · rw [hadds.hasEvidence]
    simp [LaneContext.listing, LaneContext.noteRecord]
  · rw [hadds.hasFreshReading]
    · simp [LaneContext.listing, LaneContext.noteRecord, h.hasFreshReading, Contribution.isFresh]
    · intro hsome
      obtain ⟨candidate, hcandidate⟩ := Option.isSome_iff_exists.mp hsome
      have hfresh := (candidate?_eq_some hcandidate).1
      rw [Contribution.isFresh] at hfresh
      simp [LaneContext.listing, LaneContext.noteRecord, hfresh]
  · rw [hadds.evidence, List.map_append, List.take_append]
    dsimp only [LaneContext.listing]
    rw [h.evidence, List.length_take, List.map_singleton, List.length_map]
    congr 2
    omega

theorem Collected.run (h : Collected now epoch minIntervalNanos maxEvidence passed lane)
    (contributions : List Contribution) : Collected now epoch minIntervalNanos maxEvidence (passed ++ contributions)
      (contributions.foldl (collect now epoch minIntervalNanos maxEvidence) lane) := by
  induction contributions generalizing passed lane with
  | nil => rwa [List.append_nil]
  | cons contribution rest ih =>
    have hrest := ih (h.step contribution)
    rwa [List.append_assoc] at hrest

end Collect

/-! ## Only what is fresh decides -/

section Fresh
variable (now : ClockReading) (epoch : UInt64) (minIntervalNanos : Int64) (contributions : List Contribution)

theorem filterMap_fresh : (contributions.filter (Contribution.isFresh now epoch)).filterMap
        (Contribution.candidate? now epoch minIntervalNanos) =
      contributions.filterMap (Contribution.candidate? now epoch minIntervalNanos) := by
  rw [List.filterMap_filter]
  refine List.filterMap_congr fun contribution _ => ?_
  split
  · rfl
  · next hstale => rw [candidate?_of_stale (Bool.not_eq_true _ ▸ hstale)]

theorem noteAll_fresh (count : FreshCount) :
    FreshCount.noteAll now epoch (contributions.filter (Contribution.isFresh now epoch)) count =
      FreshCount.noteAll now epoch contributions count := by
  induction contributions generalizing count with
  | nil => rfl
  | cons contribution rest ih =>
    rw [List.filter_cons]
    split
    · exact ih _
    · next hstale =>
      rw [ih]
      exact congrArg (FreshCount.noteAll now epoch rest) (if_pos (Bool.not_eq_true _ ▸ hstale)).symm

end Fresh

/-! ## A lane -/

section Lanes
variable (context : ClassifierContext) (link : LinkIdentity) (metric : MetricId) (lane : LaneDimension)

theorem contribution_eq_some {declared : List DeclaredSource} {key : StreamKey} {stream : StreamState}
    {found : Contribution} (h : contribution context link metric lane declared key stream = some found) :
    key.link = link ∧ key.metric = metric ∧ key.lane = lane ∧ ∃ declaration record,
      (declared.find? fun source => source.source = key.source) = some declaration ∧
      newestAtOrBefore stream context.now context.epoch = some record ∧
      found = ⟨validityFor context.policy (context.policy.document.findRule metric) metric.family (some declaration),
        record.unnumbered, continuityOf context key stream record⟩ := by
  unfold contribution at h
  split at h
  · cases h
  · next hkey =>
    simp only [not_or, not_not] at hkey
    split at h
    · cases h
    · next declaration hdeclaration =>
      obtain ⟨record, hrecord, rfl⟩ := Option.map_eq_some_iff.mp h
      exact ⟨hkey.1, hkey.2.1, hkey.2.2, declaration, record, hdeclaration, hrecord, rfl⟩

abbrev laneOf (view : MetricCapabilityView) (query : QualityQuery) : LaneContext :=
  collectLane context link metric lane view.declaredBy query.maxEvidencePerMetric.toNat

def candidates (declared : List DeclaredSource) : List Candidate :=
  (contributions context link metric lane declared).filterMap
    (Contribution.candidate? context.now context.epoch context.policy.document.freshness.minRateIntervalNanos)

variable (declared : List DeclaredSource) (maxEvidence : ℕ)

theorem collected_collectLane :
    Collected context.now context.epoch context.policy.document.freshness.minRateIntervalNanos maxEvidence
      (contributions context link metric lane declared) (collectLane context link metric lane declared maxEvidence) := by
  rw [collectLane_eq]
  have hnone : Collected context.now context.epoch context.policy.document.freshness.minRateIntervalNanos maxEvidence
      [] {} := ⟨rfl, rfl, rfl, rfl, List.take_nil.symm⟩
  exact hnone.run _

theorem collectLane_candidates : (collectLane context link metric lane declared maxEvidence).candidates =
      candidates context link metric lane declared :=
  (collected_collectLane ..).candidates

theorem supported_of_candidates (view : MetricCapabilityView)
    (h : candidates context link metric lane view.declaredBy ≠ []) : view.supported = true := by
  cases hdeclared : view.declaredBy with
  | cons declared rest => simp [MetricCapabilityView.supported, hdeclared]
  | nil =>
    refine absurd ?_ h
    have hnone : contributions context link metric lane view.declaredBy = [] := by
      rw [hdeclared]
      refine List.filterMap_eq_nil_iff.mpr fun entry _ => ?_
      unfold contribution
      split <;> rfl
    rw [candidates, hnone, List.filterMap_nil]

end Lanes

end Lqf
