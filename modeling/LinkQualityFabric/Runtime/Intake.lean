import LinkQualityFabric.Runtime.PolicyTiming
import LinkQualityFabric.Store.ContinuityRestore

/-! What the checks of `ingest` let through.

The age of evidence is a difference in 64 bits, which is the age over the integers until it overflows. The width of a
counter is checked as the observation declares it, and the tracker is handed that width, also when it is the declaration
of the source that names one. -/
namespace Lqf.Fabric
set_option autoImplicit false

variable {fabric : Fabric} {io : CallIo} {observation : Observation}

/-! ## The age of evidence -/

theorem wrapped_age_iff {now observed bound : Int64} (hnow : 0 ≤ now) (hbound : 0 < bound) : bound < now - observed ↔
      bound.toInt < now.toInt - observed.toInt ∧ now.toInt - observed.toInt < 2 ^ 63 := by
  have hwall : 0 ≤ now.toInt := Int64.le_iff_toInt_le.mp hnow
  have hpositive : 0 < bound.toInt := Int64.lt_iff_toInt_lt.mp hbound
  have hlow := observed.le_toInt
  have hhigh := now.toInt_lt
  have htop := observed.toInt_lt
  rw [Int64.lt_iff_toInt_lt]
  by_cases hfits : now.toInt - observed.toInt < 2 ^ 63
  · rw [toInt_sub_of_bounds (by omega) hfits]
    exact (and_iff_left hfits).symm
  · -- an age out of range wraps to a negative one
    rw [Int64.toInt_sub, Int.bmod_def]
    omega

structure PassesEarlier (observation : Observation) (fabric : Fabric) : Prop where
  known : fabric.catalog.find observation.metric ≠ none
  valid : validateObservation observation (fabric.catalog.find observation.metric) fabric.observationLimits = .ok ()
  declared : fabric.checkDeclared observation = .ok ()

def RefusesAsStale (io : CallIo) (observation : Observation) (fabric : Fabric) : Prop :=
  ∃ message, fabric.checkObservation io.now observation = .error ⟨.stale, message⟩ ∧
    (fabric.ingest io observation).1 = .error ⟨.stale, message⟩

theorem refusesAsStale_iff (hopen : fabric.isOpen = true) (hearlier : fabric.PassesEarlier observation)
    (hsynchronized : observation.observedAt.synchronized = true)
    (hbound : 0 < fabric.config.limits.maxObservationAgeNanos) : fabric.RefusesAsStale io observation ↔
      fabric.config.limits.maxObservationAgeNanos < io.now.wallNanos - observation.observedAt.unixNanos := by
  have hcheck : fabric.checkObservation io.now observation =
      refuseIf (observation.observedAt.synchronized ∧ 0 < fabric.config.limits.maxObservationAgeNanos ∧
        fabric.config.limits.maxObservationAgeNanos < io.now.wallNanos - observation.observedAt.unixNanos) .stale
        (text "evidence from a synchronized source is older than the configured maximum observation age") := by
    unfold checkObservation
    rw [Outcome.refuseIf_of_not hearlier.known, hearlier.valid, hearlier.declared]
    rfl
  have hlocked : (fabric.letWriterRun io.writer).checkObservation io.now observation =
      fabric.checkObservation io.now observation := rfl
  constructor
  · rintro ⟨message, hrefused, -⟩
    by_contra hyoung
    rw [hcheck, Outcome.refuseIf_of_not fun h => hyoung h.2.2] at hrefused
    cases hrefused
  · intro hold
    unfold refuseIf at hcheck
    rw [if_pos ⟨hsynchronized, hbound, hold⟩] at hcheck
    refine ⟨_, hcheck, ?_⟩
    unfold ingest ingestLocked
    rw [if_neg (by simp [hopen]), hlocked, hcheck]
    rfl

/-- **The gate is exact until the age overflows**: an age of `2 ^ 63` nanoseconds or more is let through. -/
theorem age_gate_exact_iff (hopen : fabric.isOpen = true) (hearlier : fabric.PassesEarlier observation)
    (hsynchronized : observation.observedAt.synchronized = true)
    (hbound : 0 < fabric.config.limits.maxObservationAgeNanos) (hnow : 0 ≤ io.now.wallNanos) :
    (fabric.RefusesAsStale io observation ↔ fabric.config.limits.maxObservationAgeNanos.toInt <
        io.now.wallNanos.toInt - observation.observedAt.unixNanos.toInt) ↔
      io.now.wallNanos.toInt - observation.observedAt.unixNanos.toInt < 2 ^ 63 := by
  rw [refusesAsStale_iff hopen hearlier hsynchronized hbound, wrapped_age_iff hnow hbound]
  have hlimit := fabric.config.limits.maxObservationAgeNanos.toInt_lt
  omega

def observedAt (nanos : Int64) : Observation := { symbols 1 5 with observedAt := ⟨nanos, true⟩ }

theorem hour_old_refused : countingFabric.RefusesAsStale (secondsLater 3600) (observedAt 0) := by
  have hexact := @age_gate_exact_iff countingFabric (secondsLater 3600) (observedAt 0) (by decide +kernel)
    ⟨by decide +kernel, by decide +kernel, by decide +kernel⟩ rfl (by decide +kernel) (by decide)
  exact (hexact.mpr (by decide)).mpr (by decide +kernel)

theorem ancient_accepted :
    countingFabric.config.limits.maxObservationAgeNanos.toInt <
        (secondsLater 1).now.wallNanos.toInt - (observedAt Int64.minValue).observedAt.unixNanos.toInt ∧
      (countingFabric.ingest (secondsLater 1) (observedAt Int64.minValue)).1.toOption.map IngestOutcome.accepted =
        some true := by
  decide +kernel

/-! ## The width of a counter -/

def effectiveWidth (counter : CounterReading) (capability : MetricCapability) : CounterWidth :=
  if counter.width = .unspecified then capability.counterWidth else counter.width

theorem ingest_checked {outcome : IngestOutcome} (h : (fabric.ingest io observation).1 = .ok outcome) :
    fabric.checkObservation io.now observation = .ok () := by
  unfold ingest at h
  split at h
  · cases h
  · have hends := (fabric.letWriterRun io.writer).ingestLocked_ends io observation
    generalize (fabric.letWriterRun io.writer).ingestLocked io observation = result at h hends
    cases hends with
    | kept => cases h
    | unlinked hcheck _ _ => exact hcheck
    | stored hcheck _ => exact hcheck

theorem checked_width {counter : CounterReading} (hcounter : observation.reading = .counter counter)
    (hrequired : fabric.policies.current.document.requireCapability = true)
    (h : fabric.checkObservation io.now observation = .ok ()) :
    counterValueInRange counter.value counter.width = true ∧
      ∃ capability, fabric.capabilities.capabilityOf observation.link observation.metric observation.source =
          some capability ∧ ¬ (counter.width = .unspecified ∧ capability.counterWidth = .unspecified) := by
  simp only [checkObservation, validateObservation, validateReading, hcounter, Outcome.check_bind_eq_ok,
    Outcome.refuseIf_eq_ok, Bool.not_eq_false] at h
  obtain ⟨-, ⟨-, -, -, -, -, -, -, ⟨-, hrange⟩, -⟩, hdeclared, -⟩ := h
  unfold checkDeclared at hdeclared
  rw [if_pos hrequired] at hdeclared
  refine ⟨hrange, ?_⟩
  cases hcapability : fabric.capabilities.capabilityOf observation.link observation.metric observation.source with
  | none =>
    rw [hcapability] at hdeclared
    cases hdeclared
  | some capability =>
    simp only [hcapability, checkCapability, checkWidth, hcounter, Outcome.check_bind_eq_ok,
      Outcome.refuseIf_eq_ok] at hdeclared
    exact ⟨capability, rfl, hdeclared.2.2.2.2.1⟩

/-- **Evidence fits its effective width if it declares the width itself.** A width that only the declaration names is
neither checked nor handed on, so otherwise the value has to fit by chance and stay away from the tracker. -/
theorem effective_width_kept_iff {counter : CounterReading} {outcome : IngestOutcome}
    (hcounter : observation.reading = .counter counter)
    (hrequired : fabric.policies.current.document.requireCapability = true)
    (h : (fabric.ingest io observation).1 = .ok outcome) (stream : StreamState) (received : ReceiveStamp)
    (ordinal : UInt64) :
    ∃ capability, fabric.capabilities.capabilityOf observation.link observation.metric observation.source =
        some capability ∧
      ((counterValueInRange counter.value (effectiveWidth counter capability) = true ∧
        ∀ reading, stream.fedReading? ⟨observation, received, ordinal, .live⟩ = some reading →
          reading.width = effectiveWidth counter capability) ↔
      counter.width ≠ .unspecified ∨
        (counterValueInRange counter.value capability.counterWidth = true ∧
          stream.feeds observation.sequence = false)) := by
  obtain ⟨hrange, capability, hcapability, hwidth⟩ := checked_width hcounter hrequired (ingest_checked h)
  refine ⟨capability, hcapability, ?_⟩
  have hfed : stream.fedReading? ⟨observation, received, ordinal, .live⟩ =
      if stream.feeds observation.sequence then
        some (StreamState.counterObservation observation received counter) else none := by
    simp [StreamState.fedReading?, EvidenceRecord.counterReading?, hcounter]
  have hhanded : (StreamState.counterObservation observation received counter).width = counter.width := rfl
  rw [hfed]
  unfold effectiveWidth
  by_cases hunspecified : counter.width = .unspecified
  · have hnamed : counter.width ≠ capability.counterWidth := fun heq => hwidth ⟨hunspecified, heq ▸ hunspecified⟩
    cases hfeeds : stream.feeds observation.sequence <;> simp [hunspecified, hhanded]
    exact fun _ => hunspecified ▸ hnamed
  · cases stream.feeds observation.sequence <;> simp [hunspecified, hrange, hhanded]

def strictFabric : Fabric :=
  (((new { gaugeConfig with initialPolicy := some { ratePolicy 10 with requireCapability := true } } 1 0
    ).initializeFabric {} ⟨none, none⟩).2.respond
      (.declareCapability { errorCounter with metrics := [⟨symbolErrorMetric, .count, .counter, .bits32, false, 0, 0⟩] },
        { now := instant 1 })).2

def counted (value : UInt64) (width : CounterWidth) : Observation :=
  { symbols 1 0 with reading := .counter ⟨value, width, false⟩ }

theorem own_width_kept :
    ∃ capability, strictFabric.capabilities.capabilityOf ⟨text "a", 1⟩ symbolErrorMetric ⟨text "s", 1⟩ = some capability ∧
      ∀ reading, StreamState.fresh.fedReading? ⟨counted 7 .bits32, default, 1, .live⟩ = some reading →
        reading.width = effectiveWidth ⟨7, .bits32, false⟩ capability := by
  have haccepted : (strictFabric.ingest (secondsLater 1) (counted 7 .bits32)).1 =
      .ok { IngestOutcome.none with accepted := true, continuityBroken := true, streamDepth := 1 } := by
    decide +kernel
  obtain ⟨capability, hcapability, hkept⟩ :=
    effective_width_kept_iff rfl (by decide +kernel) haccepted .fresh default 1
  exact ⟨capability, hcapability, (hkept.mpr (.inl (by decide))).2⟩

theorem wide_value_accepted :
    (strictFabric.ingest (secondsLater 1) (counted 0x100000000 .unspecified)).1.toOption.map IngestOutcome.accepted =
        some true ∧
      (strictFabric.capabilities.capabilityOf ⟨text "a", 1⟩ symbolErrorMetric ⟨text "s", 1⟩).map
        (fun capability => counterValueInRange 0x100000000 capability.counterWidth) = some false := by
  decide +kernel

end Lqf.Fabric
