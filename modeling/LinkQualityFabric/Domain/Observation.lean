import LinkQualityFabric.Domain.Identity

/-! Observations and stored evidence: `src/domain/observation.cpp`. -/
namespace Lqf
open Foundations Std
set_option autoImplicit false

structure Timestamp where
  unixNanos : Int64
  synchronized : Bool
  deriving DecidableEq, Repr, Inhabited

structure ReceiveStamp where
  wallNanos : Int64
  steadyNanos : Int64
  epoch : UInt64
  deriving DecidableEq, Repr, Inhabited

structure GaugeReading where
  value : Double
  validityNanos : Int64
  deriving DecidableEq, Repr, Inhabited

structure CounterReading where
  value : UInt64
  width : CounterWidth
  resetDeclared : Bool
  deriving DecidableEq, Repr, Inhabited

inductive Reading where
  | gauge (reading : GaugeReading)
  | counter (reading : CounterReading)
  deriving DecidableEq, Repr, Inhabited

structure StreamKey where
  link : LinkIdentity
  metric : MetricId
  lane : LaneDimension
  source : SourceIdentity
  deriving DecidableEq, Repr, Inhabited

instance : Ord StreamKey :=
  ⟨compareLex (compareOn (·.link)) (compareLex (compareOn (·.metric))
    (compareLex (compareOn (·.lane)) (compareOn (·.source))))⟩

instance : TransOrd StreamKey := inferInstanceAs (TransCmp (compareLex _ _))

instance : LawfulEqOrd StreamKey where
  compare_self := by
    intro key
    exact compareLex_eq_eq.mpr ⟨ReflCmp.compare_self, compareLex_eq_eq.mpr ⟨ReflCmp.compare_self,
      compareLex_eq_eq.mpr ⟨ReflCmp.compare_self, ReflCmp.compare_self⟩⟩⟩
  eq_of_compare := by
    rintro ⟨link, metric, lane, source⟩ ⟨link', metric', lane', source'⟩ h
    obtain ⟨hlink, h⟩ := compareLex_eq_eq.mp h
    obtain ⟨hmetric, h⟩ := compareLex_eq_eq.mp h
    obtain ⟨hlane, hsource⟩ := compareLex_eq_eq.mp h
    have h1 : link = link' := eq_of_compareOn hlink
    have h2 : metric = metric' := eq_of_compareOn hmetric
    have h3 : lane = lane' := eq_of_compareOn hlane
    have h4 : source = source' := eq_of_compareOn hsource
    rw [h1, h2, h3, h4]

structure ObservationLimits where
  maxOriginBytes : ℕ
  maxLanes : UInt32
  deriving DecidableEq, Repr

structure Observation where
  link : LinkIdentity
  source : SourceIdentity
  sequence : UInt64
  metric : MetricId
  lane : LaneDimension
  unit : MeasurementUnit
  reading : Reading
  observedAt : Timestamp
  intervalNanos : Option Int64
  authority : UInt64
  provenance : Provenance
  deriving DecidableEq, Repr, Inhabited

namespace Observation

def semantics (observation : Observation) : SampleSemantics :=
  match observation.reading with
  | .gauge _ => .gauge
  | .counter _ => .counter

def streamKey (observation : Observation) : StreamKey :=
  ⟨observation.link, observation.metric, observation.lane, observation.source⟩

end Observation

/-- A stored observation: the receive stamp, the ingest ordinal and the origin are the runtime's. -/
structure EvidenceRecord where
  observation : Observation
  received : ReceiveStamp
  ordinal : UInt64
  origin : EvidenceOrigin
  deriving DecidableEq, Repr, Inhabited

/-! ## Validation -/

def validateReading (observation : Observation) : Outcome Unit :=
  match observation.reading with
  | .gauge gauge => do
    refuseIf (gauge.value.isFinite = false) .invalid
      (text "gauge reading is not finite: " ++ observation.metric.render)
    refuseIf (gauge.validityNanos < 0) .invalid (text "gauge validity window must not be negative")
    refuseIf (observation.unit = .count ∨ observation.unit = .bytes) .invalid
      (text "gauge reading must not be declared in count or bytes: " ++ observation.metric.render)
  | .counter counter => do
    refuseIf (observation.unit ≠ .count ∧ observation.unit ≠ .bytes) .invalid
      (text "counter reading must be declared in count or bytes: " ++ observation.metric.render)
    refuseIf (counterValueInRange counter.value counter.width = false) .invalid
      (text "counter reading does not fit the declared width " ++ counter.width.name)

def validateAgainst (observation : Observation) (descriptor : MetricDescriptor) : Outcome Unit := do
  refuseIf (descriptor.semantics ≠ observation.semantics) .invalid
    (text "sample semantics do not match the declared metric: " ++ observation.metric.render)
  refuseIf (descriptor.unit ≠ observation.unit) .invalid
    (text "units do not match the declared metric: expected " ++ descriptor.unit.name ++
      text ", received " ++ observation.unit.name)
  refuseIf (descriptor.supportsLanes = false ∧ observation.lane.aggregate = false) .invalid
    (text "metric is not declared per lane: " ++ observation.metric.render)

def validateLane (lane : LaneDimension) (maxLanes : UInt32) : Outcome Unit :=
  if lane.aggregate then .ok () else validateLaneId lane.lane maxLanes

def validateObservation (observation : Observation) (descriptor : Option MetricDescriptor)
    (limits : ObservationLimits) : Outcome Unit := do
  validateLinkIdentity observation.link
  validateSourceIdentity observation.source
  validateMetricId observation.metric
  validateProvenance observation.provenance limits.maxOriginBytes
  refuseIf (observation.unit = .none) .invalid
    (text "observation must declare explicit units: " ++ observation.metric.render)
  validateLane observation.lane limits.maxLanes
  refuseIf (∃ interval ∈ observation.intervalNanos, interval ≤ 0) .invalid
    (text "declared interval must be positive")
  validateReading observation
  match descriptor with
  | none => .ok ()
  | some descriptor => validateAgainst observation descriptor

/-- What every later step relies on: the identities and the provenance of a validated observation. -/
theorem validateObservation_spec {observation : Observation} {descriptor : Option MetricDescriptor}
    {limits : ObservationLimits} {u : Unit} (h : validateObservation observation descriptor limits = .ok u) :
    validateLinkIdentity observation.link = .ok () ∧ validateSourceIdentity observation.source = .ok () ∧
      validateMetricId observation.metric = .ok () ∧
      validateProvenance observation.provenance limits.maxOriginBytes = .ok () := by
  simp only [validateObservation, Outcome.check_bind_eq_ok] at h
  obtain ⟨hlink, hsource, hmetric, hprovenance, -⟩ := h
  exact ⟨hlink, hsource, hmetric, hprovenance⟩

end Lqf
