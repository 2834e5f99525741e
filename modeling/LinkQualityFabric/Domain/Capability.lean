import LinkQualityFabric.Domain.Policy

/-! What a source declares it can measure: `src/domain/capability.cpp`. -/
namespace Lqf
set_option autoImplicit false

structure MetricCapability where
  metric : MetricId
  unit : MeasurementUnit
  semantics : SampleSemantics
  counterWidth : CounterWidth
  lanesDeclared : Bool
  laneCount : UInt32
  validityNanos : Int64
  deriving DecidableEq, Repr, Inhabited

/-- Without a link scope the declaration applies to every link the source feeds. -/
structure CapabilityDeclaration where
  source : SourceIdentity
  linkScope : Option LinkIdentity
  revision : UInt64
  transport : TransportKind
  evidenceClass : EvidenceClass
  declaredAt : Timestamp
  metrics : List MetricCapability
  unsupportedMetrics : List MetricId
  note : Text
  deriving DecidableEq, Repr, Inhabited

def validateScope : Option LinkIdentity → Outcome Unit
  | none => .ok ()
  | some link => validateLinkIdentity link

def validateCatalogUnit (capability : MetricCapability) : Option MetricDescriptor → Outcome Unit
  | none => .ok ()
  | some descriptor =>
    refuseIf (descriptor.unit ≠ capability.unit) .conflict
      (text "declared unit " ++ capability.unit.name ++ text " conflicts with the catalog unit " ++
        descriptor.unit.name ++ text " for " ++ capability.metric.render)

/-- The checks on one capability, with the metrics declared before it. -/
def validateMetricCapability (catalog : MetricCatalog) (limits : ObservationLimits) (seen : List MetricId)
    (capability : MetricCapability) : Outcome Unit := do
  let named (message : String) : Text := text message ++ capability.metric.render
  validateMetricId capability.metric
  refuseIf (capability.metric ∈ seen) .invalid (named "duplicate metric in capability declaration: ")
  refuseIf (catalog.find capability.metric = none) .unsupported (named "metric is not registered in the catalog: ")
  refuseIf (capability.unit = .none) .invalid (named "capability must declare units: ")
  validateCatalogUnit capability (catalog.find capability.metric)
  refuseIf (capability.semantics = .counter ∧ capability.unit ≠ .count ∧ capability.unit ≠ .bytes) .invalid
    (named "counter capability must be declared in count or bytes: ")
  refuseIf (capability.semantics ≠ .counter ∧ (capability.unit = .count ∨ capability.unit = .bytes)) .invalid
    (named "gauge capability must not be declared in count or bytes: ")
  refuseIf (capability.lanesDeclared ∧ (capability.laneCount = 0 ∨ limits.maxLanes < capability.laneCount)) .invalid
    (text "declared lane count is out of range: " ++ formatNat capability.laneCount.toNat)
  refuseIf (capability.lanesDeclared = false ∧ capability.laneCount ≠ 0) .invalid
    (named "lane count declared without lane support: ")
  refuseIf (capability.validityNanos < 0) .invalid (text "declared validity window must not be negative")

def validateMetricCapabilities (catalog : MetricCatalog) (limits : ObservationLimits) (seen : List MetricId) :
    List MetricCapability → Outcome Unit
  | [] => .ok ()
  | capability :: rest => do
    validateMetricCapability catalog limits seen capability
    validateMetricCapabilities catalog limits (capability.metric :: seen) rest

def validateCapability (declaration : CapabilityDeclaration) (catalog : MetricCatalog) (limits : ObservationLimits)
    (maxMetrics : ℕ) : Outcome Unit := do
  validateSourceIdentity declaration.source
  validateScope declaration.linkScope
  refuseIf (declaration.revision = 0) .invalid (text "capability revision must be at least 1")
  refuseIf (maxMetrics < declaration.metrics.length) .limitExceeded
    (text "capability declaration exceeds the metric limit of " ++ formatNat maxMetrics)
  refuseIf (limits.maxOriginBytes < declaration.note.length) .invalid (text "capability note is too long")
  validateMetricCapabilities catalog limits [] declaration.metrics
  validateUnsupported (declaration.metrics.map (·.metric))
    (text "metric is declared both measured and unsupported: ") [] declaration.unsupportedMetrics
  refuseIf (declaration.metrics = [] ∧ declaration.unsupportedMetrics = []) .invalid
    (text "capability declaration must declare or deny at least one metric")

variable {catalog : MetricCatalog} {limits : ObservationLimits} {seen : List MetricId} {u : Unit}

theorem validateMetricCapabilities_ids {capabilities : List MetricCapability}
    (h : validateMetricCapabilities catalog limits seen capabilities = .ok u) :
    ∀ capability ∈ capabilities, validateMetricId capability.metric = .ok () := by
  induction capabilities generalizing seen with
  | nil => simp
  | cons capability rest ih =>
    simp only [validateMetricCapabilities, Outcome.check_bind_eq_ok, validateMetricCapability] at h
    intro other hother
    rcases List.mem_cons.mp hother with rfl | hrest
    · exact h.1.1
    · exact ih h.2 other hrest

theorem validateUnsupported_ids {measured metrics : List MetricId} {both : Text}
    (h : validateUnsupported measured both seen metrics = .ok u) :
    ∀ metric ∈ metrics, validateMetricId metric = .ok () := by
  induction metrics generalizing seen with
  | nil => simp
  | cons metric rest ih =>
    simp only [validateUnsupported, Outcome.check_bind_eq_ok] at h
    intro other hother
    rcases List.mem_cons.mp hother with rfl | hrest
    · exact h.1
    · exact ih h.2.2.2 other hrest

theorem validateCapability_metrics {declaration : CapabilityDeclaration} {maxMetrics : ℕ}
    (h : validateCapability declaration catalog limits maxMetrics = .ok u) :
    (∀ capability ∈ declaration.metrics, validateMetricId capability.metric = .ok ()) ∧
      ∀ metric ∈ declaration.unsupportedMetrics, validateMetricId metric = .ok () := by
  simp only [validateCapability, Outcome.check_bind_eq_ok] at h
  exact ⟨validateMetricCapabilities_ids h.2.2.2.2.2.1, validateUnsupported_ids h.2.2.2.2.2.2.1⟩

end Lqf
