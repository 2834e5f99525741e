import LinkQualityFabric.Core.Hash
import LinkQualityFabric.Domain.Observation
import LinkQualityFabric.Domain.Quality

/-! Policy documents: `src/domain/policy.cpp`.

A document is validated before it is published and again before it is restored. Its canonical text is
what the content hash of a generation is computed from. -/
namespace Lqf
open Foundations Std
set_option autoImplicit false

structure ThresholdBand where
  id : Text
  lower : Double
  upper : Option Double
  state : QualityState
  label : Text
  deriving DecidableEq, Repr, Inhabited

structure MetricRule where
  metric : MetricId
  basis : MetricBasis
  bands : List ThresholdBand
  conflictTolerance : Double
  validityNanos : Int64
  maxContinuityGapNanos : Int64
  wrapInference : Bool
  wrapCeilingFraction : Double
  wrapFloorFraction : Double
  deriving DecidableEq, Repr, Inhabited

structure FreshnessPolicy where
  defaultValidityNanos : Int64
  familyValidityNanos : List (MetricFamily × Int64)
  defaultContinuityGapNanos : Int64
  minRateIntervalNanos : Int64
  deriving DecidableEq, Repr, Inhabited

structure AggregationPolicy where
  severity : SeverityTable
  conflictingDominates : Bool
  deriving DecidableEq, Repr, Inhabited

structure PolicyDocument where
  id : Text
  rules : List MetricRule
  freshness : FreshnessPolicy
  aggregation : AggregationPolicy
  unsupportedMetrics : List MetricId
  requireCapability : Bool
  deriving DecidableEq, Repr, Inhabited

def FreshnessPolicy.defaults : FreshnessPolicy := ⟨15000000000, [], 60000000000, 1000000⟩

/-- A document with the default member initialisers of the source and the given id. -/
def PolicyDocument.named (id : Text) : PolicyDocument :=
  ⟨id, [], FreshnessPolicy.defaults, ⟨SeverityTable.defaults, true⟩, [], true⟩

def PolicyDocument.findRule (document : PolicyDocument) (metric : MetricId) : Option MetricRule :=
  document.rules.find? fun rule => rule.metric = metric

/-! ## Validation -/

section Bands
variable (rule : MetricRule)

def validateBand (ids : List Text) (band : ThresholdBand) : Outcome Unit := do
  refuseIf (band.id = []) .invalid (text "band id must not be empty: " ++ rule.metric.render)
  refuseIf (band.id ∈ ids) .invalid (text "duplicate band id: " ++ band.id)
  refuseIf (band.lower.isNan) .invalid (text "band lower bound is NaN: " ++ band.id)
  refuseIf (∃ upper ∈ band.upper, upper.isNan) .invalid (text "band upper bound is NaN: " ++ band.id)
  refuseIf (∃ upper ∈ band.upper, band.lower.lt upper = false) .invalid
    (text "band upper bound is not above its lower bound: " ++ band.id)

-- The first band starts at negative infinity, every later one where the band before it ends.
def validateBandStart (previous : Option ThresholdBand) (band : ThresholdBand) : Outcome Unit :=
  match previous with
  | none =>
    refuseIf (band.lower.eq Double.negativeInfinity = false) .invalid
      (text "the first band must start at -infinity so that every value classifies exactly once: " ++
        rule.metric.render)
  | some previous =>
    match previous.upper with
    | none => fail .invalid (text "band before the last one must have an upper bound: " ++ previous.id)
    | some upper =>
      refuseIf (upper.eq band.lower = false) .invalid
        (text "bands are not contiguous at " ++ previous.id ++ text " -> " ++ band.id ++
          text "; gaps would leave values unclassified")

def validateBandsFrom (ids : List Text) (previous : Option ThresholdBand) :
    List ThresholdBand → Outcome Unit
  | [] => .ok ()
  | band :: rest => do
    validateBand rule ids band
    validateBandStart rule previous band
    validateBandsFrom (band.id :: ids) (some band) rest

def validateBands (maxBands : ℕ) : Outcome Unit := do
  refuseIf (rule.bands = []) .invalid (text "rule has no bands: " ++ rule.metric.render)
  refuseIf (maxBands < rule.bands.length) .limitExceeded
    (text "rule exceeds the band limit: " ++ rule.metric.render)
  validateBandsFrom rule [] none rule.bands
  refuseIf (∃ last ∈ rule.bands.getLast?, last.upper.isSome) .invalid
    (text "the last band must extend to +infinity so that every value classifies exactly once: " ++
      rule.metric.render)

end Bands

def isFraction (value : Double) : Bool := Double.zero.le value && value.le Double.one

-- Gauges are classified by their value, counters by a counter basis.
def validateRuleBasis (catalog : MetricCatalog) (rule : MetricRule) : Outcome Unit :=
  match catalog.find rule.metric with
  | none =>
    fail .unsupported (text "rule references a metric that is not in the catalog: " ++ rule.metric.render)
  | some descriptor => do
    refuseIf (descriptor.semantics = .gauge ∧ rule.basis ≠ .gaugeValue) .invalid
      (text "gauge metric must be classified by gauge value: " ++ rule.metric.render)
    refuseIf (descriptor.semantics = .counter ∧ rule.basis = .gaugeValue) .invalid
      (text "counter metric must be classified by a counter basis: " ++ rule.metric.render)

def validateRule (catalog : MetricCatalog) (maxBands : ℕ) (seen : List MetricId) (rule : MetricRule) :
    Outcome Unit := do
  let named (message : String) : Text := text message ++ rule.metric.render
  validateMetricId rule.metric
  refuseIf (rule.metric ∈ seen) .invalid (named "duplicate rule for metric: ")
  validateRuleBasis catalog rule
  refuseIf (Double.zero.le rule.conflictTolerance = false ∨ rule.conflictTolerance.isFinite = false)
    .invalid (named "conflict tolerance must be finite and non-negative: ")
  refuseIf (rule.validityNanos < 0) .invalid (named "rule validity window must not be negative: ")
  refuseIf (rule.maxContinuityGapNanos < 0) .invalid (named "rule continuity gap must not be negative: ")
  refuseIf (isFraction rule.wrapCeilingFraction = false ∨ isFraction rule.wrapFloorFraction = false)
    .invalid (named "wrap fractions must be within [0,1]: ")
  refuseIf (rule.wrapCeilingFraction.le rule.wrapFloorFraction) .invalid
    (named "wrap floor fraction must be below the ceiling fraction: ")
  validateBands rule maxBands

def validateRules (catalog : MetricCatalog) (maxBands : ℕ) (seen : List MetricId) :
    List MetricRule → Outcome Unit
  | [] => .ok ()
  | rule :: rest => do
    validateRule catalog maxBands seen rule
    validateRules catalog maxBands (rule.metric :: seen) rest

theorem validateRules_each {catalog : MetricCatalog} {maxBands : ℕ} {seen : List MetricId} {rules : List MetricRule}
    {u : Unit} (h : validateRules catalog maxBands seen rules = .ok u) :
    ∀ rule ∈ rules, ∃ seen, validateRule catalog maxBands seen rule = .ok () := by
  induction rules generalizing seen with
  | nil => simp
  | cons rule rest ih =>
    simp only [validateRules, Outcome.check_bind_eq_ok] at h
    intro other hother
    rcases List.mem_cons.mp hother with rfl | hrest
    · exact ⟨seen, h.1⟩
    · exact ih h.2 other hrest

/-- The second loop of `validate_policy`, and of `validate_capability` with its own message: metrics
that are named twice, or that are also measured. -/
def validateUnsupported (measured : List MetricId) (both : Text) (seen : List MetricId) :
    List MetricId → Outcome Unit
  | [] => .ok ()
  | metric :: rest => do
    validateMetricId metric
    refuseIf (metric ∈ seen) .invalid (text "duplicate unsupported metric: " ++ metric.render)
    refuseIf (metric ∈ measured) .conflict (both ++ metric.render)
    validateUnsupported measured both (metric :: seen) rest

def validateOverride (entry : MetricFamily × Int64) : Outcome Unit := do
  refuseIf (entry.1 = .count) .invalid (text "freshness override family is out of range")
  refuseIf (entry.2 ≤ 0) .invalid (text "freshness override must be positive for family " ++ entry.1.name)

def validatePolicy (document : PolicyDocument) (catalog : MetricCatalog) (maxRules maxBandsPerRule : ℕ) :
    Outcome Unit := do
  validateIdentityText document.id maxIdentityBytes (text "policy id")
  refuseIf (maxRules < document.rules.length) .limitExceeded
    (text "policy exceeds the rule limit of " ++ formatNat maxRules)
  validateRules catalog maxBandsPerRule [] document.rules
  validateUnsupported (document.rules.map (·.metric)) (text "metric is both unsupported and classified: ")
    [] document.unsupportedMetrics
  refuseIf (document.freshness.defaultValidityNanos ≤ 0) .invalid
    (text "default validity window must be positive")
  refuseIf (document.freshness.defaultContinuityGapNanos ≤ 0) .invalid
    (text "default continuity gap must be positive")
  refuseIf (document.freshness.minRateIntervalNanos < 0) .invalid
    (text "minimum rate interval must not be negative")
  Outcome.each validateOverride document.freshness.familyValidityNanos
  refuseIf (document.aggregation.severity.isTotalOrder = false) .invalid
    (text "severity ranks must be a total order over every quality state")

/-! Validation never answers that something is a duplicate registration: that code is left to the
registries. -/

section Codes
open Outcome

theorem validateIdentityText_avoids (value : Text) (maxBytes : ℕ) (what : Text) :
    Avoids .duplicate (validateIdentityText value maxBytes what) := by
  refine avoids_check (by decide) ?_
  refine avoids_check (by decide) ?_
  exact avoids_refuseIf _ (by decide)

theorem validateMetricId_avoids (id : MetricId) : Avoids .duplicate (validateMetricId id) := by
  refine avoids_check (by decide) ?_
  refine avoids_check (by decide) ?_
  exact avoids_refuseIf _ (by decide)

variable (catalog : MetricCatalog) (rule : MetricRule) (maxBands : ℕ) (seen : List MetricId)

theorem validateBandsFrom_avoids (ids : List Text) (previous : Option ThresholdBand) (bands : List ThresholdBand) :
    Avoids .duplicate (validateBandsFrom rule ids previous bands) := by
  induction bands generalizing ids previous with
  | nil => exact avoids_ok ()
  | cons band rest ih =>
    refine avoids_bind ?_ fun _ => avoids_bind ?_ fun _ => ih _ _
    · refine avoids_check (by decide) ?_
      refine avoids_check (by decide) ?_
      refine avoids_check (by decide) ?_
      refine avoids_check (by decide) ?_
      exact avoids_refuseIf _ (by decide)
    · unfold validateBandStart
      split
      · exact avoids_refuseIf _ (by decide)
      · split
        · exact avoids_fail _ (by decide)
        · exact avoids_refuseIf _ (by decide)

theorem validateBands_avoids : Avoids .duplicate (validateBands rule maxBands) := by
  refine avoids_check (by decide) ?_
  refine avoids_check (by decide) ?_
  refine avoids_bind (validateBandsFrom_avoids rule _ _ _) fun _ => ?_
  exact avoids_refuseIf _ (by decide)

theorem validateRule_avoids (rule : MetricRule) : Avoids .duplicate (validateRule catalog maxBands seen rule) := by
  refine avoids_bind (validateMetricId_avoids _) fun _ => ?_
  refine avoids_check (by decide) ?_
  refine avoids_bind ?_ fun _ => ?_
  · unfold validateRuleBasis
    split
    · exact avoids_fail _ (by decide)
    · exact avoids_check (by decide) (avoids_refuseIf _ (by decide))
  · refine avoids_check (by decide) ?_
    refine avoids_check (by decide) ?_
    refine avoids_check (by decide) ?_
    refine avoids_check (by decide) ?_
    refine avoids_check (by decide) ?_
    exact validateBands_avoids rule maxBands

theorem validateRules_avoids (rules : List MetricRule) :
    Avoids .duplicate (validateRules catalog maxBands seen rules) := by
  induction rules generalizing seen with
  | nil => exact avoids_ok ()
  | cons rule rest ih => exact avoids_bind (validateRule_avoids catalog maxBands seen rule) fun _ => ih _

theorem validateUnsupported_avoids (measured : List MetricId) (both : Text) (seen metrics : List MetricId) :
    Avoids .duplicate (validateUnsupported measured both seen metrics) := by
  induction metrics generalizing seen with
  | nil => exact avoids_ok ()
  | cons metric rest ih =>
    refine avoids_bind (validateMetricId_avoids metric) fun _ => ?_
    refine avoids_check (by decide) ?_
    exact avoids_check (by decide) (ih _)

theorem validatePolicy_avoids (document : PolicyDocument) (catalog : MetricCatalog) (maxRules maxBandsPerRule : ℕ) :
    Avoids .duplicate (validatePolicy document catalog maxRules maxBandsPerRule) := by
  refine avoids_bind (validateIdentityText_avoids _ _ _) fun _ => ?_
  refine avoids_check (by decide) ?_
  refine avoids_bind (validateRules_avoids _ _ _ _) fun _ => ?_
  refine avoids_bind (validateUnsupported_avoids _ _ _ _) fun _ => ?_
  refine avoids_check (by decide) ?_
  refine avoids_check (by decide) ?_
  refine avoids_check (by decide) ?_
  refine avoids_bind (avoids_each ?_ _) fun _ => avoids_refuseIf _ (by decide)
  intro entry
  exact avoids_check (by decide) (avoids_refuseIf _ (by decide))

end Codes

/-! ## Canonical text -/

def renderDouble (value : Double) : Text :=
  if value.isInf then (if Double.zero.lt value then text "+inf" else text "-inf")
  else if value.isNan then text "nan"
  else formatDouble value

def renderBool (value : Bool) : Text := if value then text "true" else text "false"

def renderBand (band : ThresholdBand) : Text :=
  text "  band " ++ band.id ++ text " " ++ renderDouble band.lower ++ text " " ++
    (match band.upper with
      | some upper => renderDouble upper
      | none => text "+inf-bound") ++
    text " " ++ band.state.name ++ text "\n"

def renderRule (rule : MetricRule) : Text :=
  text "rule " ++ rule.metric.render ++ text " " ++ rule.basis.name ++ text " tolerance " ++
    renderDouble rule.conflictTolerance ++ text " validity-ns " ++ formatI64 rule.validityNanos ++
    text " gap-ns " ++ formatI64 rule.maxContinuityGapNanos ++ text " wrap-inference " ++
    renderBool rule.wrapInference ++ text " wrap-ceiling " ++ renderDouble rule.wrapCeilingFraction ++
    text " wrap-floor " ++ renderDouble rule.wrapFloorFraction ++ text "\n" ++
    rule.bands.flatMap renderBand

/-- `canonical_policy_text`. The sorts of the source are over keys that a validated document does not
repeat, except the families of the overrides, where equal keys keep their order. -/
def canonicalPolicyText (document : PolicyDocument) : Text :=
  text "policy " ++ document.id ++ text "\nrequire-capability " ++ renderBool document.requireCapability ++
    text "\nfreshness default-validity-ns " ++ formatI64 document.freshness.defaultValidityNanos ++
    text " continuity-gap-ns " ++ formatI64 document.freshness.defaultContinuityGapNanos ++
    text " min-rate-interval-ns " ++ formatI64 document.freshness.minRateIntervalNanos ++ text "\n" ++
    ((document.freshness.familyValidityNanos.insertionSort
        fun a b => Enumeration.code a.1 ≤ Enumeration.code b.1).flatMap fun entry =>
      text "freshness-family " ++ entry.1.name ++ text " " ++ formatI64 entry.2 ++ text "\n") ++
    (((Enumeration.values : List QualityState).zip document.aggregation.severity.rank).flatMap fun entry =>
      text "severity " ++ entry.1.name ++ text " " ++ formatNat entry.2.toNat ++ text "\n") ++
    text "conflicting-dominates " ++ renderBool document.aggregation.conflictingDominates ++ text "\n" ++
    (document.rules.insertionSort fun a b => (compare a.metric b.metric).isLE).flatMap renderRule ++
    (document.unsupportedMetrics.insertionSort fun a b => (compare a b).isLE).flatMap fun metric =>
      text "unsupported " ++ metric.render ++ text "\n"

@[irreducible] def contentHash (document : PolicyDocument) : Text := Sha256.hexDigest (canonicalPolicyText document)

/-! ## The default document -/

def ruleFor (family : MetricFamily) (name : String) (basis : MetricBasis) (tolerance : Double)
    (bands : List ThresholdBand) : MetricRule :=
  ⟨⟨family, text name⟩, basis, bands, tolerance, 0, 0, false, Double.threeQuarters, Double.quarter⟩

def fourBands (ids : Fin 4 → String) (states : Fin 4 → QualityState) (first second third : UInt64) :
    List ThresholdBand :=
  [⟨text (ids 0), Double.negativeInfinity, some ⟨first⟩, states 0, []⟩,
    ⟨text (ids 1), ⟨first⟩, some ⟨second⟩, states 1, []⟩,
    ⟨text (ids 2), ⟨second⟩, some ⟨third⟩, states 2, []⟩,
    ⟨text (ids 3), ⟨third⟩, none, states 3, []⟩]

def risingBands (name : String) : UInt64 → UInt64 → UInt64 → List ThresholdBand :=
  fourBands ![name ++ "-severe", name ++ "-degraded", name ++ "-marginal", name ++ "-healthy"]
    ![.severe, .degraded, .marginal, .healthy]

def fallingBands (name : String) : UInt64 → UInt64 → UInt64 → List ThresholdBand :=
  fourBands ![name ++ "-healthy", name ++ "-marginal", name ++ "-degraded", name ++ "-severe"]
    ![.healthy, .marginal, .degraded, .severe]

-- The bounds of the bands and the tolerances are the IEEE 754 encodings of the decimals of the source.
def defaultRules : List MetricRule :=
  let half : Double := ⟨0x3FE0000000000000⟩
  let rate := MetricBasis.counterRatePerSecond
  [ruleFor .signalPower "rx.level" .gaugeValue half
      (risingBands "rx-level" 0xC02C000000000000 0xC026000000000000 0xC01C000000000000),
    ruleFor .signalRatio "snr" .gaugeValue half
      (risingBands "snr" 0x4028000000000000 0x4030000000000000 0x4036000000000000),
    ruleFor .signalRatio "margin" .gaugeValue Double.quarter
      (risingBands "margin" 0 0x4000000000000000 0x4010000000000000),
    ruleFor .errorCounter "errors.uncorrectable" rate Double.zero
      (fallingBands "uncorrectable" 0x3F50624DD2F1A9FC 0x3FB999999999999A 0x4024000000000000),
    ruleFor .errorCounter "errors.corrected" rate Double.zero
      (fallingBands "corrected" 0x3FF0000000000000 0x4059000000000000 0x40C3880000000000),
    ruleFor .errorCounter "errors.frame" rate Double.zero
      (fallingBands "frame-errors" 0x3FB999999999999A 0x4024000000000000 0x408F400000000000),
    ruleFor .errorCounter "errors.symbol" rate Double.zero
      (fallingBands "symbol-errors" 0x3FF0000000000000 0x4059000000000000 0x40F86A0000000000),
    ruleFor .lossRatio "loss.ratio" .gaugeValue half
      (fallingBands "loss" 0x3FF0000000000000 0x4059000000000000 0x408F400000000000)]

def defaultPolicyDocument : PolicyDocument where
  id := text "default"
  rules := defaultRules
  freshness :=
    { defaultValidityNanos := 15000000000
      familyValidityNanos := [(.environmental, 60000000000), (.bias, 60000000000), (.timing, 5000000000)]
      defaultContinuityGapNanos := 60000000000
      minRateIntervalNanos := 1000000 }
  aggregation := ⟨SeverityTable.defaults, true⟩
  unsupportedMetrics := []
  requireCapability := true

end Lqf
