import LinkQualityFabric.Domain.Policy

/-! Counter continuity: `src/domain/counter.cpp`.

One tracker follows one counter stream. Every reading either yields a proven difference to the reading
before it or says which claim failed, and then no difference is made up. -/
namespace Lqf
set_option autoImplicit false

inductive CounterEvent where
  | baseline | advance | wrap | reset | decreaseUnproven | widthChanged | sourceReincarnated
  | linkGenerationChanged | outOfRange | sequenceRegressed | count
  deriving DecidableEq, Repr, Inhabited

def reasonFor : CounterEvent → ReasonCode
  | .baseline => .counterBaselineOnly
  | .advance => .none
  | .wrap => .counterWrapInferred
  | .reset => .counterReset
  | .decreaseUnproven => .counterDecreaseAmbiguous
  | .widthChanged => .counterWidthChanged
  | .sourceReincarnated => .counterSourceReincarnated
  | .linkGenerationChanged => .counterLinkGenerationChanged
  | .outOfRange => .counterOutOfRange
  | .sequenceRegressed => .counterSequenceRegressed
  | .count => .none

def counterEventPreservesContinuity (event : CounterEvent) : Bool := event = .advance || event = .wrap

structure CounterDelta where
  delta : UInt64
  elapsedNanos : Int64
  spansGap : Bool
  fromWrap : Bool
  deriving DecidableEq, Repr, Inhabited

structure CounterStep where
  event : CounterEvent
  reason : ReasonCode
  delta : Option CounterDelta
  continuityIntact : Bool
  deriving DecidableEq, Repr, Inhabited

structure CounterObservation where
  value : UInt64
  width : CounterWidth
  resetDeclared : Bool
  observedNanos : Int64
  receivedSteadyNanos : Int64
  sequence : UInt64
  incarnation : UInt64
  linkGeneration : UInt64
  deriving DecidableEq, Repr, Inhabited

structure CounterContinuityConfig where
  wrapInference : Bool
  wrapCeilingFraction : Double
  wrapFloorFraction : Double
  maxGapNanos : Int64
  deriving DecidableEq, Repr

def CounterContinuityConfig.defaults : CounterContinuityConfig :=
  ⟨false, Double.threeQuarters, Double.quarter, 60000000000⟩

instance : Inhabited CounterContinuityConfig := ⟨.defaults⟩

/-- `counter_config_for`: the rule of the metric first, then the freshness defaults. -/
def counterConfigFor (document : PolicyDocument) (metric : MetricId) : CounterContinuityConfig :=
  match document.findRule metric with
  | some rule =>
    ⟨rule.wrapInference, rule.wrapCeilingFraction, rule.wrapFloorFraction,
      if 0 < rule.maxContinuityGapNanos then rule.maxContinuityGapNanos
      else document.freshness.defaultContinuityGapNanos⟩
  | none =>
    { CounterContinuityConfig.defaults with maxGapNanos := document.freshness.defaultContinuityGapNanos }

structure CounterContinuity where
  hasBaseline : Bool
  lastValue : UInt64
  lastWidth : CounterWidth
  lastResetDeclared : Bool
  lastObservedNanos : Int64
  lastReceivedSteadyNanos : Int64
  lastSequence : UInt64
  incarnation : UInt64
  linkGeneration : UInt64
  identityBound : Bool
  lastEvent : CounterEvent
  lastDelta : Option CounterDelta
  rateAdmissible : Bool
  samples : UInt64
  advances : UInt64
  wraps : UInt64
  resets : UInt64
  unprovenDecreases : UInt64
  gaps : UInt64
  reincarnations : UInt64
  widthChanges : UInt64
  outOfRange : UInt64
  sequenceRegressions : UInt64
  missingSamples : UInt64
  deriving DecidableEq, Repr

/-! ## Wrap inference -/

/-- A fraction of the modulus as a reading. The product is exact before the truncating conversion and
clamped to the reading domain; the fraction is finite, as validation requires. -/
def boundary (modulus : UInt64) (fraction : Double) : UInt64 :=
  let scaled : ℤ := modulus.toNat * fraction.units
  if scaled ≤ 0 then 0
  else if (2 ^ 64 - 1) * 2 ^ 1074 ≤ scaled then 0xFFFFFFFFFFFFFFFF
  else UInt64.ofNat (scaled / 2 ^ 1074).toNat

/-- The proven difference of a decrease, if it is a wrap. -/
def classifyDecrease (previous current : UInt64) (width : CounterWidth) (config : CounterContinuityConfig) :
    Option UInt64 :=
  if config.wrapInference = false ∨ width = .unspecified then none
  else
    let effectiveModulus : UInt64 := if width = .bits64 then 0xFFFFFFFFFFFFFFFF else 0x100000000
    let ceiling := boundary effectiveModulus config.wrapCeilingFraction
    let floorBound := boundary effectiveModulus config.wrapFloorFraction
    if previous < ceiling ∨ floorBound < current then none
    else some (if width = .bits32 then (0x100000000 - previous) + current else current - previous)

/-! ## Observation -/

namespace CounterContinuity

def initial : CounterContinuity :=
  ⟨false, 0, .unspecified, false, 0, 0, 0, 0, 0, false, .baseline, none, false, 0, 0, 0, 0, 0, 0, 0, 0, 0, 0, 0⟩

instance : Inhabited CounterContinuity := ⟨initial⟩

def rebaseline (tracker : CounterContinuity) (reading : CounterObservation) : CounterContinuity :=
  { tracker with
    hasBaseline := true
    lastValue := reading.value
    lastWidth := reading.width
    lastResetDeclared := reading.resetDeclared
    lastObservedNanos := reading.observedNanos
    lastReceivedSteadyNanos := reading.receivedSteadyNanos
    lastSequence := reading.sequence
    incarnation := reading.incarnation
    linkGeneration := reading.linkGeneration
    identityBound := true }

-- The common end of every branch that reports no difference.
def withoutDelta (tracker : CounterContinuity) (event : CounterEvent) (intact : Bool) :
    CounterStep × CounterContinuity :=
  (⟨event, reasonFor event, none, intact⟩,
    { tracker with lastEvent := event, lastDelta := none, rateAdmissible := false })

def elapsedSince (tracker : CounterContinuity) (reading : CounterObservation) : Int64 :=
  let elapsed := (checkedSubI64 reading.observedNanos tracker.lastObservedNanos).getD Int64.maxValue
  if elapsed < 0 then 0 else elapsed

-- The branch of two comparable readings; `event` says how the difference was proven.
def withDelta (tracker : CounterContinuity) (reading : CounterObservation) (delta : CounterDelta)
    (event : CounterEvent) : CounterStep × CounterContinuity :=
  let tracker := if delta.spansGap then { tracker with gaps := tracker.gaps + 1 } else tracker
  let tracker := { tracker with
    lastEvent := event, lastDelta := some delta, rateAdmissible := !delta.spansGap }
  (⟨event, reasonFor event, some delta, true⟩, tracker.rebaseline reading)

def compareReadings (tracker : CounterContinuity) (reading : CounterObservation)
    (config : CounterContinuityConfig) : CounterStep × CounterContinuity :=
  let tracker :=
    if reading.sequence > tracker.lastSequence + 1 then
      { tracker with missingSamples := tracker.missingSamples + (reading.sequence - tracker.lastSequence - 1) }
    else tracker
  let elapsed := tracker.elapsedSince reading
  let spansGap : Bool := elapsed > config.maxGapNanos || elapsed ≤ 0
  if tracker.lastValue ≤ reading.value then
    withDelta { tracker with advances := tracker.advances + 1 } reading
      ⟨reading.value - tracker.lastValue, elapsed, spansGap, false⟩ .advance
  else
    match classifyDecrease tracker.lastValue reading.value reading.width config with
    | none =>
      withoutDelta
        ({ tracker with unprovenDecreases := tracker.unprovenDecreases + 1 }.rebaseline reading)
        .decreaseUnproven false
    | some delta =>
      withDelta { tracker with wraps := tracker.wraps + 1 } reading ⟨delta, elapsed, spansGap, true⟩ .wrap

def observe (tracker : CounterContinuity) (reading : CounterObservation) (config : CounterContinuityConfig) :
    CounterStep × CounterContinuity :=
  let tracker := { tracker with samples := tracker.samples + 1 }
  if tracker.identityBound ∧ reading.incarnation ≠ tracker.incarnation then
    withoutDelta ({ tracker with reincarnations := tracker.reincarnations + 1 }.rebaseline reading)
      .sourceReincarnated true
  else if tracker.identityBound ∧ reading.linkGeneration ≠ tracker.linkGeneration then
    withoutDelta ({ tracker with reincarnations := tracker.reincarnations + 1 }.rebaseline reading)
      .linkGenerationChanged true
  else if counterValueInRange reading.value reading.width = false then
    withoutDelta { tracker with outOfRange := tracker.outOfRange + 1, hasBaseline := false } .outOfRange false
  else if tracker.hasBaseline ∧ reading.width ≠ tracker.lastWidth then
    withoutDelta ({ tracker with widthChanges := tracker.widthChanges + 1 }.rebaseline reading)
      .widthChanged true
  else if tracker.hasBaseline ∧ reading.sequence < tracker.lastSequence then
    withoutDelta { tracker with sequenceRegressions := tracker.sequenceRegressions + 1 }
      .sequenceRegressed true
  else if reading.resetDeclared then
    withoutDelta ({ tracker with resets := tracker.resets + 1 }.rebaseline reading) .reset true
  else if tracker.hasBaseline = false then
    withoutDelta (tracker.rebaseline reading) .baseline true
  else tracker.compareReadings reading config

end CounterContinuity

end Lqf
