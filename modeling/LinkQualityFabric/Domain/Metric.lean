import LinkQualityFabric.Core.Number
import LinkQualityFabric.Foundations.KeyOrder

/-! Units, metric identities and the metric catalog: `src/domain/units.cpp`, `src/domain/metric.cpp`.

The `Count` sentinels of the source are values of the enumerations here as they are there: a caller can
pass one, and the checks that exclude it are part of the model. -/
namespace Lqf
open Foundations
set_option autoImplicit false

inductive MeasurementUnit where
  | none | decibelMilliwatt | decibel | milliVolt | milliAmp | microAmpere | picoSecond | nanoSecond
  | milliSecond | second | count | partsPerMillion | percent | ratio | bitsPerSecond | bytes
  | milliDegreeCelsius
  deriving DecidableEq, Repr, Inhabited

inductive MetricFamily where
  | unspecified | signalPower | signalRatio | errorCounter | lossRatio | timing | throughput
  | environmental | bias | linkStateHint | count
  deriving DecidableEq, Repr, Inhabited

inductive SampleSemantics where
  | gauge | counter
  deriving DecidableEq, Repr, Inhabited

inductive CounterWidth where
  | unspecified | bits32 | bits64
  deriving DecidableEq, Repr, Inhabited

inductive MetricBasis where
  | gaugeValue | counterRatePerSecond | counterDelta
  deriving DecidableEq, Repr, Inhabited

instance : Enumeration MeasurementUnit where
  values := [.none, .decibelMilliwatt, .decibel, .milliVolt, .milliAmp, .microAmpere, .picoSecond,
    .nanoSecond, .milliSecond, .second, .count, .partsPerMillion, .percent, .ratio, .bitsPerSecond,
    .bytes, .milliDegreeCelsius]
  complete := by intro a; cases a <;> decide

instance : Enumeration MetricFamily where
  values := [.unspecified, .signalPower, .signalRatio, .errorCounter, .lossRatio, .timing, .throughput,
    .environmental, .bias, .linkStateHint, .count]
  complete := by intro a; cases a <;> decide

instance : Enumeration SampleSemantics where
  values := [.gauge, .counter]
  complete := by intro a; cases a <;> decide

instance : Enumeration CounterWidth where
  values := [.unspecified, .bits32, .bits64]
  complete := by intro a; cases a <;> decide

instance : Enumeration MetricBasis where
  values := [.gaugeValue, .counterRatePerSecond, .counterDelta]
  complete := by intro a; cases a <;> decide

namespace MeasurementUnit

def name : MeasurementUnit → Text
  | .none => text "none"
  | .decibelMilliwatt => text "dBm"
  | .decibel => text "dB"
  | .milliVolt => text "mV"
  | .milliAmp => text "mA"
  | .microAmpere => text "uA"
  | .picoSecond => text "ps"
  | .nanoSecond => text "ns"
  | .milliSecond => text "ms"
  | .second => text "s"
  | .count => text "count"
  | .partsPerMillion => text "ppm"
  | .percent => text "percent"
  | .ratio => text "ratio"
  | .bitsPerSecond => text "bit/s"
  | .bytes => text "bytes"
  | .milliDegreeCelsius => text "mC"

end MeasurementUnit

namespace MetricFamily

def name : MetricFamily → Text
  | .unspecified => text "unspecified"
  | .signalPower => text "signal-power"
  | .signalRatio => text "signal-ratio"
  | .errorCounter => text "error-counter"
  | .lossRatio => text "loss-ratio"
  | .timing => text "timing"
  | .throughput => text "throughput"
  | .environmental => text "environmental"
  | .bias => text "bias"
  | .linkStateHint => text "link-state-hint"
  | .count => text "invalid"

end MetricFamily

def CounterWidth.name : CounterWidth → Text
  | .unspecified => text "unspecified"
  | .bits32 => text "u32"
  | .bits64 => text "u64"

def MetricBasis.name : MetricBasis → Text
  | .gaugeValue => text "gauge-value"
  | .counterRatePerSecond => text "counter-rate-per-second"
  | .counterDelta => text "counter-delta"

def counterValueInRange (value : UInt64) : CounterWidth → Bool
  | .bits32 => value ≤ 0xFFFFFFFF
  | .bits64 => true
  | .unspecified => true

/-! ## Metric identities -/

structure MetricId where
  family : MetricFamily
  name : Text
  deriving DecidableEq, Repr, Inhabited

namespace MetricId

def maxNameBytes : ℕ := 96

def render (id : MetricId) : Text := id.family.name ++ text ":" ++ id.name

end MetricId

def isLowerAlnum (character : UInt8) : Bool :=
  (97 ≤ character && character ≤ 122) || (48 ≤ character && character ≤ 57)

/-- The character loop of `name_is_valid`: dots separate, never twice in a row. -/
def nameCharactersValid : Bool → Text → Bool
  | _, [] => true
  | previousDot, character :: rest =>
    if character = 46 then (if previousDot then false else nameCharactersValid true rest)
    else if !isLowerAlnum character && character ≠ 95 && character ≠ 45 then false
    else nameCharactersValid false rest

def nameIsValid (name : Text) : Bool :=
  if name.isEmpty || MetricId.maxNameBytes < name.length then false
  else if name.head? = some 46 || name.getLast? = some 46 then false
  else nameCharactersValid false name

def validateMetricId (id : MetricId) : Outcome Unit := do
  refuseIf (id.family = .unspecified) .invalid (text "metric family is unspecified")
  refuseIf (id.family = .count) .invalid (text "metric family is out of range")
  refuseIf (nameIsValid id.name = false) .invalid
    (text "metric name must be lower case dotted words of at most " ++ formatNat MetricId.maxNameBytes ++
      text " bytes: " ++ id.name)

theorem validateMetricId_eq_ok {id : MetricId} {u : Unit} : validateMetricId id = .ok u ↔
      id.family ≠ .unspecified ∧ id.family ≠ .count ∧ nameIsValid id.name = true := by
  simp [validateMetricId, Outcome.check_bind_eq_ok]

theorem nameIsValid_length {name : Text} (h : nameIsValid name = true) : name.length ≤ MetricId.maxNameBytes := by
  unfold nameIsValid at h
  split at h
  · contradiction
  · next hlen => simp only [Bool.or_eq_true, decide_eq_true_eq, not_or, not_lt] at hlen; exact hlen.2

/-! ## The catalog -/

structure MetricDescriptor where
  id : MetricId
  unit : MeasurementUnit
  semantics : SampleSemantics
  basis : MetricBasis
  counterWidth : CounterWidth
  supportsLanes : Bool
  description : Text
  deriving DecidableEq, Repr, Inhabited

structure MetricCatalog where
  descriptors : List MetricDescriptor
  maxDescriptors : ℕ
  deriving DecidableEq, Repr

namespace MetricCatalog

def empty (maxDescriptors : ℕ) : MetricCatalog :=
  ⟨[], if maxDescriptors = 0 then 1 else maxDescriptors⟩

def find (catalog : MetricCatalog) (id : MetricId) : Option MetricDescriptor :=
  catalog.descriptors.find? fun descriptor => descriptor.id = id

def registerDescriptor (catalog : MetricCatalog) (descriptor : MetricDescriptor) : Outcome MetricCatalog := do
  let counter := descriptor.semantics = .counter
  let named (message : Text) : Text := message ++ descriptor.id.render
  validateMetricId descriptor.id
  refuseIf (descriptor.unit = .none) .invalid (named (text "metric descriptor must declare units: "))
  refuseIf (counter ∧ descriptor.unit ≠ .count ∧ descriptor.unit ≠ .bytes) .invalid
    (named (text "counter metric must be declared in count or bytes: "))
  refuseIf (¬ counter ∧ (descriptor.unit = .count ∨ descriptor.unit = .bytes)) .invalid
    (named (text "gauge metric must not be declared in count or bytes: "))
  refuseIf (counter ∧ descriptor.basis = .gaugeValue) .invalid
    (named (text "counter metric basis must be a counter basis: "))
  refuseIf (¬ counter ∧ descriptor.basis ≠ .gaugeValue) .invalid
    (named (text "gauge metric basis must be gauge-value: "))
  match catalog.find descriptor.id with
  | some existing =>
    if existing.unit = descriptor.unit ∧ existing.semantics = descriptor.semantics then
      fail .duplicate (named (text "metric descriptor already registered: "))
    else fail .conflict (named (text "metric descriptor conflicts with the registered one: "))
  | none =>
    refuseIf (catalog.maxDescriptors ≤ catalog.descriptors.length) .limitExceeded
      (text "metric catalog capacity reached")
    let stored := { descriptor with description := descriptor.description.take 160 }
    return { catalog with descriptors := catalog.descriptors ++ [stored] }

-- A builtin that fails to register is dropped: the assertion behind it is compiled out in release builds.
def add (catalog : MetricCatalog) (family : MetricFamily) (name : String) (unit : MeasurementUnit)
    (semantics : SampleSemantics) (basis : MetricBasis) (width : CounterWidth) (lanes : Bool)
    (description : String) : MetricCatalog :=
  match catalog.registerDescriptor
      ⟨⟨family, text name⟩, unit, semantics, basis, width, lanes, text description⟩ with
  | .ok registered => registered
  | .error _ => catalog

def addGauge (catalog : MetricCatalog) (family : MetricFamily) (name : String) (unit : MeasurementUnit)
    (lanes : Bool) (description : String) : MetricCatalog :=
  catalog.add family name unit .gauge .gaugeValue .unspecified lanes description

def addCounter (catalog : MetricCatalog) (family : MetricFamily) (name : String) (unit : MeasurementUnit)
    (description : String) : MetricCatalog :=
  catalog.add family name unit .counter .counterRatePerSecond .bits64 true description

def withBuiltinDescriptors (maxDescriptors : ℕ) : MetricCatalog :=
  empty maxDescriptors
    |>.addGauge .signalPower "rx.level" .decibelMilliwatt true "received signal level"
    |>.addGauge .signalPower "tx.level" .decibelMilliwatt true "transmitted signal level"
    |>.addGauge .signalRatio "snr" .decibel true "signal to noise ratio"
    |>.addGauge .signalRatio "margin" .decibel true "margin to the decision threshold"
    |>.addGauge .signalPower "eye.height" .milliVolt true "electrical eye height"
    |>.addGauge .timing "eye.width" .picoSecond true "electrical eye width"
    |>.addCounter .errorCounter "errors.symbol" .count "cumulative symbol errors"
    |>.addCounter .errorCounter "errors.frame" .count "cumulative frame errors"
    |>.addCounter .errorCounter "errors.corrected" .count "cumulative corrected errors"
    |>.addCounter .errorCounter "errors.uncorrectable" .count "cumulative uncorrectable errors"
    |>.addGauge .lossRatio "loss.ratio" .partsPerMillion true "loss ratio reported by the source"
    |>.addGauge .timing "latency.roundtrip" .nanoSecond true "round trip latency"
    |>.addGauge .timing "jitter.packet-delay" .nanoSecond true "packet delay variation"
    |>.addCounter .throughput "octets" .bytes "cumulative octets"
    |>.addGauge .environmental "temperature" .milliDegreeCelsius false "module temperature"
    |>.addGauge .bias "bias.current" .microAmpere false "bias current"
    |>.addGauge .linkStateHint "transport.hint" .ratio false
      "opaque transport hint, consumed as evidence only and never as authority"

end MetricCatalog

end Lqf
