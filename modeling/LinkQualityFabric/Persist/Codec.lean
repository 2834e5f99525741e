import LinkQualityFabric.Domain.Capability
import LinkQualityFabric.Domain.PolicyRegistry
import LinkQualityFabric.Persist.Archive
import LinkQualityFabric.Persist.JournalFormat

/-! The persisted types: `lqf/persist/codec.hpp` and the record bodies of `src/runtime/fabric.cpp`.

Each codec lists the fields of its type in the order of `visit_fields`. Enumerations with a sentinel
refuse it when they are decoded and not when they are encoded, so a value that holds one is written and
cannot be read; `Valid` of a codec is that no field holds one. -/
namespace Lqf
open Foundations
set_option autoImplicit false

namespace Codec

def i64 : Codec Int64 := u64.map Int64.toUInt64 UInt64.toInt64 (fun _ => by simp)

def f64 : Codec Double := u64.map Double.bits Double.mk (fun _ => rfl)

def metricFamily : Codec MetricFamily := enum8 (Enumeration.code MetricFamily.count)
def transportKind : Codec TransportKind := enum8 (Enumeration.code TransportKind.count)
def evidenceClass : Codec EvidenceClass := enum8 (Enumeration.code EvidenceClass.count)
def evidenceOrigin : Codec EvidenceOrigin := enum8 (Enumeration.code EvidenceOrigin.count)
def reasonCode : Codec ReasonCode := enum16 (Enumeration.code ReasonCode.count)
def qualityState : Codec QualityState := enum8 9
def sampleSemantics : Codec SampleSemantics := enum8 2
def counterWidth : Codec CounterWidth := enum8 3
def metricBasis : Codec MetricBasis := enum8 3
def measurementUnit : Codec MeasurementUnit := enum8 17

def linkIdentity : Codec LinkIdentity :=
  (text.pair u64).map (fun link => (link.id, link.generation)) (fun (id, generation) => ⟨id, generation⟩)
    (fun _ => rfl)

def sourceIdentity : Codec SourceIdentity :=
  (text.pair u64).map (fun source => (source.id, source.incarnation)) (fun (id, incarnation) => ⟨id, incarnation⟩)
    (fun _ => rfl)

def laneDimension : Codec LaneDimension :=
  (bool.pair u32).map (fun lane => (lane.aggregate, lane.lane)) (fun (aggregate, lane) => ⟨aggregate, lane⟩)
    (fun _ => rfl)

def provenance : Codec Provenance :=
  (transportKind.pair (evidenceClass.pair (text.pair (text.pair (bool.pair i64))))).map
    (fun p => (p.transport, p.evidenceClass, p.origin, p.producer, p.clockSynchronized, p.declaredClockOffsetNanos))
    (fun (transport, cls, origin, producer, synchronized, offset) =>
      ⟨transport, cls, origin, producer, synchronized, offset⟩)
    (fun _ => rfl)

def metricId : Codec MetricId :=
  (metricFamily.pair text).map (fun id => (id.family, id.name)) (fun (family, name) => ⟨family, name⟩) (fun _ => rfl)

def timestamp : Codec Timestamp :=
  (i64.pair bool).map (fun t => (t.unixNanos, t.synchronized)) (fun (nanos, synchronized) => ⟨nanos, synchronized⟩)
    (fun _ => rfl)

def receiveStamp : Codec ReceiveStamp :=
  (i64.pair (i64.pair u64)).map (fun stamp => (stamp.wallNanos, stamp.steadyNanos, stamp.epoch))
    (fun (wall, steady, epoch) => ⟨wall, steady, epoch⟩) (fun _ => rfl)

def gaugeReading : Codec GaugeReading :=
  (f64.pair i64).map (fun reading => (reading.value, reading.validityNanos)) (fun (value, validity) => ⟨value, validity⟩)
    (fun _ => rfl)

def counterReading : Codec CounterReading :=
  (u64.pair (counterWidth.pair bool)).map (fun reading => (reading.value, reading.width, reading.resetDeclared))
    (fun (value, width, reset) => ⟨value, width, reset⟩) (fun _ => rfl)

def reading : Codec Reading :=
  (gaugeReading.sum counterReading).map
    (fun | .gauge gauge => .inl gauge | .counter counter => .inr counter)
    (fun | .inl gauge => .gauge gauge | .inr counter => .counter counter)
    (by rintro (gauge | counter) <;> rfl)

def observation : Codec Observation :=
  (linkIdentity.pair (sourceIdentity.pair (u64.pair (metricId.pair (laneDimension.pair (measurementUnit.pair
    (reading.pair (timestamp.pair (i64.option.pair (u64.pair provenance)))))))))).map
    (fun o => (o.link, o.source, o.sequence, o.metric, o.lane, o.unit, o.reading, o.observedAt, o.intervalNanos,
      o.authority, o.provenance))
    (fun (link, source, sequence, metric, lane, unit, reading, observedAt, interval, authority, provenance) =>
      ⟨link, source, sequence, metric, lane, unit, reading, observedAt, interval, authority, provenance⟩)
    (fun _ => rfl)

def evidenceRecord : Codec EvidenceRecord :=
  (observation.pair (receiveStamp.pair (u64.pair evidenceOrigin))).map
    (fun record => (record.observation, record.received, record.ordinal, record.origin))
    (fun (observation, received, ordinal, origin) => ⟨observation, received, ordinal, origin⟩) (fun _ => rfl)

def metricCapability : Codec MetricCapability :=
  (metricId.pair (measurementUnit.pair (sampleSemantics.pair (counterWidth.pair (bool.pair (u32.pair i64)))))).map
    (fun c => (c.metric, c.unit, c.semantics, c.counterWidth, c.lanesDeclared, c.laneCount, c.validityNanos))
    (fun (metric, unit, semantics, width, declared, count, validity) =>
      ⟨metric, unit, semantics, width, declared, count, validity⟩)
    (fun _ => rfl)

def capabilityDeclaration : Codec CapabilityDeclaration :=
  (sourceIdentity.pair (linkIdentity.option.pair (u64.pair (transportKind.pair (evidenceClass.pair (timestamp.pair
    (metricCapability.list.pair (metricId.list.pair text)))))))).map
    (fun d => (d.source, d.linkScope, d.revision, d.transport, d.evidenceClass, d.declaredAt, d.metrics,
      d.unsupportedMetrics, d.note))
    (fun (source, scope, revision, transport, cls, declaredAt, metrics, unsupported, note) =>
      ⟨source, scope, revision, transport, cls, declaredAt, metrics, unsupported, note⟩)
    (fun _ => rfl)

def thresholdBand : Codec ThresholdBand :=
  (text.pair (f64.pair (f64.option.pair (qualityState.pair text)))).map
    (fun band => (band.id, band.lower, band.upper, band.state, band.label))
    (fun (id, lower, upper, state, label) => ⟨id, lower, upper, state, label⟩) (fun _ => rfl)

def metricRule : Codec MetricRule :=
  (metricId.pair (metricBasis.pair (thresholdBand.list.pair (f64.pair (i64.pair (i64.pair (bool.pair
    (f64.pair f64)))))))).map
    (fun r => (r.metric, r.basis, r.bands, r.conflictTolerance, r.validityNanos, r.maxContinuityGapNanos,
      r.wrapInference, r.wrapCeilingFraction, r.wrapFloorFraction))
    (fun (metric, basis, bands, tolerance, validity, gap, inference, ceiling, floor) =>
      ⟨metric, basis, bands, tolerance, validity, gap, inference, ceiling, floor⟩)
    (fun _ => rfl)

def freshnessPolicy : Codec FreshnessPolicy :=
  (i64.pair ((metricFamily.pair i64).list.pair (i64.pair i64))).map
    (fun f => (f.defaultValidityNanos, f.familyValidityNanos, f.defaultContinuityGapNanos, f.minRateIntervalNanos))
    (fun (validity, families, gap, interval) => ⟨validity, families, gap, interval⟩) (fun _ => rfl)

def severityTable : Codec SeverityTable :=
  (u8.array qualityStateCount (by decide)).map (fun table => ⟨table.rank, table.size⟩)
    (fun ranks => ⟨ranks.1, ranks.2⟩) (fun _ => rfl)

def aggregationPolicy : Codec AggregationPolicy :=
  (severityTable.pair bool).map (fun a => (a.severity, a.conflictingDominates))
    (fun (severity, dominates) => ⟨severity, dominates⟩) (fun _ => rfl)

def policyDocument : Codec PolicyDocument :=
  (text.pair (metricRule.list.pair (freshnessPolicy.pair (aggregationPolicy.pair (metricId.list.pair bool))))).map
    (fun d => (d.id, d.rules, d.freshness, d.aggregation, d.unsupportedMetrics, d.requireCapability))
    (fun (id, rules, freshness, aggregation, unsupported, required) =>
      ⟨id, rules, freshness, aggregation, unsupported, required⟩)
    (fun _ => rfl)

def policyStamp : Codec PolicyStamp :=
  (text.pair (u64.pair text)).map (fun stamp => (stamp.id, stamp.generation, stamp.contentHash))
    (fun (id, generation, hash) => ⟨id, generation, hash⟩) (fun _ => rfl)

def policyGenerationRecord : Codec PolicyGenerationRecord :=
  (policyStamp.pair (timestamp.pair policyDocument)).map
    (fun record => (record.stamp, record.publishedAt, record.document))
    (fun (stamp, publishedAt, document) => ⟨stamp, publishedAt, document⟩) (fun _ => rfl)

def streamKey : Codec StreamKey :=
  (linkIdentity.pair (metricId.pair (laneDimension.pair sourceIdentity))).map
    (fun key => (key.link, key.metric, key.lane, key.source))
    (fun (link, metric, lane, source) => ⟨link, metric, lane, source⟩) (fun _ => rfl)

end Codec

/-! ## Record bodies -/

structure LinkObservedBody where
  link : LinkIdentity
  observedAt : Timestamp
  received : ReceiveStamp
  deriving DecidableEq, Repr, Inhabited

structure GenerationBody where
  link : Text
  generation : UInt64
  at_ : Timestamp
  received : ReceiveStamp
  reason : ReasonCode
  deriving DecidableEq, Repr, Inhabited

structure DedupBody where
  key : StreamKey
  entries : List (UInt64 × UInt64)
  deriving DecidableEq, Repr, Inhabited

namespace Codec

def linkObservedBody : Codec LinkObservedBody :=
  (linkIdentity.pair (timestamp.pair receiveStamp)).map (fun body => (body.link, body.observedAt, body.received))
    (fun (link, observedAt, received) => ⟨link, observedAt, received⟩) (fun _ => rfl)

def generationBody : Codec GenerationBody :=
  (text.pair (u64.pair (timestamp.pair (receiveStamp.pair reasonCode)))).map
    (fun body => (body.link, body.generation, body.at_, body.received, body.reason))
    (fun (link, generation, at_, received, reason) => ⟨link, generation, at_, received, reason⟩) (fun _ => rfl)

def dedupBody : Codec DedupBody :=
  (streamKey.pair (u64.pair u64).list).map (fun body => (body.key, body.entries))
    (fun (key, entries) => ⟨key, entries⟩) (fun _ => rfl)

end Codec

end Lqf
