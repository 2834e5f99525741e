import LinkQualityFabric.Domain.Classification
import LinkQualityFabric.Persist.Codec

/-! The codecs of queries and reports: the rest of `lqf/persist/codec.hpp`. -/
namespace Lqf.Codec
set_option autoImplicit false

def confidenceLevel : Codec ConfidenceLevel := enum8 4
def windowAxis : Codec WindowAxis := enum8 2

def declaredSource : Codec DeclaredSource :=
  (sourceIdentity.pair (u64.pair (evidenceClass.pair (transportKind.pair (bool.pair (u32.pair
    (measurementUnit.pair (sampleSemantics.pair (counterWidth.pair i64))))))))).map
    (fun value => (value.source, value.revision, value.evidenceClass, value.transport, value.lanesDeclared,
      value.laneCount, value.unit, value.semantics, value.counterWidth, value.validityNanos))
    (fun (source, revision, evidenceClass, transport, lanesDeclared, laneCount, unit, semantics, counterWidth,
      validityNanos) =>
      ⟨source, revision, evidenceClass, transport, lanesDeclared, laneCount, unit, semantics, counterWidth,
       validityNanos⟩)
    (fun _ => rfl)

def metricCapabilityView : Codec MetricCapabilityView :=
  (metricId.pair (declaredSource.list.pair declaredSource.list)).map
    (fun value => (value.metric, value.declaredBy, value.declaredUnsupportedBy))
    (fun (metric, declaredBy, declaredUnsupportedBy) =>
      ⟨metric, declaredBy, declaredUnsupportedBy⟩)
    (fun _ => rfl)

def counterDelta : Codec CounterDelta :=
  (u64.pair (i64.pair (bool.pair bool))).map
    (fun value => (value.delta, value.elapsedNanos, value.spansGap, value.fromWrap))
    (fun (delta, elapsedNanos, spansGap, fromWrap) =>
      ⟨delta, elapsedNanos, spansGap, fromWrap⟩)
    (fun _ => rfl)

def evidenceRef : Codec EvidenceRef :=
  (sourceIdentity.pair (u64.pair (laneDimension.pair (metricId.pair (timestamp.pair (receiveStamp.pair
    (evidenceOrigin.pair (evidenceClass.pair (u64.pair (measurementUnit.pair (f64.pair (u64.option.pair
    (counterDelta.option.pair (bool.pair (bool.pair (i64.pair (text.pair text))))))))))))))))).map
    (fun value => (value.source, value.sequence, value.lane, value.metric, value.observedAt, value.received,
      value.origin, value.evidenceClass, value.authority, value.unit, value.value, value.counterReading,
      value.delta, value.used, value.fresh, value.ageNanos, value.rendered, value.provenance))
    (fun (source, sequence, lane, metric, observedAt, received, origin, evidenceClass, authority, unit, value,
      counterReading, delta, used, fresh, ageNanos, rendered, provenance) =>
      ⟨source, sequence, lane, metric, observedAt, received, origin, evidenceClass, authority, unit, value,
       counterReading, delta, used, fresh, ageNanos, rendered, provenance⟩)
    (fun _ => rfl)

def metricAssessment : Codec MetricAssessment :=
  (metricId.pair (laneDimension.pair (qualityState.pair (confidenceLevel.pair (reasonCode.list.pair
    (evidenceRef.list.pair (text.list.pair (f64.option.pair (f64.option.pair (f64.option.pair (u32.list.pair
    (u32.pair (u32.pair (u32.pair (u32.pair (bool.pair f64.option)))))))))))))))).map
    (fun value => (value.metric, value.lane, value.state, value.confidence, value.reasons, value.evidence,
      value.rules, value.value, value.ratePerSecond, value.disagreement, value.missingLanes,
      value.sourcesDeclared, value.sourcesWithEvidence, value.sourcesFresh, value.sourcesConflicting,
      value.capabilityDeclared, value.intervalRatePerSecond))
    (fun (metric, lane, state, confidence, reasons, evidence, rules, value, ratePerSecond, disagreement,
      missingLanes, sourcesDeclared, sourcesWithEvidence, sourcesFresh, sourcesConflicting, capabilityDeclared,
      intervalRatePerSecond) =>
      ⟨metric, lane, state, confidence, reasons, evidence, rules, value, ratePerSecond, disagreement,
       missingLanes, sourcesDeclared, sourcesWithEvidence, sourcesFresh, sourcesConflicting, capabilityDeclared,
       intervalRatePerSecond⟩)
    (fun _ => rfl)

def linkQualityReport : Codec LinkQualityReport :=
  (linkIdentity.pair (bool.pair (bool.pair (policyStamp.pair (u64.pair (qualityState.pair
    (confidenceLevel.pair (reasonCode.list.pair (metricAssessment.list.pair (u64.pair (u64.pair (u64.pair
    (i64.pair (i64.pair bool)))))))))))))).map
    (fun value => (value.link, value.linkRegistered, value.evidencePresent, value.policy, value.epoch,
      value.overall, value.confidence, value.reasons, value.metrics, value.evidenceConsidered,
      value.evidenceFresh, value.evidenceRecovered, value.generatedWallNanos, value.generatedSteadyNanos,
      value.truncated))
    (fun (link, linkRegistered, evidencePresent, policy, epoch, overall, confidence, reasons, metrics,
      evidenceConsidered, evidenceFresh, evidenceRecovered, generatedWallNanos, generatedSteadyNanos, truncated)
      =>
      ⟨link, linkRegistered, evidencePresent, policy, epoch, overall, confidence, reasons, metrics,
       evidenceConsidered, evidenceFresh, evidenceRecovered, generatedWallNanos, generatedSteadyNanos,
       truncated⟩)
    (fun _ => rfl)

def conflictEntry : Codec ConflictEntry :=
  (linkIdentity.pair (metricId.pair (laneDimension.pair (evidenceRef.list.pair (f64.pair f64))))).map
    (fun value => (value.link, value.metric, value.lane, value.claimants, value.spread, value.tolerance))
    (fun (link, metric, lane, claimants, spread, tolerance) =>
      ⟨link, metric, lane, claimants, spread, tolerance⟩)
    (fun _ => rfl)

def staleEntry : Codec StaleEntry :=
  (linkIdentity.pair (metricId.pair (laneDimension.pair (sourceIdentity.pair (evidenceOrigin.pair (i64.pair
    (receiveStamp.pair reasonCode))))))).map
    (fun value => (value.link, value.metric, value.lane, value.source, value.origin, value.ageNanos,
      value.received, value.reason))
    (fun (link, metric, lane, source, origin, ageNanos, received, reason) =>
      ⟨link, metric, lane, source, origin, ageNanos, received, reason⟩)
    (fun _ => rfl)

def freshnessEntry : Codec FreshnessEntry :=
  (linkIdentity.pair (metricId.pair (laneDimension.pair (u32.pair (u32.pair (u32.pair (u32.pair (i64.pair
    bool)))))))).map
    (fun value => (value.link, value.metric, value.lane, value.freshSources, value.staleSources,
      value.recoveredSources, value.declaredSources, value.newestAgeNanos, value.hasFreshEvidence))
    (fun (link, metric, lane, freshSources, staleSources, recoveredSources, declaredSources, newestAgeNanos,
      hasFreshEvidence) =>
      ⟨link, metric, lane, freshSources, staleSources, recoveredSources, declaredSources, newestAgeNanos,
       hasFreshEvidence⟩)
    (fun _ => rfl)

def inspectionReport : Codec InspectionReport :=
  (policyStamp.pair (u64.pair (i64.pair (conflictEntry.list.pair (staleEntry.list.pair
    (freshnessEntry.list.pair (u64.pair (u64.pair bool)))))))).map
    (fun value => (value.policy, value.epoch, value.generatedWallNanos, value.conflicts, value.stale,
      value.freshness, value.linksInspected, value.entriesDropped, value.truncated))
    (fun (policy, epoch, generatedWallNanos, conflicts, stale, freshness, linksInspected, entriesDropped,
      truncated) =>
      ⟨policy, epoch, generatedWallNanos, conflicts, stale, freshness, linksInspected, entriesDropped,
       truncated⟩)
    (fun _ => rfl)

def windowResult : Codec WindowResult :=
  (evidenceRecord.list.pair (u64.pair (u64.pair (bool.pair (i64.pair (i64.pair (bool.pair
    linkQualityReport.option))))))).map
    (fun value => (value.records, value.matched, value.returned, value.truncated,
      value.earliestAvailableNanos, value.latestAvailableNanos, value.hasAvailableRange, value.asOfReport))
    (fun (records, matched, returned, truncated, earliestAvailableNanos, latestAvailableNanos,
      hasAvailableRange, asOfReport) =>
      ⟨records, matched, returned, truncated, earliestAvailableNanos, latestAvailableNanos, hasAvailableRange,
       asOfReport⟩)
    (fun _ => rfl)

def qualityQuery : Codec QualityQuery :=
  (linkIdentity.pair (laneDimension.option.pair (metricId.list.pair (bool.pair (u64.pair u64))))).map
    (fun value => (value.link, value.lane, value.metrics, value.includeEvidence, value.maxMetrics,
      value.maxEvidencePerMetric))
    (fun (link, lane, metrics, includeEvidence, maxMetrics, maxEvidencePerMetric) =>
      ⟨link, lane, metrics, includeEvidence, maxMetrics, maxEvidencePerMetric⟩)
    (fun _ => rfl)

def windowQuery : Codec WindowQuery :=
  (linkIdentity.option.pair (metricId.option.pair (laneDimension.option.pair (text.option.pair
    (windowAxis.pair (i64.pair (i64.pair (u64.pair (bool.pair (bool.pair (i64.pair (u64.pair u64)))))))))))).map
    (fun value => (value.link, value.metric, value.lane, value.source, value.axis, value.fromNanos,
      value.toNanos, value.limit, value.includeEvidence, value.assessAsOf, value.asOfSteadyNanos,
      value.maxMetrics, value.maxEvidencePerMetric))
    (fun (link, metric, lane, source, axis, fromNanos, toNanos, limit, includeEvidence, assessAsOf,
      asOfSteadyNanos, maxMetrics, maxEvidencePerMetric) =>
      ⟨link, metric, lane, source, axis, fromNanos, toNanos, limit, includeEvidence, assessAsOf,
       asOfSteadyNanos, maxMetrics, maxEvidencePerMetric⟩)
    (fun _ => rfl)

def inspectionFilter : Codec InspectionFilter :=
  (linkIdentity.option.pair (metricId.option.pair (u64.pair u64))).map
    (fun value => (value.link, value.metric, value.maxEntries, value.maxClaimantsPerConflict))
    (fun (link, metric, maxEntries, maxClaimantsPerConflict) =>
      ⟨link, metric, maxEntries, maxClaimantsPerConflict⟩)
    (fun _ => rfl)

def explanation : Codec Explanation :=
  (linkQualityReport.pair text).map
    (fun value => (value.report, value.text))
    (fun (report, text) =>
      ⟨report, text⟩)
    (fun _ => rfl)

def metricDescriptor : Codec MetricDescriptor :=
  (metricId.pair (measurementUnit.pair (sampleSemantics.pair (metricBasis.pair (counterWidth.pair (bool.pair
    text)))))).map
    (fun value => (value.id, value.unit, value.semantics, value.basis, value.counterWidth,
      value.supportsLanes, value.description))
    (fun (id, unit, semantics, basis, counterWidth, supportsLanes, description) =>
      ⟨id, unit, semantics, basis, counterWidth, supportsLanes, description⟩)
    (fun _ => rfl)

end Lqf.Codec
