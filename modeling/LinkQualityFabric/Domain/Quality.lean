import LinkQualityFabric.Core.Status
import LinkQualityFabric.Foundations.KeyOrder

/-! The quality vocabulary: `lqf/domain/quality.hpp`, `src/domain/quality.cpp`. -/
namespace Lqf
open Foundations
set_option autoImplicit false

inductive QualityState where
  | unknown | unsupported | healthy | incomplete | stale | marginal | degraded | severe | conflicting
  deriving DecidableEq, Repr, Inhabited

instance : Enumeration QualityState where
  values := [.unknown, .unsupported, .healthy, .incomplete, .stale, .marginal, .degraded, .severe,
    .conflicting]
  complete := by intro a; cases a <;> decide

def QualityState.name : QualityState → Text
  | .unknown => text "unknown"
  | .unsupported => text "unsupported"
  | .healthy => text "healthy"
  | .incomplete => text "incomplete"
  | .stale => text "stale"
  | .marginal => text "marginal"
  | .degraded => text "degraded"
  | .severe => text "severe"
  | .conflicting => text "conflicting"

def qualityStateCount : ℕ := 9

/-- One rank for each quality state, in the order of the states. -/
structure SeverityTable where
  rank : List UInt8
  size : rank.length = qualityStateCount
  deriving DecidableEq, Repr

namespace SeverityTable

def defaults : SeverityTable := ⟨[0, 1, 2, 3, 4, 5, 6, 7, 8], rfl⟩

instance : Inhabited SeverityTable := ⟨defaults⟩

def isTotalOrderFrom (seen : List UInt8) : List UInt8 → Bool
  | [] => true
  | value :: rest =>
    if qualityStateCount ≤ value.toNat || seen.contains value then false
    else isTotalOrderFrom (value :: seen) rest

def isTotalOrder (table : SeverityTable) : Bool := isTotalOrderFrom [] table.rank

end SeverityTable

inductive ReasonCode where
  | none | linkNotRegistered | noSourcesForLink | metricNotDeclared | declaredUnsupported
  | laneNotDeclared | laneOutOfRange | noEvidence | noRuleForMetric | unknownMetric | evidenceExpired
  | recoveredEvidenceOnly | noFreshEvidence | partiallyFreshEvidence | counterBaselineOnly
  | counterReset | counterWrapInferred | counterDecreaseAmbiguous | counterWidthChanged
  | counterSourceReincarnated | counterLinkGenerationChanged | counterOutOfRange
  | continuityGapExceeded | missingSamples | rateIntervalTooShort | counterSequenceRegressed
  | equalAuthorityDisagreement | lowerAuthorityIgnored | missingLanes | laneCoveragePartial
  | bandMatched | policyDefaultApplied | nonFiniteSample | unitMismatch | semanticsMismatch
  | negativeValue | counterWidthMissing | evidenceIdMismatch | evidenceTooLarge | capabilityMissing
  | capabilityScopeMismatch | ingestLimitReached | queueFull | recoveredFromPersistence
  | persistenceDegraded | fencedGeneration | fencedIncarnation | count
  deriving DecidableEq, Repr, Inhabited

instance : Enumeration ReasonCode where
  values := [.none, .linkNotRegistered, .noSourcesForLink, .metricNotDeclared, .declaredUnsupported,
    .laneNotDeclared, .laneOutOfRange, .noEvidence, .noRuleForMetric, .unknownMetric, .evidenceExpired,
    .recoveredEvidenceOnly, .noFreshEvidence, .partiallyFreshEvidence, .counterBaselineOnly,
    .counterReset, .counterWrapInferred, .counterDecreaseAmbiguous, .counterWidthChanged,
    .counterSourceReincarnated, .counterLinkGenerationChanged, .counterOutOfRange,
    .continuityGapExceeded, .missingSamples, .rateIntervalTooShort, .counterSequenceRegressed,
    .equalAuthorityDisagreement, .lowerAuthorityIgnored, .missingLanes, .laneCoveragePartial,
    .bandMatched, .policyDefaultApplied, .nonFiniteSample, .unitMismatch, .semanticsMismatch,
    .negativeValue, .counterWidthMissing, .evidenceIdMismatch, .evidenceTooLarge, .capabilityMissing,
    .capabilityScopeMismatch, .ingestLimitReached, .queueFull, .recoveredFromPersistence,
    .persistenceDegraded, .fencedGeneration, .fencedIncarnation, .count]
  complete := by intro a; cases a <;> decide

end Lqf
