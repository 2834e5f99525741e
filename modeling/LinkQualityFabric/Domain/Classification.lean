import LinkQualityFabric.Domain.Capability
import LinkQualityFabric.Domain.Counter
import LinkQualityFabric.Domain.PolicyRegistry

/-! Queries and what they are answered with: `lqf/domain/classification.hpp` and the views of
`lqf/domain/capability.hpp`. -/
namespace Lqf
open Foundations
set_option autoImplicit false

inductive ConfidenceLevel where
  | none | low | medium | high
  deriving DecidableEq, Repr, Inhabited

inductive WindowAxis where
  | observationTime | receiveTime
  deriving DecidableEq, Repr, Inhabited

instance : Enumeration ConfidenceLevel where
  values := [.none, .low, .medium, .high]
  complete := by intro a; cases a <;> decide

instance : Enumeration WindowAxis where
  values := [.observationTime, .receiveTime]
  complete := by intro a; cases a <;> decide

/-! ## Declarations seen from a link -/

structure DeclaredSource where
  source : SourceIdentity
  revision : UInt64
  evidenceClass : EvidenceClass
  transport : TransportKind
  lanesDeclared : Bool
  laneCount : UInt32
  unit : MeasurementUnit
  semantics : SampleSemantics
  counterWidth : CounterWidth
  validityNanos : Int64
  deriving DecidableEq, Repr, Inhabited

structure MetricCapabilityView where
  metric : MetricId
  declaredBy : List DeclaredSource := []
  declaredUnsupportedBy : List DeclaredSource := []
  deriving DecidableEq, Repr, Inhabited

namespace MetricCapabilityView

def supported (view : MetricCapabilityView) : Bool := !view.declaredBy.isEmpty

def explicitlyUnsupported (view : MetricCapabilityView) : Bool :=
  view.declaredBy.isEmpty && !view.declaredUnsupportedBy.isEmpty

end MetricCapabilityView

/-! ## Reports -/

abbrev ReasonList := List ReasonCode

def addReason (reasons : ReasonList) (code : ReasonCode) : ReasonList :=
  if code = .none ∨ code ∈ reasons then reasons else reasons ++ [code]

structure EvidenceRef where
  source : SourceIdentity
  sequence : UInt64
  lane : LaneDimension
  metric : MetricId
  observedAt : Timestamp
  received : ReceiveStamp
  origin : EvidenceOrigin
  evidenceClass : EvidenceClass
  authority : UInt64
  unit : MeasurementUnit
  value : Double
  counterReading : Option UInt64
  delta : Option CounterDelta
  used : Bool
  fresh : Bool
  ageNanos : Int64
  rendered : Text
  provenance : Text
  deriving DecidableEq, Repr, Inhabited

structure MetricAssessment where
  metric : MetricId
  lane : LaneDimension
  state : QualityState := .unknown
  confidence : ConfidenceLevel := .none
  reasons : ReasonList := []
  evidence : List EvidenceRef := []
  rules : List Text := []
  value : Option Double := none
  ratePerSecond : Option Double := none
  disagreement : Option Double := none
  missingLanes : List UInt32 := []
  sourcesDeclared : UInt32 := 0
  sourcesWithEvidence : UInt32 := 0
  sourcesFresh : UInt32 := 0
  sourcesConflicting : UInt32 := 0
  capabilityDeclared : Bool := false
  intervalRatePerSecond : Option Double := none
  deriving DecidableEq, Repr, Inhabited

structure LinkQualityReport where
  link : LinkIdentity
  linkRegistered : Bool
  evidencePresent : Bool
  policy : PolicyStamp
  epoch : UInt64
  overall : QualityState
  confidence : ConfidenceLevel
  reasons : ReasonList
  metrics : List MetricAssessment
  evidenceConsidered : UInt64
  evidenceFresh : UInt64
  evidenceRecovered : UInt64
  generatedWallNanos : Int64
  generatedSteadyNanos : Int64
  truncated : Bool
  deriving DecidableEq, Repr, Inhabited

/-! ## Queries

An absent lane asks for the roll-up over every declared lane, an empty list of metrics for every declared metric. -/

structure QualityQuery where
  link : LinkIdentity
  lane : Option LaneDimension := none
  metrics : List MetricId := []
  includeEvidence : Bool := true
  maxMetrics : UInt64 := 64
  maxEvidencePerMetric : UInt64 := 8
  deriving DecidableEq, Repr, Inhabited

structure WindowQuery where
  link : Option LinkIdentity := none
  metric : Option MetricId := none
  lane : Option LaneDimension := none
  source : Option Text := none
  axis : WindowAxis := .observationTime
  fromNanos : Int64 := Int64.minValue
  toNanos : Int64 := Int64.maxValue
  limit : UInt64 := 1024
  includeEvidence : Bool := true
  assessAsOf : Bool := false
  asOfSteadyNanos : Int64 := 0
  maxMetrics : UInt64 := 64
  maxEvidencePerMetric : UInt64 := 8
  deriving DecidableEq, Repr, Inhabited

structure WindowResult where
  records : List EvidenceRecord := []
  matched : UInt64 := 0
  returned : UInt64 := 0
  truncated : Bool := false
  earliestAvailableNanos : Int64 := 0
  latestAvailableNanos : Int64 := 0
  hasAvailableRange : Bool := false
  asOfReport : Option LinkQualityReport := none
  deriving DecidableEq, Repr, Inhabited

structure ConflictEntry where
  link : LinkIdentity
  metric : MetricId
  lane : LaneDimension
  claimants : List EvidenceRef
  spread : Double
  tolerance : Double
  deriving DecidableEq, Repr, Inhabited

structure StaleEntry where
  link : LinkIdentity
  metric : MetricId
  lane : LaneDimension
  source : SourceIdentity
  origin : EvidenceOrigin
  ageNanos : Int64
  received : ReceiveStamp
  reason : ReasonCode
  deriving DecidableEq, Repr, Inhabited

structure FreshnessEntry where
  link : LinkIdentity
  metric : MetricId
  lane : LaneDimension
  freshSources : UInt32
  staleSources : UInt32
  recoveredSources : UInt32
  declaredSources : UInt32
  newestAgeNanos : Int64
  hasFreshEvidence : Bool
  deriving DecidableEq, Repr, Inhabited

structure InspectionFilter where
  link : Option LinkIdentity := none
  metric : Option MetricId := none
  maxEntries : UInt64 := 256
  maxClaimantsPerConflict : UInt64 := 8
  deriving DecidableEq, Repr, Inhabited

structure InspectionReport where
  policy : PolicyStamp
  epoch : UInt64
  generatedWallNanos : Int64
  conflicts : List ConflictEntry
  stale : List StaleEntry
  freshness : List FreshnessEntry
  linksInspected : UInt64
  entriesDropped : UInt64
  truncated : Bool
  deriving DecidableEq, Repr, Inhabited

structure Explanation where
  report : LinkQualityReport
  text : Text
  deriving DecidableEq, Repr, Inhabited

end Lqf
