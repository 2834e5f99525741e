import LinkQualityFabric.Domain.Policy

/-! Limits and configuration: `src/runtime/config.cpp`. -/
namespace Lqf
set_option autoImplicit false

def requireBetween (name : String) (value low high : ℕ) : Outcome Unit :=
  refuseIf (value < low ∨ high < value) .invalid
    (text name ++ text " must be within [" ++ formatNat low ++ text ", " ++ formatNat high ++
      text "], received " ++ formatNat value)

theorem requireBetween_eq_ok {name : String} {value low high : ℕ} {u : Unit} :
    requireBetween name value low high = .ok u ↔ low ≤ value ∧ value ≤ high := by
  simp [requireBetween]

structure FabricLimits where
  maxLinks : ℕ
  maxGenerationsPerLink : ℕ
  maxSourcesPerLink : ℕ
  maxStreamsPerLink : ℕ
  maxCapabilityDeclarations : ℕ
  maxMetricsPerCapability : ℕ
  maxPolicyRules : ℕ
  maxBandsPerRule : ℕ
  maxPolicyGenerations : ℕ
  maxStreamHistory : ℕ
  maxGlobalHistory : ℕ
  maxDedupWindow : ℕ
  maxEvidenceBatch : ℕ
  maxEvidencePerMetric : ℕ
  maxMetricsPerQuery : ℕ
  maxWindowRecords : ℕ
  maxInspectionEntries : ℕ
  maxStringBytes : ℕ
  maxObservationAgeNanos : Int64
  deriving DecidableEq, Repr

namespace FabricLimits

def defaults : FabricLimits where
  maxLinks := 4096
  maxGenerationsPerLink := 4
  maxSourcesPerLink := 64
  maxStreamsPerLink := 1024
  maxCapabilityDeclarations := 1024
  maxMetricsPerCapability := 128
  maxPolicyRules := 128
  maxBandsPerRule := 16
  maxPolicyGenerations := 8
  maxStreamHistory := 64
  maxGlobalHistory := 65536
  maxDedupWindow := 256
  maxEvidenceBatch := 1024
  maxEvidencePerMetric := 8
  maxMetricsPerQuery := 64
  maxWindowRecords := 4096
  maxInspectionEntries := 256
  maxStringBytes := 128
  maxObservationAgeNanos := 300000000000

instance : Inhabited FabricLimits := ⟨defaults⟩

def validate (limits : FabricLimits) : Outcome Unit := do
  requireBetween "max_links" limits.maxLinks 1 (2 ^ 20)
  requireBetween "max_generations_per_link" limits.maxGenerationsPerLink 1 64
  requireBetween "max_sources_per_link" limits.maxSourcesPerLink 1 4096
  requireBetween "max_streams_per_link" limits.maxStreamsPerLink 1 (2 ^ 20)
  requireBetween "max_capability_declarations" limits.maxCapabilityDeclarations 1 (2 ^ 20)
  requireBetween "max_metrics_per_capability" limits.maxMetricsPerCapability 1 4096
  requireBetween "max_policy_rules" limits.maxPolicyRules 1 4096
  requireBetween "max_bands_per_rule" limits.maxBandsPerRule 2 256
  requireBetween "max_policy_generations" limits.maxPolicyGenerations 1 4096
  requireBetween "max_stream_history" limits.maxStreamHistory 1 (2 ^ 20)
  requireBetween "max_global_history" limits.maxGlobalHistory 1 (2 ^ 24)
  requireBetween "max_dedup_window" limits.maxDedupWindow 1 (2 ^ 20)
  requireBetween "max_evidence_batch" limits.maxEvidenceBatch 1 (2 ^ 20)
  requireBetween "max_evidence_per_metric" limits.maxEvidencePerMetric 1 1024
  requireBetween "max_metrics_per_query" limits.maxMetricsPerQuery 1 4096
  requireBetween "max_window_records" limits.maxWindowRecords 1 (2 ^ 24)
  requireBetween "max_inspection_entries" limits.maxInspectionEntries 1 (2 ^ 20)
  requireBetween "max_string_bytes" limits.maxStringBytes 8 4096
  refuseIf (limits.maxObservationAgeNanos < 0) .invalid
    (text "max_observation_age_nanos must not be negative")
  refuseIf (limits.maxDedupWindow < limits.maxStreamHistory) .invalid
    (text "max_dedup_window must be at least max_stream_history so that replay fencing covers every retained record")

/-- The bounds a validated configuration guarantees to the stores. -/
structure Valid (limits : FabricLimits) : Prop where
  links : 1 ≤ limits.maxLinks
  generationsPerLink : 1 ≤ limits.maxGenerationsPerLink
  streamsPerLink : 1 ≤ limits.maxStreamsPerLink
  streamHistory : 1 ≤ limits.maxStreamHistory
  globalHistory : 1 ≤ limits.maxGlobalHistory
  dedupWindow : 1 ≤ limits.maxDedupWindow
  dedupWindowLe : limits.maxDedupWindow ≤ 2 ^ 20
  evidenceBatch : 1 ≤ limits.maxEvidenceBatch
  stringBytes : 8 ≤ limits.maxStringBytes ∧ limits.maxStringBytes ≤ 4096
  policyGenerations : 1 ≤ limits.maxPolicyGenerations ∧ limits.maxPolicyGenerations ≤ 4096

theorem valid_of_validate {limits : FabricLimits} {u : Unit} (h : limits.validate = .ok u) : Valid limits := by
  simp only [validate, Outcome.check_bind_eq_ok, requireBetween_eq_ok] at h
  obtain ⟨hlinks, hgens, -, hstreams, -, -, -, -, hpolicies, hstream, hglobal, hdedup, hbatch, -, -, -, -, hstring,
    -⟩ := h
  exact ⟨hlinks.1, hgens.1, hstreams.1, hstream.1, hglobal.1, hdedup.1, hdedup.2, hbatch.1, hstring, hpolicies⟩

end FabricLimits

structure JournalConfig where
  enabled : Bool
  path : Text
  maxRecordBytes : ℕ
  maxQueueDepth : ℕ
  fsyncOnFlush : Bool
  compactAfterBytes : UInt64
  compactAfterRecords : UInt64
  compactOnOpen : Bool
  maxRecoveryRecords : ℕ
  maxRecoveryBytes : ℕ
  deriving DecidableEq, Repr

namespace JournalConfig

def defaults : JournalConfig where
  enabled := false
  path := []
  maxRecordBytes := 2 ^ 20
  maxQueueDepth := 8192
  fsyncOnFlush := true
  compactAfterBytes := 0x10000000
  compactAfterRecords := 1000000
  compactOnOpen := false
  maxRecoveryRecords := 4000000
  maxRecoveryBytes := 2 ^ 31

instance : Inhabited JournalConfig := ⟨defaults⟩

def validate (config : JournalConfig) : Outcome Unit := do
  requireBetween "max_record_bytes" config.maxRecordBytes 64 (2 ^ 26)
  requireBetween "max_queue_depth" config.maxQueueDepth 1 (2 ^ 22)
  requireBetween "max_recovery_records" config.maxRecoveryRecords 1 (2 ^ 26)
  refuseIf (config.enabled ∧ config.path = []) .invalid
    (text "a journal path is required when the journal is on")
  refuseIf (512 < config.path.length) .invalid (text "journal path is too long")
  refuseIf (config.compactAfterRecords = 0 ∧ config.compactAfterBytes = 0) .invalid
    (text "automatic compaction needs at least one trigger; both are zero")

theorem bounds_of_validate {config : JournalConfig} {u : Unit} (h : config.validate = .ok u) :
    64 ≤ config.maxRecordBytes ∧ config.maxRecordBytes ≤ 2 ^ 26 ∧ 1 ≤ config.maxQueueDepth ∧
      1 ≤ config.maxRecoveryRecords := by
  simp only [validate, Outcome.check_bind_eq_ok, requireBetween_eq_ok] at h
  obtain ⟨hrecord, hqueue, hrecovery, -⟩ := h
  exact ⟨hrecord.1, hrecord.2, hqueue.1, hrecovery.1⟩

end JournalConfig

/-- Without an initial policy the default document is the first generation. -/
structure FabricConfig where
  limits : FabricLimits
  journal : JournalConfig
  initialPolicy : Option PolicyDocument
  forcedEpoch : UInt64
  maxPolicyGenerations : ℕ
  deriving DecidableEq, Repr

def FabricConfig.firstPolicy (config : FabricConfig) : PolicyDocument :=
  config.initialPolicy.getD defaultPolicyDocument

end Lqf
