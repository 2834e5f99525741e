import LinkQualityFabric.Persist.CodecExact
import LinkQualityFabric.Transport.Messages

/-! The codec as a bijection, for every type that has a description of its fields.

A value whose enumeration fields are within their bounds is written to bytes that are read back as the value, all of
them; and a byte string that is read to its end is what its value is written to. The exception is a vector with
2 ^ 32 elements or more: it is written when the item limit lets it through, behind a count that has lost its upper
bits, and is not read back. -/
namespace Lqf
open Foundations
set_option autoImplicit false

namespace Codec

namespace Exact

def i64 : Exact Codec.i64 := u64.map fun _ => by simp
def f64 : Exact Codec.f64 := u64.map fun _ => rfl

def metricFamily : Exact Codec.metricFamily := enum8 (by decide)
def transportKind : Exact Codec.transportKind := enum8 (by decide)
def evidenceClass : Exact Codec.evidenceClass := enum8 (by decide)
def evidenceOrigin : Exact Codec.evidenceOrigin := enum8 (by decide)
def reasonCode : Exact Codec.reasonCode := enum16 (by decide)
def qualityState : Exact Codec.qualityState := enum8 (by decide)
def sampleSemantics : Exact Codec.sampleSemantics := enum8 (by decide)
def counterWidth : Exact Codec.counterWidth := enum8 (by decide)
def metricBasis : Exact Codec.metricBasis := enum8 (by decide)
def measurementUnit : Exact Codec.measurementUnit := enum8 (by decide)
def confidenceLevel : Exact Codec.confidenceLevel := enum8 (by decide)
def windowAxis : Exact Codec.windowAxis := enum8 (by decide)
def statusCode : Exact Codec.statusCode := enum8 (by decide)

def linkIdentity : Exact Codec.linkIdentity := (text.pair u64).map fun _ => rfl

def sourceIdentity : Exact Codec.sourceIdentity := (text.pair u64).map fun _ => rfl

def laneDimension : Exact Codec.laneDimension := (bool.pair u32).map fun _ => rfl

def provenance : Exact Codec.provenance :=
  (transportKind.pair (evidenceClass.pair (text.pair (text.pair (bool.pair i64))))).map fun _ => rfl

def metricId : Exact Codec.metricId := (metricFamily.pair text).map fun _ => rfl

def timestamp : Exact Codec.timestamp := (i64.pair bool).map fun _ => rfl

def receiveStamp : Exact Codec.receiveStamp := (i64.pair (i64.pair u64)).map fun _ => rfl

def gaugeReading : Exact Codec.gaugeReading := (f64.pair i64).map fun _ => rfl

def counterReading : Exact Codec.counterReading := (u64.pair (counterWidth.pair bool)).map fun _ => rfl

def reading : Exact Codec.reading := (gaugeReading.sum counterReading).map (by rintro (gauge | counter) <;> rfl)

def observation : Exact Codec.observation :=
  (linkIdentity.pair (sourceIdentity.pair (u64.pair (metricId.pair (laneDimension.pair (measurementUnit.pair
    (reading.pair (timestamp.pair (i64.option.pair (u64.pair provenance)))))))))).map fun _ => rfl

def evidenceRecord : Exact Codec.evidenceRecord :=
  (observation.pair (receiveStamp.pair (u64.pair evidenceOrigin))).map fun _ => rfl

def metricCapability : Exact Codec.metricCapability :=
  (metricId.pair (measurementUnit.pair (sampleSemantics.pair (counterWidth.pair (bool.pair (u32.pair
    i64)))))).map fun _ => rfl

def capabilityDeclaration : Exact Codec.capabilityDeclaration :=
  (sourceIdentity.pair (linkIdentity.option.pair (u64.pair (transportKind.pair (evidenceClass.pair
    (timestamp.pair (metricCapability.list.pair (metricId.list.pair text)))))))).map fun _ => rfl

def thresholdBand : Exact Codec.thresholdBand :=
  (text.pair (f64.pair (f64.option.pair (qualityState.pair text)))).map fun _ => rfl

def metricRule : Exact Codec.metricRule :=
  (metricId.pair (metricBasis.pair (thresholdBand.list.pair (f64.pair (i64.pair (i64.pair (bool.pair (f64.pair
    f64)))))))).map fun _ => rfl

def freshnessPolicy : Exact Codec.freshnessPolicy :=
  (i64.pair ((metricFamily.pair i64).list.pair (i64.pair i64))).map fun _ => rfl

def severityTable : Exact Codec.severityTable := (u8.array _ _).map fun _ => rfl

def aggregationPolicy : Exact Codec.aggregationPolicy := (severityTable.pair bool).map fun _ => rfl

def policyDocument : Exact Codec.policyDocument :=
  (text.pair (metricRule.list.pair (freshnessPolicy.pair (aggregationPolicy.pair (metricId.list.pair
    bool))))).map fun _ => rfl

def policyStamp : Exact Codec.policyStamp := (text.pair (u64.pair text)).map fun _ => rfl

def policyGenerationRecord : Exact Codec.policyGenerationRecord :=
  (policyStamp.pair (timestamp.pair policyDocument)).map fun _ => rfl

def streamKey : Exact Codec.streamKey :=
  (linkIdentity.pair (metricId.pair (laneDimension.pair sourceIdentity))).map fun _ => rfl

def declaredSource : Exact Codec.declaredSource :=
  (sourceIdentity.pair (u64.pair (evidenceClass.pair (transportKind.pair (bool.pair (u32.pair
    (measurementUnit.pair (sampleSemantics.pair (counterWidth.pair i64))))))))).map fun _ => rfl

def metricCapabilityView : Exact Codec.metricCapabilityView :=
  (metricId.pair (declaredSource.list.pair declaredSource.list)).map fun _ => rfl

def counterDelta : Exact Codec.counterDelta := (u64.pair (i64.pair (bool.pair bool))).map fun _ => rfl

def evidenceRef : Exact Codec.evidenceRef :=
  (sourceIdentity.pair (u64.pair (laneDimension.pair (metricId.pair (timestamp.pair (receiveStamp.pair
    (evidenceOrigin.pair (evidenceClass.pair (u64.pair (measurementUnit.pair (f64.pair (u64.option.pair
    (counterDelta.option.pair (bool.pair (bool.pair (i64.pair (text.pair text))))))))))))))))).map fun _ => rfl

def metricAssessment : Exact Codec.metricAssessment :=
  (metricId.pair (laneDimension.pair (qualityState.pair (confidenceLevel.pair (reasonCode.list.pair
    (evidenceRef.list.pair (text.list.pair (f64.option.pair (f64.option.pair (f64.option.pair (u32.list.pair
    (u32.pair (u32.pair (u32.pair (u32.pair (bool.pair f64.option)))))))))))))))).map fun _ => rfl

def linkQualityReport : Exact Codec.linkQualityReport :=
  (linkIdentity.pair (bool.pair (bool.pair (policyStamp.pair (u64.pair (qualityState.pair
    (confidenceLevel.pair (reasonCode.list.pair (metricAssessment.list.pair (u64.pair (u64.pair (u64.pair
    (i64.pair (i64.pair bool)))))))))))))).map fun _ => rfl

def conflictEntry : Exact Codec.conflictEntry :=
  (linkIdentity.pair (metricId.pair (laneDimension.pair (evidenceRef.list.pair (f64.pair f64))))).map fun _ =>
    rfl

def staleEntry : Exact Codec.staleEntry :=
  (linkIdentity.pair (metricId.pair (laneDimension.pair (sourceIdentity.pair (evidenceOrigin.pair (i64.pair
    (receiveStamp.pair reasonCode))))))).map fun _ => rfl

def freshnessEntry : Exact Codec.freshnessEntry :=
  (linkIdentity.pair (metricId.pair (laneDimension.pair (u32.pair (u32.pair (u32.pair (u32.pair (i64.pair
    bool)))))))).map fun _ => rfl

def inspectionReport : Exact Codec.inspectionReport :=
  (policyStamp.pair (u64.pair (i64.pair (conflictEntry.list.pair (staleEntry.list.pair
    (freshnessEntry.list.pair (u64.pair (u64.pair bool)))))))).map fun _ => rfl

def windowResult : Exact Codec.windowResult :=
  (evidenceRecord.list.pair (u64.pair (u64.pair (bool.pair (i64.pair (i64.pair (bool.pair
    linkQualityReport.option))))))).map fun _ => rfl

def qualityQuery : Exact Codec.qualityQuery :=
  (linkIdentity.pair (laneDimension.option.pair (metricId.list.pair (bool.pair (u64.pair u64))))).map fun _ =>
    rfl

def windowQuery : Exact Codec.windowQuery :=
  (linkIdentity.option.pair (metricId.option.pair (laneDimension.option.pair (text.option.pair
    (windowAxis.pair (i64.pair (i64.pair (u64.pair (bool.pair (bool.pair (i64.pair (u64.pair u64)))))))))))).map
    fun _ => rfl

def inspectionFilter : Exact Codec.inspectionFilter :=
  (linkIdentity.option.pair (metricId.option.pair (u64.pair u64))).map fun _ => rfl

def explanation : Exact Codec.explanation := (linkQualityReport.pair text).map fun _ => rfl

def metricDescriptor : Exact Codec.metricDescriptor :=
  (metricId.pair (measurementUnit.pair (sampleSemantics.pair (metricBasis.pair (counterWidth.pair (bool.pair
    text)))))).map fun _ => rfl

def linkObservedBody : Exact Codec.linkObservedBody :=
  (linkIdentity.pair (timestamp.pair receiveStamp)).map fun _ => rfl

def generationBody : Exact Codec.generationBody :=
  (text.pair (u64.pair (timestamp.pair (receiveStamp.pair reasonCode)))).map fun _ => rfl

def dedupBody : Exact Codec.dedupBody := (streamKey.pair (u64.pair u64).list).map fun _ => rfl

def helloRequest : Exact Codec.helloRequest := (u32.pair (text.pair u64)).map fun _ => rfl

def welcomeReply : Exact Codec.welcomeReply := (u32.pair (u64.pair (u32.pair (u8.pair text)))).map fun _ => rfl

def capabilityAck : Exact Codec.capabilityAck := (u64.pair (reasonCode.pair u8)).map fun _ => rfl

def policyAck : Exact Codec.policyAck := policyStamp.map fun _ => rfl

def ingestAck : Exact Codec.ingestAck :=
  (u64.pair (u64.pair (u64.pair (u64.pair (statusCode.pair reasonCode))))).map fun _ => rfl

def flushAck : Exact Codec.flushAck := (u64.pair u64).map fun _ => rfl

def compactAck : Exact Codec.compactAck := (u64.pair u64).map fun _ => rfl

def shutdownRequest : Exact Codec.shutdownRequest := text.map fun _ => rfl

def shutdownAck : Exact Codec.shutdownAck := (u8.pair text).map fun _ => rfl

def capabilitiesRequest : Exact Codec.capabilitiesRequest := linkIdentity.map fun _ => rfl

def capabilitiesReply : Exact Codec.capabilitiesReply := metricCapabilityView.list.map fun _ => rfl

def policyDocumentRequest : Exact Codec.policyDocumentRequest := u64.map fun _ => rfl

def policyDocumentReply : Exact Codec.policyDocumentReply :=
  (policyGenerationRecord.pair (u8.pair text)).map fun _ => rfl

def recoverySummary : Exact Codec.recoverySummary :=
  (bool.pair (bool.pair (bool.pair (bool.pair (bool.pair (bool.pair (bool.pair (u64.pair (u64.pair (u64.pair
    statusCode)))))))))).map fun _ => rfl

def fabricStats : Exact Codec.fabricStats :=
  (u64.pair (policyStamp.pair (u64.pair (u64.pair (u64.pair (u64.pair (u64.pair (u64.pair (u64.pair (u64.pair
    (u64.pair (u64.pair (u64.pair (u64.pair (u64.pair (u64.pair (u64.pair (u64.pair (u64.pair (u64.pair
    (u64.pair (u64.pair (u64.pair (u64.pair (u64.pair (u64.pair (u64.pair (u64.pair (u64.pair (u64.pair
    (u64.pair (u64.pair (u64.pair (u64.pair (u64.pair (bool.pair (bool.pair
    recoverySummary))))))))))))))))))))))))))))))))))))).map fun _ => rfl

end Exact

end Codec

/-! ## The described types -/

inductive DescribedType where
  | linkIdentity | sourceIdentity | laneDimension | provenance | metricId | timestamp | receiveStamp |
  gaugeReading | counterReading | observation | evidenceRecord | metricCapability | capabilityDeclaration |
  thresholdBand | metricRule | freshnessPolicy | severityTable | aggregationPolicy | policyDocument | policyStamp
  | policyGenerationRecord | streamKey | declaredSource | metricCapabilityView | counterDelta | evidenceRef |
  metricAssessment | linkQualityReport | conflictEntry | staleEntry | freshnessEntry | inspectionReport |
  windowResult | qualityQuery | windowQuery | inspectionFilter | explanation | metricDescriptor | linkObservedBody
  | generationBody | dedupBody | helloRequest | welcomeReply | capabilityAck | policyAck | ingestAck | flushAck |
  compactAck | shutdownRequest | shutdownAck | capabilitiesRequest | capabilitiesReply | policyDocumentRequest |
  policyDocumentReply | recoverySummary | fabricStats
  deriving DecidableEq, Repr

namespace DescribedType

abbrev Value : DescribedType → Type
  | .linkIdentity => LinkIdentity
  | .sourceIdentity => SourceIdentity
  | .laneDimension => LaneDimension
  | .provenance => Provenance
  | .metricId => MetricId
  | .timestamp => Timestamp
  | .receiveStamp => ReceiveStamp
  | .gaugeReading => GaugeReading
  | .counterReading => CounterReading
  | .observation => Observation
  | .evidenceRecord => EvidenceRecord
  | .metricCapability => MetricCapability
  | .capabilityDeclaration => CapabilityDeclaration
  | .thresholdBand => ThresholdBand
  | .metricRule => MetricRule
  | .freshnessPolicy => FreshnessPolicy
  | .severityTable => SeverityTable
  | .aggregationPolicy => AggregationPolicy
  | .policyDocument => PolicyDocument
  | .policyStamp => PolicyStamp
  | .policyGenerationRecord => PolicyGenerationRecord
  | .streamKey => StreamKey
  | .declaredSource => DeclaredSource
  | .metricCapabilityView => MetricCapabilityView
  | .counterDelta => CounterDelta
  | .evidenceRef => EvidenceRef
  | .metricAssessment => MetricAssessment
  | .linkQualityReport => LinkQualityReport
  | .conflictEntry => ConflictEntry
  | .staleEntry => StaleEntry
  | .freshnessEntry => FreshnessEntry
  | .inspectionReport => InspectionReport
  | .windowResult => WindowResult
  | .qualityQuery => QualityQuery
  | .windowQuery => WindowQuery
  | .inspectionFilter => InspectionFilter
  | .explanation => Explanation
  | .metricDescriptor => MetricDescriptor
  | .linkObservedBody => LinkObservedBody
  | .generationBody => GenerationBody
  | .dedupBody => DedupBody
  | .helloRequest => HelloRequest
  | .welcomeReply => WelcomeReply
  | .capabilityAck => CapabilityAck
  | .policyAck => PolicyAck
  | .ingestAck => IngestAck
  | .flushAck => FlushAck
  | .compactAck => CompactAck
  | .shutdownRequest => ShutdownRequest
  | .shutdownAck => ShutdownAck
  | .capabilitiesRequest => CapabilitiesRequest
  | .capabilitiesReply => CapabilitiesReply
  | .policyDocumentRequest => PolicyDocumentRequest
  | .policyDocumentReply => PolicyDocumentReply
  | .recoverySummary => RecoverySummary
  | .fabricStats => FabricStatsReport

def codec : (type : DescribedType) → Codec type.Value
  | .linkIdentity => Codec.linkIdentity
  | .sourceIdentity => Codec.sourceIdentity
  | .laneDimension => Codec.laneDimension
  | .provenance => Codec.provenance
  | .metricId => Codec.metricId
  | .timestamp => Codec.timestamp
  | .receiveStamp => Codec.receiveStamp
  | .gaugeReading => Codec.gaugeReading
  | .counterReading => Codec.counterReading
  | .observation => Codec.observation
  | .evidenceRecord => Codec.evidenceRecord
  | .metricCapability => Codec.metricCapability
  | .capabilityDeclaration => Codec.capabilityDeclaration
  | .thresholdBand => Codec.thresholdBand
  | .metricRule => Codec.metricRule
  | .freshnessPolicy => Codec.freshnessPolicy
  | .severityTable => Codec.severityTable
  | .aggregationPolicy => Codec.aggregationPolicy
  | .policyDocument => Codec.policyDocument
  | .policyStamp => Codec.policyStamp
  | .policyGenerationRecord => Codec.policyGenerationRecord
  | .streamKey => Codec.streamKey
  | .declaredSource => Codec.declaredSource
  | .metricCapabilityView => Codec.metricCapabilityView
  | .counterDelta => Codec.counterDelta
  | .evidenceRef => Codec.evidenceRef
  | .metricAssessment => Codec.metricAssessment
  | .linkQualityReport => Codec.linkQualityReport
  | .conflictEntry => Codec.conflictEntry
  | .staleEntry => Codec.staleEntry
  | .freshnessEntry => Codec.freshnessEntry
  | .inspectionReport => Codec.inspectionReport
  | .windowResult => Codec.windowResult
  | .qualityQuery => Codec.qualityQuery
  | .windowQuery => Codec.windowQuery
  | .inspectionFilter => Codec.inspectionFilter
  | .explanation => Codec.explanation
  | .metricDescriptor => Codec.metricDescriptor
  | .linkObservedBody => Codec.linkObservedBody
  | .generationBody => Codec.generationBody
  | .dedupBody => Codec.dedupBody
  | .helloRequest => Codec.helloRequest
  | .welcomeReply => Codec.welcomeReply
  | .capabilityAck => Codec.capabilityAck
  | .policyAck => Codec.policyAck
  | .ingestAck => Codec.ingestAck
  | .flushAck => Codec.flushAck
  | .compactAck => Codec.compactAck
  | .shutdownRequest => Codec.shutdownRequest
  | .shutdownAck => Codec.shutdownAck
  | .capabilitiesRequest => Codec.capabilitiesRequest
  | .capabilitiesReply => Codec.capabilitiesReply
  | .policyDocumentRequest => Codec.policyDocumentRequest
  | .policyDocumentReply => Codec.policyDocumentReply
  | .recoverySummary => Codec.recoverySummary
  | .fabricStats => Codec.fabricStats

def exact : (type : DescribedType) → type.codec.Exact
  | .linkIdentity => Codec.Exact.linkIdentity
  | .sourceIdentity => Codec.Exact.sourceIdentity
  | .laneDimension => Codec.Exact.laneDimension
  | .provenance => Codec.Exact.provenance
  | .metricId => Codec.Exact.metricId
  | .timestamp => Codec.Exact.timestamp
  | .receiveStamp => Codec.Exact.receiveStamp
  | .gaugeReading => Codec.Exact.gaugeReading
  | .counterReading => Codec.Exact.counterReading
  | .observation => Codec.Exact.observation
  | .evidenceRecord => Codec.Exact.evidenceRecord
  | .metricCapability => Codec.Exact.metricCapability
  | .capabilityDeclaration => Codec.Exact.capabilityDeclaration
  | .thresholdBand => Codec.Exact.thresholdBand
  | .metricRule => Codec.Exact.metricRule
  | .freshnessPolicy => Codec.Exact.freshnessPolicy
  | .severityTable => Codec.Exact.severityTable
  | .aggregationPolicy => Codec.Exact.aggregationPolicy
  | .policyDocument => Codec.Exact.policyDocument
  | .policyStamp => Codec.Exact.policyStamp
  | .policyGenerationRecord => Codec.Exact.policyGenerationRecord
  | .streamKey => Codec.Exact.streamKey
  | .declaredSource => Codec.Exact.declaredSource
  | .metricCapabilityView => Codec.Exact.metricCapabilityView
  | .counterDelta => Codec.Exact.counterDelta
  | .evidenceRef => Codec.Exact.evidenceRef
  | .metricAssessment => Codec.Exact.metricAssessment
  | .linkQualityReport => Codec.Exact.linkQualityReport
  | .conflictEntry => Codec.Exact.conflictEntry
  | .staleEntry => Codec.Exact.staleEntry
  | .freshnessEntry => Codec.Exact.freshnessEntry
  | .inspectionReport => Codec.Exact.inspectionReport
  | .windowResult => Codec.Exact.windowResult
  | .qualityQuery => Codec.Exact.qualityQuery
  | .windowQuery => Codec.Exact.windowQuery
  | .inspectionFilter => Codec.Exact.inspectionFilter
  | .explanation => Codec.Exact.explanation
  | .metricDescriptor => Codec.Exact.metricDescriptor
  | .linkObservedBody => Codec.Exact.linkObservedBody
  | .generationBody => Codec.Exact.generationBody
  | .dedupBody => Codec.Exact.dedupBody
  | .helloRequest => Codec.Exact.helloRequest
  | .welcomeReply => Codec.Exact.welcomeReply
  | .capabilityAck => Codec.Exact.capabilityAck
  | .policyAck => Codec.Exact.policyAck
  | .ingestAck => Codec.Exact.ingestAck
  | .flushAck => Codec.Exact.flushAck
  | .compactAck => Codec.Exact.compactAck
  | .shutdownRequest => Codec.Exact.shutdownRequest
  | .shutdownAck => Codec.Exact.shutdownAck
  | .capabilitiesRequest => Codec.Exact.capabilitiesRequest
  | .capabilitiesReply => Codec.Exact.capabilitiesReply
  | .policyDocumentRequest => Codec.Exact.policyDocumentRequest
  | .policyDocumentReply => Codec.Exact.policyDocumentReply
  | .recoverySummary => Codec.Exact.recoverySummary
  | .fabricStats => Codec.Exact.fabricStats

variable {type : DescribedType} {limits : CodecLimits}

def Short (type : DescribedType) (value : type.Value) : Prop := type.exact.Short value

def Encodes (type : DescribedType) (limits : CodecLimits) (value : type.Value) (bytes : Bytes) : Prop :=
  type.codec.put value (.start limits) = ⟨limits, bytes, none⟩

def Consumes (type : DescribedType) (limits : CodecLimits) (bytes : Bytes) : Prop :=
  (type.codec.get (.start limits bytes)).2 = .start limits []

def Decodes (type : DescribedType) (limits : CodecLimits) (bytes : Bytes) (value : type.Value) : Prop :=
  type.codec.get (.start limits bytes) = (some value, .start limits [])

variable {value : type.Value} {bytes : Bytes} (count : ℕ)

theorem decodes_iff_short (hvalid : type.codec.Valid value) (hencodes : type.Encodes limits value bytes) :
    type.Decodes limits bytes value ↔ type.Short value := by
  constructor
  · intro hdecodes
    have hstatus : (type.codec.get (.start limits bytes)).2.status = none := by
      rw [hdecodes]
      rfl
    obtain ⟨decoded, _, _, hreader, -, hget, _, hshort, _, _⟩ := type.exact.writes _ hstatus
    have hvalue : some decoded = some value :=
      congrArg Prod.fst ((Codec.Exact.get_eq hreader hget).symm.trans hdecodes)
    exact Option.some.inj hvalue ▸ hshort
  · intro hshort
    have hread := type.exact.reads value (.start limits) bytes rfl hencodes hvalid hshort []
    rw [List.append_nil] at hread
    exact hread

theorem encodes_of_consumes (hfits : bytes.length ≤ limits.maxTotalBytes) (hconsumes : type.Consumes limits bytes) :
    ∃ value, type.Decodes limits bytes value ∧ type.Encodes limits value bytes := by
  have hafter : (type.codec.get (.start limits bytes)).2 = .start limits [] := hconsumes
  have hstatus : (type.codec.get (.start limits bytes)).2.status = none := by
    rw [hafter]
    rfl
  obtain ⟨value, read, rest, hreader, -, hreads, -, -, -, hput⟩ := type.exact.writes _ hstatus
  have hget := Codec.Exact.get_eq hreader hreads
  obtain rfl : rest = [] := by
    rw [hget] at hafter
    exact congrArg Reader.rest hafter
  obtain rfl : bytes = read := by
    rw [List.append_nil] at hreader
    exact congrArg Reader.rest hreader
  refine ⟨value, hget, ?_⟩
  have hroom : (Writer.start limits).buffer.length + bytes.length ≤ limits.maxTotalBytes := by
    rw [Writer.start, List.length_nil, Nat.zero_add]
    exact hfits
  exact hput (.start limits) rfl rfl hroom

/-- Values and the byte strings that are accepted correspond to each other, vectors too long for a count apart. -/
theorem codec_bijection (type : DescribedType) (limits : CodecLimits) :
    (∀ (value : type.Value) (bytes : Bytes), type.codec.Valid value → type.Encodes limits value bytes →
      (type.Decodes limits bytes value ↔ type.Short value)) ∧
    ∀ bytes : Bytes, bytes.length ≤ limits.maxTotalBytes → type.Consumes limits bytes →
      ∃ value, type.Decodes limits bytes value ∧ type.Encodes limits value bytes :=
  ⟨fun _ _ hvalid hencodes => decodes_iff_short hvalid hencodes,
    fun _ hfits hconsumes => encodes_of_consumes hfits hconsumes⟩

def sampleLink : LinkIdentity := ⟨text "eth0", 7⟩

def sampleBytes : Bytes := [4, 0, 0, 0, 101, 116, 104, 48, 7, 0, 0, 0, 0, 0, 0, 0]

theorem link_identity_corresponds :
    DescribedType.linkIdentity.Decodes {} sampleBytes sampleLink ∧
      ∃ value, DescribedType.linkIdentity.Decodes {} sampleBytes value ∧
        DescribedType.linkIdentity.Encodes {} value sampleBytes :=
  ⟨((codec_bijection .linkIdentity {}).1 sampleLink sampleBytes ⟨trivial, trivial⟩ (by unfold Encodes; rfl)).mpr
      ⟨trivial, trivial⟩,
    (codec_bijection .linkIdentity {}).2 sampleBytes (by decide) (by unfold Consumes; rfl)⟩

/-! ### A vector behind the count 0 -/

def manyViews (count : ℕ) : CapabilitiesReply := ⟨List.replicate count default⟩

def roomFor (count : ℕ) : CodecLimits := ⟨4096, count, 4 + 13 * count⟩

theorem manyViews_size : Codec.capabilitiesReply.size (manyViews count) = 4 + 13 * count := by
  show 4 + ((List.replicate count default).map Codec.metricCapabilityView.size).sum = _
  rw [List.map_replicate, List.sum_replicate, smul_eq_mul, Nat.mul_comm]
  rfl

theorem manyViews_encodes :
    ∃ bytes, DescribedType.capabilitiesReply.Encodes (roomFor count) (manyViews count) bytes := by
  have hlength : (manyViews count).views.length = count := List.length_replicate
  have hfits : Codec.capabilitiesReply.Fits (roomFor count) (manyViews count) := by
    refine ⟨hlength.le, fun view hview => ?_⟩
    rw [List.eq_of_mem_replicate hview]
    refine ⟨⟨trivial, Nat.zero_le _, by decide⟩, ⟨Nat.zero_le _, ?_⟩, Nat.zero_le _, ?_⟩ <;>
      exact fun _ hsource => nomatch hsource
  have hroom : (Writer.start (roomFor count)).buffer.length + Codec.capabilitiesReply.size (manyViews count) ≤
      (roomFor count).maxTotalBytes := by
    rw [manyViews_size, Writer.start, List.length_nil, Nat.zero_add]
    exact le_rfl
  have hstatus := Codec.capabilitiesReply.put_status (manyViews count) (.start (roomFor count)) rfl hfits hroom
  obtain ⟨-, bytes, -, -, hput⟩ := Codec.Exact.put_split hstatus
  exact ⟨bytes, hput⟩

theorem manyViews_valid : DescribedType.capabilitiesReply.codec.Valid (manyViews count) := by
  intro view hview
  rw [List.eq_of_mem_replicate hview]
  refine ⟨⟨rfl, trivial⟩, ?_, ?_⟩ <;> exact fun _ hsource => nomatch hsource

theorem vector_behind_count_zero :
    DescribedType.capabilitiesReply.codec.Valid (manyViews (2 ^ 32)) ∧
      ∃ bytes, DescribedType.capabilitiesReply.Encodes (roomFor (2 ^ 32)) (manyViews (2 ^ 32)) bytes ∧
        ¬ DescribedType.capabilitiesReply.Decodes (roomFor (2 ^ 32)) bytes (manyViews (2 ^ 32)) := by
  have hvalid := manyViews_valid (2 ^ 32)
  obtain ⟨bytes, hencodes⟩ := manyViews_encodes (2 ^ 32)
  refine ⟨hvalid, bytes, hencodes, fun hdecodes => ?_⟩
  have hshort := (decodes_iff_short hvalid hencodes).mp hdecodes
  have hlength : (manyViews (2 ^ 32)).views.length = 2 ^ 32 := List.length_replicate
  have hlt : (manyViews (2 ^ 32)).views.length < 2 ^ 32 := hshort.1
  omega

/-! ### The byte limit

Numbers of two bytes and more are appended whatever the limit says. What a checked write has left of the limit is all
that the fields behind the last of them may take. -/

/-- The bytes of the fixed-width fields behind the last write that looks at the limit. -/
def unchecked (type : DescribedType) (value : type.Value) : ℕ := type.exact.unchecked value 0

/-- The bytes up to and with that write. -/
def checked (type : DescribedType) (value : type.Value) : ℕ := type.codec.size value - type.unchecked value

theorem encodes_length (hencodes : type.Encodes limits value bytes) : bytes.length = type.codec.size value := by
  have hput : type.codec.put value (.start limits) = ⟨limits, bytes, none⟩ := hencodes
  have hstatus : (type.codec.put value (.start limits)).status = none := by
    rw [hput]
  obtain ⟨-, written, hlength, -, hwritten⟩ := Codec.Exact.put_split hstatus
  have hbytes : written = bytes := congrArg Writer.buffer (hwritten.symm.trans hput)
  rw [← hbytes, hlength]

/-- What is held against the byte limit stays within it, and the encoding does exactly when the fixed-width fields
behind the last checked write have room in what is left. -/
theorem byte_limit_kept_iff (type : DescribedType) (limits : CodecLimits) (value : type.Value) (bytes : Bytes)
    (hencodes : type.Encodes limits value bytes) :
    type.checked value ≤ limits.maxTotalBytes ∧
      (bytes.length ≤ limits.maxTotalBytes ↔ type.unchecked value ≤ limits.maxTotalBytes - type.checked value) := by
  have hlength := encodes_length hencodes
  have hput : type.codec.put value (.start limits) = ⟨limits, bytes, none⟩ := hencodes
  have hwithin := type.exact.checks value (.start limits) 0 (by rw [hput]) ⟨Nat.zero_le _, Nat.zero_le _⟩
  rw [hput] at hwithin
  obtain ⟨hfew, hbound⟩ : type.unchecked value ≤ bytes.length ∧
    bytes.length ≤ limits.maxTotalBytes + type.unchecked value := hwithin
  unfold checked
  omega

theorem link_identity_in_limit :
    DescribedType.linkIdentity.unchecked sampleLink = 8 ∧ (sampleBytes.length ≤ 16 ↔ 8 ≤ 16 - 8) :=
  ⟨rfl, (byte_limit_kept_iff .linkIdentity ⟨4096, 4096, 16⟩ sampleLink sampleBytes (by unfold Encodes; rfl)).2⟩

theorem stamp_over_limit :
    ∃ bytes, DescribedType.receiveStamp.Encodes ⟨4096, 4096, 0⟩ (⟨1, 2, 3⟩ : ReceiveStamp) bytes ∧
      ¬ bytes.length ≤ 0 :=
  ⟨[1, 0, 0, 0, 0, 0, 0, 0, 2, 0, 0, 0, 0, 0, 0, 0, 3, 0, 0, 0, 0, 0, 0, 0], by unfold Encodes; rfl, by decide⟩

/-! ### Cut messages -/

end DescribedType

end Lqf
