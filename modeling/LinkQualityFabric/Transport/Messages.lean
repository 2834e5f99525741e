import LinkQualityFabric.Persist.ReportCodec
import LinkQualityFabric.Runtime.Fabric

/-! The messages of the wire: `lqf/transport/messages.hpp`, and the statistics of `lqf/runtime/fabric.hpp`.

A status code of the source has a value for success, which is `none` here. -/
namespace Lqf
open Foundations
set_option autoImplicit false

instance : Enumeration (Option StatusCode) where
  values := [none, some .invalid, some .notFound, some .unsupported, some .conflict, some .stale, some .fenced,
    some .rejected, some .duplicate, some .idMismatch, some .overflow, some .limitExceeded, some .corrupt,
    some .unavailable, some .busy, some .cancelled, some .refused, some .protocol, some .io, some .internal]
  complete := by
    rintro (_ | code)
    · decide
    · cases code <;> decide

structure HelloRequest where
  protocolVersion : UInt32 := 1
  clientName : Text := []
  clientEpoch : UInt64 := 0
  deriving DecidableEq, Repr, Inhabited

structure WelcomeReply where
  protocolVersion : UInt32 := 1
  serverEpoch : UInt64 := 0
  maxFrameBytes : UInt32 := 1048576
  accepted : UInt8 := 1
  detail : Text := []
  deriving DecidableEq, Repr, Inhabited

structure PolicyAck where
  stamp : PolicyStamp
  deriving DecidableEq, Repr, Inhabited

structure IngestAck where
  accepted : UInt64 := 0
  duplicates : UInt64 := 0
  reordered : UInt64 := 0
  rejected : UInt64 := 0
  firstCode : Option StatusCode := none
  firstReason : ReasonCode := .none
  deriving DecidableEq, Repr, Inhabited

structure FlushAck where
  recordsWritten : UInt64 := 0
  bytesWritten : UInt64 := 0
  deriving DecidableEq, Repr, Inhabited

structure CompactAck where
  recordsWritten : UInt64 := 0
  compactions : UInt64 := 0
  deriving DecidableEq, Repr, Inhabited

structure ShutdownRequest where
  token : Text := []
  deriving DecidableEq, Repr, Inhabited

structure ShutdownAck where
  accepted : UInt8 := 0
  detail : Text := []
  deriving DecidableEq, Repr, Inhabited

structure CapabilitiesRequest where
  link : LinkIdentity
  deriving DecidableEq, Repr, Inhabited

structure CapabilitiesReply where
  views : List MetricCapabilityView := []
  deriving DecidableEq, Repr, Inhabited

structure PolicyDocumentRequest where
  generation : UInt64 := 0
  deriving DecidableEq, Repr, Inhabited

structure PolicyDocumentReply where
  record : PolicyGenerationRecord
  found : UInt8 := 0
  detail : Text := []
  deriving DecidableEq, Repr, Inhabited

structure RecoverySummary where
  opened : Bool := false
  headerValid : Bool := false
  tornTail : Bool := false
  degraded : Bool := false
  truncated : Bool := false
  snapshotLoaded : Bool := false
  limitReached : Bool := false
  recordsRead : UInt64 := 0
  bytesRead : UInt64 := 0
  bytesDiscarded : UInt64 := 0
  status : Option StatusCode := none
  deriving DecidableEq, Repr, Inhabited

/-- The statistics as they are reported: the counters of the modelled operations among all others. -/
structure FabricStatsReport extends FabricStats where
  epoch : UInt64 := 0
  policy : PolicyStamp
  ingestBatches : UInt64 := 0
  queriesServed : UInt64 := 0
  windowQueries : UInt64 := 0
  explanations : UInt64 := 0
  inspections : UInt64 := 0
  limitRejections : UInt64 := 0
  journalBytes : UInt64 := 0
  links : UInt64 := 0
  streams : UInt64 := 0
  retainedRecords : UInt64 := 0
  isOpen : Bool := true
  recovery : RecoverySummary := {}
  deriving DecidableEq, Repr, Inhabited

namespace Codec

def statusCode : Codec (Option StatusCode) := enum8 20

def helloRequest : Codec HelloRequest :=
  (u32.pair (text.pair u64)).map
    (fun value => (value.protocolVersion, value.clientName, value.clientEpoch))
    (fun (protocolVersion, clientName, clientEpoch) =>
      ⟨protocolVersion, clientName, clientEpoch⟩)
    (fun _ => rfl)

def welcomeReply : Codec WelcomeReply :=
  (u32.pair (u64.pair (u32.pair (u8.pair text)))).map
    (fun value => (value.protocolVersion, value.serverEpoch, value.maxFrameBytes, value.accepted,
      value.detail))
    (fun (protocolVersion, serverEpoch, maxFrameBytes, accepted, detail) =>
      ⟨protocolVersion, serverEpoch, maxFrameBytes, accepted, detail⟩)
    (fun _ => rfl)

def capabilityAck : Codec CapabilityAck :=
  (u64.pair (reasonCode.pair u8)).map
    (fun value => (value.revision, value.reason, value.duplicate))
    (fun (revision, reason, duplicate) =>
      ⟨revision, reason, duplicate⟩)
    (fun _ => rfl)

def policyAck : Codec PolicyAck :=
  policyStamp.map (fun value => value.stamp) (fun stamp => ⟨stamp⟩) (fun _ => rfl)

def ingestAck : Codec IngestAck :=
  (u64.pair (u64.pair (u64.pair (u64.pair (statusCode.pair reasonCode))))).map
    (fun value => (value.accepted, value.duplicates, value.reordered, value.rejected, value.firstCode,
      value.firstReason))
    (fun (accepted, duplicates, reordered, rejected, firstCode, firstReason) =>
      ⟨accepted, duplicates, reordered, rejected, firstCode, firstReason⟩)
    (fun _ => rfl)

def flushAck : Codec FlushAck :=
  (u64.pair u64).map
    (fun value => (value.recordsWritten, value.bytesWritten))
    (fun (recordsWritten, bytesWritten) =>
      ⟨recordsWritten, bytesWritten⟩)
    (fun _ => rfl)

def compactAck : Codec CompactAck :=
  (u64.pair u64).map
    (fun value => (value.recordsWritten, value.compactions))
    (fun (recordsWritten, compactions) =>
      ⟨recordsWritten, compactions⟩)
    (fun _ => rfl)

def shutdownRequest : Codec ShutdownRequest :=
  text.map (fun value => value.token) (fun token => ⟨token⟩) (fun _ => rfl)

def shutdownAck : Codec ShutdownAck :=
  (u8.pair text).map
    (fun value => (value.accepted, value.detail))
    (fun (accepted, detail) =>
      ⟨accepted, detail⟩)
    (fun _ => rfl)

def capabilitiesRequest : Codec CapabilitiesRequest :=
  linkIdentity.map (fun value => value.link) (fun link => ⟨link⟩) (fun _ => rfl)

def capabilitiesReply : Codec CapabilitiesReply :=
  metricCapabilityView.list.map (fun value => value.views) (fun views => ⟨views⟩) (fun _ => rfl)

def policyDocumentRequest : Codec PolicyDocumentRequest :=
  u64.map (fun value => value.generation) (fun generation => ⟨generation⟩) (fun _ => rfl)

def policyDocumentReply : Codec PolicyDocumentReply :=
  (policyGenerationRecord.pair (u8.pair text)).map
    (fun value => (value.record, value.found, value.detail))
    (fun (record, found, detail) =>
      ⟨record, found, detail⟩)
    (fun _ => rfl)

def recoverySummary : Codec RecoverySummary :=
  (bool.pair (bool.pair (bool.pair (bool.pair (bool.pair (bool.pair (bool.pair (u64.pair (u64.pair (u64.pair
    statusCode)))))))))).map
    (fun value => (value.opened, value.headerValid, value.tornTail, value.degraded, value.truncated,
      value.snapshotLoaded, value.limitReached, value.recordsRead, value.bytesRead, value.bytesDiscarded,
      value.status))
    (fun (opened, headerValid, tornTail, degraded, truncated, snapshotLoaded, limitReached, recordsRead,
      bytesRead, bytesDiscarded, status) =>
      ⟨opened, headerValid, tornTail, degraded, truncated, snapshotLoaded, limitReached, recordsRead,
       bytesRead, bytesDiscarded, status⟩)
    (fun _ => rfl)

def fabricStats : Codec FabricStatsReport :=
  (u64.pair (policyStamp.pair (u64.pair (u64.pair (u64.pair (u64.pair (u64.pair (u64.pair (u64.pair (u64.pair
    (u64.pair (u64.pair (u64.pair (u64.pair (u64.pair (u64.pair (u64.pair (u64.pair (u64.pair (u64.pair
    (u64.pair (u64.pair (u64.pair (u64.pair (u64.pair (u64.pair (u64.pair (u64.pair (u64.pair (u64.pair
    (u64.pair (u64.pair (u64.pair (u64.pair (u64.pair (bool.pair (bool.pair
    recoverySummary))))))))))))))))))))))))))))))))))))).map
    (fun value => (value.epoch, value.policy, value.observationsAccepted, value.observationsDuplicate,
      value.observationsReordered, value.observationsRejected, value.observationsRecovered, value.ingestBatches,
      value.capabilityDeclarations, value.capabilityRejections, value.policyPublications,
      value.policyRejections, value.linksObserved, value.linksRegistered, value.generationsAdvanced,
      value.queriesServed, value.windowQueries, value.explanations, value.inspections, value.streamEvictions,
      value.historyEvictions, value.continuityBreaks, value.wrapsInferred, value.resetsObserved,
      value.unprovenDecreases, value.limitRejections, value.journalRecords, value.journalBytes,
      value.journalRejections, value.compactions, value.recoveredRecords, value.recoveries, value.links,
      value.streams, value.retainedRecords, value.journalEnabled, value.isOpen, value.recovery))
    (fun (epoch, policy, observationsAccepted, observationsDuplicate, observationsReordered,
      observationsRejected, observationsRecovered, ingestBatches, capabilityDeclarations, capabilityRejections,
      policyPublications, policyRejections, linksObserved, linksRegistered, generationsAdvanced, queriesServed,
      windowQueries, explanations, inspections, streamEvictions, historyEvictions, continuityBreaks,
      wrapsInferred, resetsObserved, unprovenDecreases, limitRejections, journalRecords, journalBytes,
      journalRejections, compactions, recoveredRecords, recoveries, links, streams, retainedRecords,
      journalEnabled, isOpen, recovery) =>
      { epoch, policy, observationsAccepted, observationsDuplicate, observationsReordered,
        observationsRejected, observationsRecovered, ingestBatches, capabilityDeclarations,
        capabilityRejections, policyPublications, policyRejections, linksObserved, linksRegistered,
        generationsAdvanced, queriesServed, windowQueries, explanations, inspections, streamEvictions,
        historyEvictions, continuityBreaks, wrapsInferred, resetsObserved, unprovenDecreases, limitRejections,
        journalRecords, journalBytes, journalRejections, compactions, recoveredRecords, recoveries, links,
        streams, retainedRecords, journalEnabled, isOpen, recovery })
    (fun _ => rfl)

end Codec

end Lqf
