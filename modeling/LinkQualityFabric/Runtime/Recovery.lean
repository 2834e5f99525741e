import LinkQualityFabric.Runtime.Operations

/-! Opening a fabric: `apply_record` and `initialize` of `src/runtime/fabric.cpp`.

The journal is read record by record, and each record is applied to the registries. A record that cannot
be applied marks the recovery as degraded and the loop goes on; the mark is then replaced by the report of
the reader, which knows nothing of it. -/
namespace Lqf.Fabric
open Foundations
set_option autoImplicit false

/-! ## Applying a record -/

def applyDecoded {α : Type} [Inhabited α] (codec : Codec α) (body : Bytes)
    (apply : α → Fabric → Outcome Unit × Fabric) (fabric : Fabric) : Outcome Unit × Fabric :=
  match codec.decodeBody fabric.codecLimits body with
  | .error status => (.error status, fabric)
  | .ok value => apply value fabric

def applyCapability (declaration : CapabilityDeclaration) (fabric : Fabric) : Outcome Unit × Fabric :=
  match fabric.capabilities.declare fabric.catalog declaration with
  | .error status => (.error status, fabric)
  | .ok capabilities => (.ok (), { fabric with capabilities := capabilities })

def applyPolicy (record : PolicyGenerationRecord) (fabric : Fabric) : Outcome Unit × Fabric :=
  match fabric.policies.recoverRecord fabric.policyChecks record with
  | .error status => (.error status, fabric)
  | .ok policies => (.ok (), { fabric with policies := policies })

/-- What the registry evicts here is left for a later record to drain. -/
def applyLinkObserved (body : LinkObservedBody) (fabric : Fabric) : Outcome Unit × Fabric :=
  match fabric.links.observe body.link body.observedAt body.received with
  | .error status => (.error status, fabric)
  | .ok links => (.ok (), { fabric with links := links })

def applyGeneration (body : GenerationBody) (fabric : Fabric) : Outcome Unit × Fabric :=
  match fabric.links.advanceGeneration ⟨body.link, body.generation⟩ body.at_ body.received with
  | .error status => (.error status, fabric)
  | .ok links => (.ok (), { fabric with links := links }.drainEvicted)

def countRecovered (fabric : Fabric) : Fabric :=
  fabric.tally fun stats =>
    { stats with
      observationsRecovered := stats.observationsRecovered + 1
      recoveredRecords := stats.recoveredRecords + 1 }

def noteRecovered (record : EvidenceRecord) (fabric : Fabric) : Outcome Unit × Fabric :=
  match fabric.links.observe record.observation.link record.observation.observedAt record.received with
  | .error status => (.error status, fabric)
  | .ok links => (.ok (), { fabric with links := links }.drainEvicted.countRecovered)

def storeRecovered (record : EvidenceRecord) (fabric : Fabric) : Outcome Unit × Fabric :=
  match fabric.evidence.append record.observation record.received record.ordinal .recovered
      (counterConfigFor fabric.policies.current.document record.observation.metric) with
  | (.error status, evidence) => (.error status, { fabric with evidence := evidence })
  | (.ok _, evidence) => { fabric with evidence := evidence }.noteRecovered record

def applyEvidence (record : EvidenceRecord) (fabric : Fabric) : Outcome Unit × Fabric :=
  match validateObservation record.observation (fabric.catalog.find record.observation.metric)
      fabric.observationLimits with
  | .error status => (.error status, fabric)
  | .ok () => fabric.storeRecovered record

def applyDedup (body : DedupBody) (fabric : Fabric) : Outcome Unit × Fabric :=
  ((fabric.evidence.seedDedupWindow body.key body.entries).1,
    { fabric with evidence := (fabric.evidence.seedDedupWindow body.key body.entries).2 })

/-- `apply_record` over what it does with a snapshot. -/
def applyKind (snapshot : Bytes → Fabric → Outcome Unit × Fabric) (record : JournalRecord) (fabric : Fabric) :
    Outcome Unit × Fabric :=
  match record.kind with
  | .capability => fabric.applyDecoded Codec.capabilityDeclaration record.body applyCapability
  | .policy => fabric.applyDecoded Codec.policyGenerationRecord record.body applyPolicy
  | .linkObserved => fabric.applyDecoded Codec.linkObservedBody record.body applyLinkObserved
  | .linkGenerationAdvanced => fabric.applyDecoded Codec.generationBody record.body applyGeneration
  | .evidence => fabric.applyDecoded Codec.evidenceRecord record.body applyEvidence
  | .dedupWindow => fabric.applyDecoded Codec.dedupBody record.body applyDedup
  | .snapshot => snapshot record.body fabric
  | .count => (fail .protocol (text "unknown journal record kind"), fabric)

def applyNested : JournalRecord → Fabric → Outcome Unit × Fabric :=
  applyKind fun _ fabric => (fail .corrupt (text "nested snapshots are not permitted"), fabric)

/-- The records of a snapshot: the first that fails ends it. -/
def applyAll : List JournalRecord → Fabric → Outcome Unit × Fabric
  | [], fabric => (.ok (), fabric)
  | record :: rest, fabric =>
    match fabric.applyNested record with
    | (.error status, after) => (.error status, after)
    | (.ok (), after) => applyAll rest after

def applySnapshot (body : Bytes) (fabric : Fabric) : Outcome Unit × Fabric :=
  match decodeRecordBundle body fabric.config.journal.maxRecoveryRecords fabric.config.journal.maxRecordBytes with
  | .error status => (.error status, fabric)
  | .ok records => applyAll records fabric

def applyRecord : JournalRecord → Fabric → Outcome Unit × Fabric := applyKind applySnapshot

/-! ## Replay -/

def replayRecord (fabric : Fabric) (record : JournalRecord) : Fabric :=
  match fabric.applyRecord record with
  | (.ok (), after) => after
  | (.error _, after) => { after with recovery := { after.recovery with degraded := true } }

/-- The replay loop: a record that cannot be applied does not end it. -/
def replay (records : List JournalRecord) (fabric : Fabric) : Fabric := records.foldl replayRecord fabric

/-! ## Opening -/

/-- What surrounds one `open`: the file system of each of its phases, the clock and the writer. -/
structure InitializeIo where
  reader : OpenIo := {}
  repair : JournalReader.RepairIo := {}
  start : BackgroundJournal.StartIo := {}
  startedNanos : Int64 := 0
  record : AppendIo := {}
  compaction : BackgroundJournal.CompactIo := {}
  deriving DecidableEq, Repr, Inhabited

def labelled (label : String) (status : Status) : Status := ⟨status.code, text label ++ status.message⟩

def compactOnOpen (io : InitializeIo) (fabric : Fabric) : Outcome Unit × Fabric :=
  if fabric.config.journal.compactOnOpen then
    match fabric.compact io.compaction with
    | (.error status, after) => if status.code = .refused then (.ok (), after) else (.error status, after)
    | (.ok (), after) => (.ok (), after)
  else (.ok (), fabric)

def openGate (result : Outcome Unit × Fabric) : Outcome Unit × Fabric :=
  match result with
  | (.error status, fabric) => (.error status, fabric)
  | (.ok (), fabric) => (.ok (), { fabric with isOpen := true })

/-- The initial generation is journaled when the replay has read nothing. -/
def journalInitialPolicy (io : InitializeIo) (initial : PolicyGenerationRecord) (fresh : Bool) (fabric : Fabric) :
    Outcome Unit × Fabric :=
  if fresh then
    match Codec.policyGenerationRecord.encodeBody fabric.codecLimits initial with
    | .error status => (.error status, fabric)
    | .ok body => fabric.journalAppend io.record .policy body
  else (.ok (), fabric)

def startedWith (journal : BackgroundJournal) (fabric : Fabric) : Fabric :=
  { fabric with journal := some journal }.tally fun stats => { stats with recoveries := stats.recoveries + 1 }

def startJournal (io : InitializeIo) (initial : PolicyGenerationRecord) (fresh : Bool) (disk : Disk) (fabric : Fabric) :
    Outcome Unit × Fabric :=
  match BackgroundJournal.start io.start fabric.config.journal disk fabric.epoch io.startedNanos with
  | .error status => (.error status, fabric)
  | .ok journal =>
    match (fabric.startedWith journal).journalInitialPolicy io initial fresh with
    | (.error status, after) => (.error status, after)
    | (.ok (), after) => openGate (after.compactOnOpen io)

/-- The torn tail is truncated before the journal is opened for writing. -/
def repairTail (io : InitializeIo) (reader : JournalReader) (fabric : Fabric) :
    Except (Status × Fabric) (JournalReader × Fabric) :=
  if fabric.recovery.tornTail then
    match reader.repairTornTail io.repair with
    | (.error status, _) =>
      .error (labelled "a damaged journal tail could not be repaired: " status,
        { fabric with recovery := { fabric.recovery with status := some status } })
    | (.ok (), repaired) => .ok (repaired, { fabric with recovery := repaired.report })
  else .ok (reader, fabric)

/-- Behind the replay loop: the report of the reader replaces what the loop has noted. -/
def adoptReport (reader : JournalReader) (fabric : Fabric) : Fabric :=
  { fabric with recovery := reader.report, nextOrdinal := reader.expectedOrdinal.getD 0 }

def afterReplay (io : InitializeIo) (initial : PolicyGenerationRecord) (reader : JournalReader) (fabric : Fabric) :
    Outcome Unit × Fabric :=
  if fabric.recovery.degraded then
    (fail .corrupt (text "journal recovery stopped at unverifiable data: " ++ fabric.recovery.detail),
      { fabric with
        recovery := { fabric.recovery with status := some ⟨.corrupt, fabric.recovery.detail⟩ } })
  else
    match fabric.repairTail io reader with
    | .error (status, after) => (.error status, after)
    | .ok (repaired, after) =>
      { after with recovery := { after.recovery with status := none } }.startJournal io initial
        (fabric.recovery.recordsRead = 0) ⟨some repaired.contents, none⟩

def recover (io : InitializeIo) (initial : PolicyGenerationRecord) (disk : Disk) (fabric : Fabric) :
    Outcome Unit × Fabric :=
  match (JournalReader.openReader io.reader fabric.config.journal disk).1 with
  | .inl (status, report) =>
    (.error (labelled "journal could not be recovered: " status),
      { fabric with recovery := { report with status := some status } })
  | .inr reader =>
    ((fabric.replay reader.readAll.1).adoptReport reader.readAll.2).afterReplay io initial reader.readAll.2

/-- Behind the checks of the configuration. -/
def bringUp (io : InitializeIo) (disk : Disk) (fabric : Fabric) : Outcome Unit × Fabric :=
  match fabric.policyChecks.validate fabric.policies.current.document with
  | .error status => (.error (labelled "initial policy is invalid: " status), fabric)
  | .ok () =>
    if fabric.config.journal.enabled then
      (fabric.tally fun stats => { stats with journalEnabled := true }).recover io fabric.policies.current disk
    else
      (.ok (), { fabric with
        recovery := { fabric.recovery with status := none, detail := text "persistence is disabled" }
        isOpen := true })

def checkConfig (config : FabricConfig) : Outcome Unit := do
  config.limits.validate
  config.journal.validate

def initializeFabric (io : InitializeIo) (disk : Disk) (fabric : Fabric) : Outcome Unit × Fabric :=
  match checkConfig fabric.config with
  | .error status => (.error status, fabric)
  | .ok () => { fabric with catalog := .withBuiltinDescriptors 256 }.bringUp io disk

end Lqf.Fabric
