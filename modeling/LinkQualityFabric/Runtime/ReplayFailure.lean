import LinkQualityFabric.Runtime.JournalCalls

/-! Records that cannot be applied: the failure policy of `docs/architecture.md` against `initialize`.

The replay loop marks the recovery as degraded when a record fails. Behind the loop the mark is replaced
by the report of the reader, so the fabric refuses to open exactly when the reader itself has met data it
could not verify, whatever happened to the records. -/
namespace Lqf.Fabric
set_option autoImplicit false

def replayStart (config : FabricConfig) (derived : UInt64) (publishedAt : Int64) : Fabric :=
  { new config derived publishedAt with catalog := .withBuiltinDescriptors 256 }.tally fun stats =>
    { stats with journalEnabled := true }

/-- The configuration and the file let `initialize` come to its replay loop. -/
structure Replays (config : FabricConfig) (io : InitializeIo) (disk : Disk) (reader : JournalReader) : Prop where
  checked : checkConfig config = .ok ()
  enabled : config.journal.enabled = true
  policy : validatePolicy config.firstPolicy (.withBuiltinDescriptors 256) config.limits.maxPolicyRules
    config.limits.maxBandsPerRule = .ok ()
  opened : (JournalReader.openReader io.reader config.journal disk).1 = .inr reader

def RecordFails (config : FabricConfig) (derived : UInt64) (publishedAt : Int64) (io : InitializeIo) (disk : Disk) :
    Prop :=
  ∃ reader before record after, Replays config io disk reader ∧ reader.readAll.1 = before ++ record :: after ∧
    (((replayStart config derived publishedAt).replay before).applyRecord record).1 ≠ .ok ()

def ReaderDegraded (config : FabricConfig) (io : InitializeIo) (disk : Disk) : Prop :=
  ∃ reader, (JournalReader.openReader io.reader config.journal disk).1 = .inr reader ∧
    reader.readAll.2.report.degraded = true

/-- The answer the failure policy promises. -/
def RefusedAsCorrupt (result : Outcome Unit × Fabric) : Prop :=
  (∃ message, result.1 = fail .corrupt message) ∧ result.2.recovery.degraded = true

variable {config : FabricConfig} {disk : Disk} {reader : JournalReader} (io : InitializeIo)
  (initial : PolicyGenerationRecord) (fresh : Bool) (fabric : Fabric)

theorem initializeFabric_of_replays {io : InitializeIo} (h : Replays config io disk reader) (derived : UInt64)
    (publishedAt : Int64) : (new config derived publishedAt).initializeFabric io disk =
      (((replayStart config derived publishedAt).replay reader.readAll.1).adoptReport reader.readAll.2).afterReplay
        io (new config derived publishedAt).policies.current reader.readAll.2 := by
  have hchecked : checkConfig (new config derived publishedAt).config = .ok () := h.checked
  have hpolicy : ({ new config derived publishedAt with catalog := .withBuiltinDescriptors 256 } :
      Fabric).policyChecks.validate (new config derived publishedAt).policies.current.document = .ok () := h.policy
  have hopened : (JournalReader.openReader io.reader (replayStart config derived publishedAt).config.journal disk).1 =
      .inr reader := h.opened
  rw [initializeFabric, hchecked]
  dsimp only
  rw [bringUp, hpolicy]
  dsimp only
  rw [if_pos (show (new config derived publishedAt).config.journal.enabled = true from h.enabled)]
  change (replayStart config derived publishedAt).recover io _ disk = _
  rw [recover, hopened]

theorem repairTornTail_degraded (io : JournalReader.RepairIo) (reader : JournalReader) :
    (reader.repairTornTail io).2.report.degraded = reader.report.degraded := by
  unfold JournalReader.repairTornTail
  split_ifs <;> try rfl
  unfold JournalReader.truncateTail
  dsimp only
  split <;> rfl

theorem startJournal_recovery (disk : Disk) (fabric : Fabric) :
    (fabric.startJournal io initial fresh disk).2.recovery = fabric.recovery := by
  unfold startJournal
  split
  · rfl
  · next journal _ =>
    have hinitial := ((fabric.startedWith journal).journalInitialPolicy_only io initial fresh).recovery
    split
    · next hresult =>
      rw [hresult] at hinitial
      exact hinitial
    · next after hresult =>
      rw [hresult] at hinitial
      have hcompact := (after.compactOnOpen_only io).recovery
      unfold openGate
      split
      · next hlast =>
        rw [hlast] at hcompact
        exact hcompact.trans hinitial
      · next hlast =>
        rw [hlast] at hcompact
        exact hcompact.trans hinitial

theorem afterReplay_verified {fabric : Fabric} (hreport : fabric.recovery = reader.report)
    (h : reader.report.degraded = false) : (fabric.afterReplay io initial reader).2.recovery.degraded = false := by
  have hdegraded : fabric.recovery.degraded = false := by rw [hreport]; exact h
  have hrepaired := (repairTornTail_degraded io.repair reader).trans h
  unfold afterReplay
  rw [if_neg (by simp [hdegraded])]
  unfold repairTail
  split
  · next status after hfailed =>
    split at hfailed
    · split at hfailed
      · cases hfailed
        exact hdegraded
      · cases hfailed
    · cases hfailed
  · next repaired after hok =>
    rw [startJournal_recovery]
    split at hok
    · split at hok
      · cases hok
      · next hresult =>
        cases hok
        rw [hresult] at hrepaired
        exact hrepaired
    · cases hok
      exact hdegraded

theorem refusedAsCorrupt_iff {io : InitializeIo} (h : Replays config io disk reader) (derived : UInt64)
    (publishedAt : Int64) : RefusedAsCorrupt ((new config derived publishedAt).initializeFabric io disk) ↔
      reader.readAll.2.report.degraded = true := by
  rw [initializeFabric_of_replays h]
  constructor
  · rintro ⟨-, hdegraded⟩
    by_contra hverified
    rw [afterReplay_verified io _ rfl (by simpa using hverified)] at hdegraded
    cases hdegraded
  · intro hdegraded
    unfold afterReplay
    rw [if_pos (show (adoptReport _ _).recovery.degraded = true from hdegraded)]
    exact ⟨⟨_, rfl⟩, hdegraded⟩

/-- When a record fails to apply, the fabric refuses to open as it promises if and only if the reader has
met data it could not verify. -/
theorem failed_record_refused_iff (config : FabricConfig) (derived : UInt64) (publishedAt : Int64)
    (io : InitializeIo) (disk : Disk) :
    (RecordFails config derived publishedAt io disk →
        RefusedAsCorrupt ((new config derived publishedAt).initializeFabric io disk)) ↔
      (RecordFails config derived publishedAt io disk → ReaderDegraded config io disk) := by
  refine forall_congr' ?_
  rintro ⟨reader, -, -, -, hreplays, -⟩
  rw [refusedAsCorrupt_iff hreplays]
  constructor
  · intro hdegraded
    exact ⟨reader, hreplays.opened, hdegraded⟩
  · rintro ⟨other, hother, hdegraded⟩
    obtain rfl : reader = other := Sum.inr.inj (hreplays.opened.symm.trans hother)
    exact hdegraded

def plainConfig : FabricConfig where
  limits := .defaults
  journal := { JournalConfig.defaults with enabled := true, path := text "journal" }
  initialPolicy := some (.named (text "plain"))
  forcedEpoch := 1
  maxPolicyGenerations := 8

def emptyDeclarationDisk : Disk :=
  ⟨some (buildFileHeader 1 0 ++ encodeRecordBytes ⟨.capability, 1, []⟩), none⟩

def emptyDeclarationReader : JournalReader where
  config := plainConfig.journal
  contents := buildFileHeader 1 0 ++ encodeRecordBytes ⟨.capability, 1, []⟩
  report := { opened := true, headerValid := true }
  lastGoodOffset := fileHeaderBytes
  expectedOrdinal := none
  reachedEnd := false

/-- The record fails to apply, and the fabric opens without it. -/
theorem failed_record_dropped :
    RecordFails plainConfig 1 0 {} emptyDeclarationDisk ∧
      ((new plainConfig 1 0).initializeFabric {} emptyDeclarationDisk).1 = .ok () := by
  have hreplays : Replays plainConfig {} emptyDeclarationDisk emptyDeclarationReader :=
    ⟨by decide +kernel, by decide, by decide +kernel, by decide +kernel⟩
  refine ⟨⟨emptyDeclarationReader, [], ⟨.capability, 1, []⟩, [], hreplays, by decide +kernel, by decide +kernel⟩, ?_⟩
  decide +kernel

end Lqf.Fabric
