import LinkQualityFabric.Runtime.Changes

/-! The states of a fabric.

A state is reachable when it was opened from some journal file and then went through calls, through locked
parts of calls that had looked at the open flag earlier, and through the work of the journal. Every
reachable state has a checked configuration, a well-formed link registry, and a journal whose failure, if
it has one, is not a refusal. -/
namespace Lqf.Fabric
set_option autoImplicit false

open BackgroundJournal

structure Sound (fabric : Fabric) : Prop where
  checked : checkConfig fabric.config = .ok ()
  links : fabric.links.WellFormed
  journal : ∀ journal ∈ fabric.journal, journal.Unrefused

namespace Sound
variable {fabric after : Fabric}

theorem of_only (h : fabric.Sound) (honly : JournalRuns fabric after) : after.Sound :=
  ⟨by rw [honly.config]; exact h.checked, by rw [show after.links = fabric.links from
    congrArg FabricState.links honly.state]; exact h.links, honly.unrefused h.journal⟩

theorem same (h : fabric.Sound) (hconfig : after.config = fabric.config) (hlinks : after.links = fabric.links)
    (hjournal : after.journal = fabric.journal) : after.Sound :=
  ⟨by rw [hconfig]; exact h.checked, by rw [hlinks]; exact h.links, by rw [hjournal]; exact h.journal⟩

theorem drainEvicted (h : fabric.Sound) {links : LinkRegistry} (hlinks : links.WellFormed) :
    ({ fabric with links := links } : Fabric).drainEvicted.Sound :=
  ⟨h.checked, hlinks.takeEvicted, h.journal⟩

theorem moves {allowed : Change → Prop} (h : fabric.Sound) (hmoves : RunsBy allowed fabric after) : after.Sound := by
  refine ⟨by rw [hmoves.config]; exact h.checked, ?_, hmoves.unrefused h.journal⟩
  refine hmoves.steps.invariant (P := fun state => state.links.WellFormed) (fun _ _ _ _ hbefore hchanged => ?_) h.links
  cases hchanged with
  | observe hobserve => exact hbefore.observe hobserve
  | advance hadvance => exact hbefore.advanceGeneration hadvance
  | drain => exact hbefore.takeEvicted
  | _ => exact hbefore

end Sound

/-! ## Reachable states -/

inductive Reachable : Fabric → Prop
  | opened (config : FabricConfig) (derived : UInt64) (publishedAt : Int64) (io : InitializeIo) (disk : Disk)
      (h : ((new config derived publishedAt).initializeFabric io disk).1 = .ok ()) :
      Reachable ((new config derived publishedAt).initializeFabric io disk).2
  | called {fabric : Fabric} (call : FabricCall) (io : CallIo) (h : Reachable fabric) :
      Reachable (fabric.respond (call, io)).2
  /-- The locked part of a call that had passed its unlocked part in an earlier state. -/
  | raced {fabric : Fabric} (call : FabricCall) (io : CallIo) (h : Reachable fabric) :
      Reachable (fabric.respondLocked (call, io)).2
  | wrote {fabric : Fabric} (steps : List WriterStep) (h : Reachable fabric) : Reachable (fabric.letWriterRun steps)
  | flushed {fabric : Fabric} (io : FlushIo) (h : Reachable fabric) : Reachable (fabric.flush io).2
  | compacted {fabric : Fabric} (io : CompactIo) (h : Reachable fabric) : Reachable (fabric.compact io).2
  | closed {fabric : Fabric} (h : Reachable fabric) : Reachable fabric.detachJournal.2

variable {fabric : Fabric}

/-- What holds of a fabric that has just come up, and of whatever it moves to, holds of every reachable fabric. -/
theorem Reachable.induct {P : Fabric → Prop} (h : Reachable fabric)
    (hnew : ∀ config derived publishedAt, checkConfig config = .ok () →
      PolicyChecks.validate ⟨.withBuiltinDescriptors 256, config.limits.maxPolicyRules, config.limits.maxBandsPerRule⟩
        config.firstPolicy = .ok () →
      P { new config derived publishedAt with catalog := .withBuiltinDescriptors 256 })
    (hmove : ∀ before after, P before → RunsBy Change.KnownOrigin before after → P after) : P fabric := by
  induction h with
  | opened config derived publishedAt io disk h =>
    unfold initializeFabric at h ⊢
    split
    · next hchecked =>
      rw [hchecked] at h
      cases h
    · next hchecked =>
      rw [hchecked] at h
      refine hmove _ _ (hnew config derived publishedAt hchecked ?_) (RunsBy.anyStart _ io disk)
      dsimp only at h
      unfold bringUp at h
      split at h
      · cases h
      · next hvalid => exact hvalid
  | called call io _ ih => exact hmove _ _ ih (RunsBy.anyCall _ call io)
  | raced call io _ ih => exact hmove _ _ ih (RunsBy.anyLocked _ call io)
  | wrote steps _ ih => exact hmove _ _ ih (.of_only (letWriterRun_only _ _))
  | flushed io _ ih => exact hmove _ _ ih (.of_only (flush_only _ _))
  | compacted io _ ih => exact hmove _ _ ih (.of_only (compact_only _ _))
  | closed _ ih => exact hmove _ _ ih (.detachJournal _)

theorem Reachable.sound (h : Reachable fabric) : fabric.Sound :=
  h.induct (fun _ _ _ hchecked _ => ⟨hchecked, LinkRegistry.wellFormed_empty _, by simp [new]⟩)
    fun _ _ hbefore hmoves => hbefore.moves hmoves

theorem Reachable.evidence_limits (h : Reachable fabric) : fabric.evidence.limits = fabric.config.limits := by
  refine h.induct (P := fun fabric => fabric.evidence.limits = fabric.config.limits) (fun _ _ _ _ _ => rfl) ?_
  intro before after hbefore hmoves
  rw [hmoves.config]
  refine hmoves.steps.invariant (P := fun state => state.evidence.limits = before.config.limits)
    (fun _ _ _ _ hkept hchanged => ?_) hbefore
  cases hchanged with
  | drain => exact (EvidenceStore.dropLinks_limits _ _).trans hkept
  | append => exact (EvidenceStore.append_limits ..).trans hkept
  | seed => exact (EvidenceStore.seedDedupWindow_limits ..).trans hkept
  | _ => exact hkept

theorem Sound.limits (h : fabric.Sound) : FabricLimits.Valid fabric.config.limits := by
  have hchecked := h.checked
  rw [checkConfig, Outcome.check_bind_eq_ok] at hchecked
  exact FabricLimits.valid_of_validate hchecked.1

theorem Reachable.globalHistory (h : Reachable fabric) : 1 ≤ fabric.evidence.limits.maxGlobalHistory := by
  rw [h.evidence_limits]
  exact h.sound.limits.globalHistory

/-! ## A small fabric -/

def smallConfig : FabricConfig where
  limits := .defaults
  journal := { JournalConfig.defaults with enabled := true, path := text "journal", maxRecordBytes := 64 }
  initialPolicy := some (.named (text "plain"))
  forcedEpoch := 1
  maxPolicyGenerations := 8

def linkRecord (ordinal : UInt64) (link : LinkIdentity) : JournalRecord where
  kind := .linkObserved
  ordinal := ordinal
  body := (Codec.linkObservedBody.encodeBody {} ⟨link, ⟨0, true⟩, ⟨0, 0, 1⟩⟩).toOption.getD []

def oneLinkDisk : Disk := ⟨some (buildFileHeader 1 0 ++ encodeRecordBytes (linkRecord 0 ⟨text "a", 1⟩)), none⟩

def smallFabric : Fabric := ((new smallConfig 1 0).initializeFabric {} oneLinkDisk).2

theorem smallFabric_reachable : Reachable smallFabric := .opened _ _ _ _ _ (by decide +kernel)

end Lqf.Fabric
