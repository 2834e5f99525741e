import LinkQualityFabric.Runtime.Opening

/-! A run of a fabric that was opened on an empty journal, and the replay of what it journaled.

The replica starts as a fresh fabric with the same configuration. Every call keeps the two together, so
they agree after every run in which the journal refuses nothing and every call can be replayed. -/
namespace Lqf.Fabric
open Foundations
set_option autoImplicit false

open BackgroundJournal

/-! ## One call -/

section Calls
variable {replica live : Fabric}

theorem respondLocked_advances (h : Tracks replica live) (call : FabricCall) (io : CallIo)
    (hsteady : Steady live (live.respondLocked (call, io)).2) (hcondition : live.Replayable (call, io)) :
    Advances replica live (live.respondLocked (call, io)).2 := by
  cases call with
  | ingest observation => exact ingest_advances h io observation hsteady
  | _ => exact (live.respondLocked_ends _ io (by simp)).advances h hsteady hcondition

theorem replayable_letWriterRun (steps : List WriterStep) (event : FabricCall × CallIo) (h : live.Replayable event) :
    (live.letWriterRun steps).Replayable event := by
  obtain ⟨call, io⟩ := event
  cases call <;> exact h

theorem respond_advances (h : Tracks replica live) (event : FabricCall × CallIo)
    (hsteady : Steady live (live.respond event).2) (hcondition : live.Replayable event) :
    Advances replica live (live.respond event).2 := by
  obtain ⟨call, io⟩ := event
  rw [respond_eq] at hsteady ⊢
  split
  · exact h.stays
  · next hpasses =>
    simp only [hpasses] at hsteady
    exact respondLocked_advances (h.of_only (live.letWriterRun_only io.writer)) call io hsteady
      (replayable_letWriterRun io.writer (call, io) hcondition)

end Calls

/-! ## The start -/

def EmptyJournal (config : FabricConfig) (io : InitializeIo) (disk : Disk) : Prop :=
  ∀ reader, (JournalReader.openReader io.reader config.journal disk).1 = .inr reader → reader.readAll.1 = []

instance (config : FabricConfig) (io : InitializeIo) (disk : Disk) : Decidable (EmptyJournal config io disk) :=
  match h : (JournalReader.openReader io.reader config.journal disk).1 with
  | .inl _ => .isTrue fun _ hreader => nomatch h.symm.trans hreader
  | .inr reader => decidable_of_iff (reader.readAll.1 = [])
      ⟨fun hempty _ hother => Sum.inr.inj (h.symm.trans hother) ▸ hempty, fun hall => hall reader h⟩

section Start
variable {config : FabricConfig} {derived : UInt64} {publishedAt : Int64} {io : InitializeIo} {disk : Disk}
variable {fabric : Fabric}

theorem fresh_tracks (derived : UInt64) (publishedAt : Int64) (hchecked : checkConfig config = .ok ())
    (hsize : config.maxPolicyGenerations < 2 ^ 64)
    (hstate : fabric.toFabricState = (new config derived publishedAt).toFabricState)
    (hconfig : fabric.config = config) (hcatalog : fabric.catalog = .withBuiltinDescriptors 256)
    (hjournal : ∀ journal ∈ fabric.journal, journal.Unrefused) (hjournaling : fabric.Journaling) (derived' : UInt64)
    (publishedAt' : Int64) : Tracks (replayStart config derived' publishedAt') fabric := by
  obtain ⟨hpolicies, hcapabilities, hlinks, hevidence⟩ := FabricState.mk.injEq .. ▸ hstate
  have hnoknows : ∀ link, ¬ fabric.evidence.Knows link := by
    rw [hevidence]
    rintro link (hcount | ⟨key, hkey, -⟩)
    · exact hcount (by simp [EvidenceStore.empty, EvidenceStore.streamsOf])
    · simp [EvidenceStore.empty] at hkey
  refine ⟨⟨⟨by rw [hconfig]; exact hchecked, ?_, hjournal⟩, ?_, ?_, ?_, ?_, ?_, ?_⟩, hjournaling, ⟨?_, rfl⟩⟩
  · rw [hlinks]
    exact LinkRegistry.wellFormed_empty _
  · rw [hpolicies, hconfig]
    exact PolicyRegistry.published_start _ _
  · rw [hpolicies]
    exact PolicyRegistry.start_maxGenerations_lt _ hsize
  · rw [hlinks, hconfig]
    rfl
  · rw [hevidence, hconfig]
    rfl
  · rw [hlinks]
    rfl
  · exact fun link hknows => absurd hknows (hnoknows link)
  · refine ⟨by rw [hconfig]; rfl, by rw [hcatalog]; rfl, by rw [hcapabilities]; rfl, ?_, ?_, ?_⟩
    · rw [hpolicies]
      exact ⟨rfl, rfl⟩
    · rw [hlinks]
      exact .refl _
    · rw [hevidence]
      exact .refl _

theorem initialPolicy_replayed (hsound : fabric.Sound) (hconfig : fabric.config = config)
    (hpolicy : validatePolicy config.firstPolicy (.withBuiltinDescriptors 256) config.limits.maxPolicyRules
      config.limits.maxBandsPerRule = .ok ()) {body : Bytes}
    (hbody : Codec.policyGenerationRecord.encodeBody fabric.codecLimits
      (new config derived publishedAt).policies.current = .ok body) (ordinal derived' : UInt64)
    (publishedAt' : Int64) : (replayStart config derived' publishedAt').replayRecord ⟨.policy, ordinal, body⟩ =
      replayStart config derived' publishedAt' := by
  have hrecover : (replayStart config derived' publishedAt').policies.recoverRecord
      (replayStart config derived' publishedAt').policyChecks (new config derived publishedAt).policies.current =
        .ok (replayStart config derived' publishedAt').policies :=
    (PolicyRegistry.recoverRecord_first _ _ rfl _).mpr ⟨hpolicy, rfl, rfl⟩
  apply replayRecord_of_ok
  show (replayStart config derived' publishedAt').applyDecoded Codec.policyGenerationRecord body applyPolicy = _
  rw [applyDecoded_encoded applyPolicy hsound hconfig.symm hbody (Codec.policyGenerationRecord_valid hpolicy),
    applyPolicy, hrecover]

theorem journalInitialPolicy_advances {appended : Fabric} {fresh : Bool} {derived' : UInt64} {publishedAt' : Int64}
    (h : Tracks (replayStart config derived' publishedAt') fabric) (hconfig : fabric.config = config)
    (hpolicy : validatePolicy config.firstPolicy (.withBuiltinDescriptors 256) config.limits.maxPolicyRules
      config.limits.maxBandsPerRule = .ok ())
    (happended : fabric.journalInitialPolicy io (new config derived publishedAt).policies.current fresh =
      (.ok (), appended)) : Advances (replayStart config derived' publishedAt') fabric appended := by
  unfold journalInitialPolicy at happended
  split at happended
  · split at happended
    · cases happended
    · next body hbody =>
      have honly := fabric.journalAppend_only io.record .policy body
      have happends := journalAppend_appends io.record .policy body h.journaling (by decide)
      have hmirrors : Mirrors fabric ((replayStart config derived' publishedAt').replayRecord
          ⟨.policy, fabric.nextOrdinal, body⟩) := by
        rw [initialPolicy_replayed h.orderly.sound hconfig hpolicy hbody]
        exact h.mirrors
      rw [happended] at honly happends
      cases happends with
      | taken htrail _ => exact advances_append h.orderly hmirrors h.journaling htrail honly
  · cases happended
    exact h.stays

theorem Tracks.gate {replica live : Fabric} (h : Tracks replica live) : Tracks replica { live with isOpen := true } :=
  ⟨⟨h.orderly.sound.same rfl rfl rfl, h.orderly.published, h.orderly.countable, h.orderly.linkLimits,
    h.orderly.storeLimits, h.orderly.drained, h.orderly.registered⟩, h.journaling,
    ⟨⟨h.mirrors.config, h.mirrors.catalog, h.mirrors.capabilities, h.mirrors.policies, h.mirrors.links,
      h.mirrors.evidence⟩, h.mirrors.drained⟩⟩

theorem opened_tracks (henabled : config.journal.enabled = true) (hsize : config.maxPolicyGenerations < 2 ^ 64)
    (hempty : EmptyJournal config io disk)
    (h : ((new config derived publishedAt).initializeFabric io disk).1 = .ok ()) (derived' : UInt64)
    (publishedAt' : Int64) : Tracks ((replayStart config derived' publishedAt').replay
        ((new config derived publishedAt).initializeFabric io disk).2.journaled)
      ((new config derived publishedAt).initializeFabric io disk).2 := by
  obtain ⟨reader, hreplays⟩ := replays_of_opened henabled h
  rw [initializeFabric_of_replays hreplays, hempty reader hreplays.opened] at h ⊢
  obtain ⟨-, repaired, recovery, -, hstarted⟩ := afterReplay_ok rfl h
  rw [hstarted] at h ⊢
  obtain ⟨journal, appended, compacted, hstart, hinitial, hcompact, hfinal⟩ := startJournal_ok h
  rw [hfinal]
  have hbegin : Tracks (replayStart config derived' publishedAt')
      (({ (replayStart config derived publishedAt).adoptReport reader.readAll.2 with
        recovery := recovery } : Fabric).startedWith journal) := by
    apply fresh_tracks derived publishedAt hreplays.checked hsize
    · rfl
    · rfl
    · rfl
    · intro other hother
      obtain rfl : journal = other := Option.some.inj hother
      obtain ⟨-, rfl⟩ := start_eq_ok hstart
      exact fun _ hstatus => nomatch hstatus
    · exact ⟨journal, rfl, start_enabled hstart⟩
  obtain ⟨records, hrecords, htracks⟩ := journalInitialPolicy_advances hbegin rfl hreplays.policy hinitial
  have honly := appended.compactOnOpen_only io
  have hjournaled := appended.compactOnOpen_journaled io
  rw [hcompact] at honly hjournaled
  obtain rfl : records = compacted.journaled := (hjournaled.trans hrecords).symm
  exact (htracks.of_only honly).gate

end Start

/-! ## Every run -/

/-- In every run that starts on an empty journal and in which the journal refuses nothing, as long as each call
can be replayed, replaying what was journaled gives the live state. -/
theorem replay_reproduces (config : FabricConfig) (henabled : config.journal.enabled = true)
    (hsize : config.maxPolicyGenerations < 2 ^ 64) (derived derived' : UInt64) (publishedAt publishedAt' : Int64)
    (io : InitializeIo) (disk : Disk) (hempty : EmptyJournal config io disk)
    (hopen : ((new config derived publishedAt).initializeFabric io disk).1 = .ok ())
    (calls : List (FabricCall × CallIo))
    (hmeets : machine.Meets (fun fabric event => Steady fabric (fabric.respond event).2 ∧ fabric.Replayable event)
      ((new config derived publishedAt).initializeFabric io disk).2 calls) :
    Reproduces (machine.final ((new config derived publishedAt).initializeFabric io disk).2 calls).toFabricState
      ((replayStart config derived' publishedAt').replay
        (machine.final ((new config derived publishedAt).initializeFabric io disk).2 calls).journaled).toFabricState := by
  have hstep : ∀ (fabric : Fabric) (event : FabricCall × CallIo),
      Tracks ((replayStart config derived' publishedAt').replay fabric.journaled) fabric →
      Steady fabric (fabric.respond event).2 ∧ fabric.Replayable event →
      Tracks ((replayStart config derived' publishedAt').replay (fabric.respond event).2.journaled)
        (fabric.respond event).2 := by
    intro fabric event htracks hcondition
    obtain ⟨records, hrecords, hafter⟩ := respond_advances htracks event hcondition.1 hcondition.2
    rw [hrecords, replay, List.foldl_append]
    exact hafter
  have hrun := machine.invariant hstep (opened_tracks henabled hsize hempty hopen derived' publishedAt') hmeets
  exact hrun.mirrors.reproduces

/-! ## A registration that evicts -/

def narrowConfig : FabricConfig :=
  { plainConfig with
    limits := { FabricLimits.defaults with maxGenerationsPerLink := 1 }
    initialPolicy := some { PolicyDocument.named (text "plain") with requireCapability := false } }

def narrowFabric : Fabric := ((new narrowConfig 1 0).initializeFabric {} ⟨none, none⟩).2

def symbolErrors (link : LinkIdentity) (sequence value : UInt64) : Observation where
  link := link
  source := ⟨text "s", 1⟩
  sequence := sequence
  metric := ⟨.errorCounter, text "errors.symbol"⟩
  lane := ⟨true, 0⟩
  unit := .count
  reading := .counter ⟨value, .bits64, false⟩
  observedAt := ⟨0, false⟩
  intervalNanos := none
  authority := 1
  provenance := ⟨default, default, [], [], false, 0⟩

def firstGeneration : LinkIdentity := ⟨text "a", 1⟩

def atOnce (call : FabricCall) : FabricCall × CallIo := (call, { now := ⟨0, 0⟩ })

def sampling (sequence value : UInt64) : FabricCall × CallIo :=
  atOnce (.ingest (symbolErrors firstGeneration sequence value))

def variedRun : List (FabricCall × CallIo) :=
  [sampling 1 10, sampling 2 20, atOnce (.registerLink ⟨text "b", 1⟩ ⟨0, true⟩),
    atOnce (.advanceLinkGeneration ⟨text "a", 2⟩ .none)]

def evictingRun : List (FabricCall × CallIo) := [sampling 1 10, atOnce (.registerLink ⟨text "a", 2⟩ ⟨0, true⟩)]

theorem varied_run_reproduced : Reproduces (machine.final narrowFabric variedRun).toFabricState
    ((replayStart narrowConfig 2 5).replay (machine.final narrowFabric variedRun).journaled).toFabricState := by
  have hnew : (machine.final narrowFabric [sampling 1 10, sampling 2 20]).links.current[text "b"]? = none := by
    decide +kernel
  exact replay_reproduces narrowConfig (by decide) (by decide) 1 2 0 5 {} ⟨none, none⟩ (by decide +kernel)
    (by decide +kernel) _ ⟨⟨by decide +kernel, trivial⟩, ⟨by decide +kernel, trivial⟩,
      ⟨by decide +kernel, fun _ hcurrent => nomatch hnew.symm.trans hcurrent⟩,
      ⟨by decide +kernel, fun hreason => nomatch hreason⟩, trivial⟩

/-- The registration drops the evidence of the generation it evicts; replaying it does not. -/
theorem evicted_evidence_returns :
    ((new narrowConfig 1 0).initializeFabric {} ⟨none, none⟩).1 = .ok () ∧
      EmptyJournal narrowConfig {} ⟨none, none⟩ ∧
      machine.Meets (fun fabric event => Steady fabric (fabric.respond event).2) narrowFabric evictingRun ∧
      ¬ Reproduces (machine.final narrowFabric evictingRun).toFabricState
        ((replayStart narrowConfig 1 0).replay (machine.final narrowFabric evictingRun).journaled).toFabricState := by
  refine ⟨by decide +kernel, by decide +kernel, by decide +kernel, fun hsame => ?_⟩
  have hstream := congrArg Option.isSome (hsame.streams (symbolErrors firstGeneration 1 10).streamKey)
  exact absurd hstream (by decide +kernel)

end Lqf.Fabric
