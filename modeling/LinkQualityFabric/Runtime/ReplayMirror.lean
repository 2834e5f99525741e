import LinkQualityFabric.Runtime.JournalTrail
import LinkQualityFabric.Runtime.ReplayFailure
import LinkQualityFabric.Store.Mirror

/-! Whether replaying the journal rebuilds the state it was written by.

A fabric that was opened on an empty journal is followed by a replica that applies each record as it is
journaled. The replica keeps up with every call whose record it can read, except for one: registering a
link drops the evidence of the generations it evicts, and replaying the record leaves them waiting. -/
namespace Lqf
open Foundations
set_option autoImplicit false

namespace BackgroundJournal

theorem start_enabled {io : StartIo} {config : JournalConfig} {disk : Disk} {epoch : UInt64} {wallNanos : Int64}
    {journal : BackgroundJournal} (h : start io config disk epoch wallNanos = .ok journal) :
    journal.config.enabled = true := by
  obtain ⟨henabled, rfl⟩ := start_eq_ok h
  exact henabled

end BackgroundJournal

namespace Fabric
open BackgroundJournal

variable {fabric after live replica : Fabric}

theorem compactJournal_journaled (fabric : Fabric) (io : CompactIo) (journal : BackgroundJournal) :
    (fabric.compactJournal io journal).2.journaled = fabric.journaled ∧
      Steady fabric (fabric.compactJournal io journal).2 := by
  unfold compactJournal
  split
  · exact ⟨rfl, rfl⟩
  · split <;> exact ⟨rfl, rfl⟩

theorem maybeCompact_journaled (fabric : Fabric) (io : CompactIo) :
    (fabric.maybeCompact io).journaled = fabric.journaled ∧ Steady fabric (fabric.maybeCompact io) := by
  unfold maybeCompact
  split
  · exact ⟨rfl, rfl⟩
  · split
    · exact fabric.compactJournal_journaled io _
    · exact ⟨rfl, rfl⟩

/-! ## The replica -/

/-- The declarations, policy generations, link generations with their marks and streams are the same, up to the origin
of records, the times of publication and the statistics. -/
structure Reproduces (live replica : FabricState) : Prop where
  declarations : replica.capabilities.entries = live.capabilities.entries
  policies : replica.policies.generations.map PolicyRegistry.face = live.policies.generations.map PolicyRegistry.face
  current : replica.links.current = live.links.current
  marks : ∀ link, replica.links.marked link = live.links.marked link
  streams : ∀ key : StreamKey, (replica.evidence.streams[key]?).map StreamState.bare =
    (live.evidence.streams[key]?).map StreamState.bare

/-- What a fabric that has been opened keeps up: its bounds, its policy numbering, and that it holds
evidence of registered links only. -/
structure Orderly (fabric : Fabric) : Prop where
  sound : fabric.Sound
  published : PolicyRegistry.Published fabric.policyChecks fabric.config.firstPolicy fabric.policies
  countable : fabric.policies.maxGenerations < 2 ^ 64
  linkLimits : fabric.links.limits = fabric.config.limits
  storeLimits : fabric.evidence.limits = fabric.config.limits
  drained : fabric.links.evicted = []
  registered : ∀ link, fabric.evidence.Knows link → link ∈ fabric.links.links

theorem Orderly.of_only (h : fabric.Orderly) (honly : JournalRuns fabric after) : after.Orderly := by
  obtain ⟨hpolicies, -, hlinks, hevidence⟩ := FabricState.mk.injEq .. ▸ honly.state
  have hchecks : after.policyChecks = fabric.policyChecks := by
    unfold policyChecks
    rw [honly.config, honly.catalog]
  refine ⟨h.sound.of_only honly, ?_, ?_, ?_, ?_, ?_, ?_⟩
  · rw [hchecks, honly.config, hpolicies]
    exact h.published
  · rw [hpolicies]
    exact h.countable
  · rw [hlinks, honly.config]
    exact h.linkLimits
  · rw [hevidence, honly.config]
    exact h.storeLimits
  · rw [hlinks]
    exact h.drained
  · rw [hlinks, hevidence]
    exact h.registered

/-- The replica holds what the live fabric holds, once the evidence that waits to be dropped is dropped. -/
structure Awaits (live replica : Fabric) : Prop where
  config : replica.config = live.config
  catalog : replica.catalog = live.catalog
  capabilities : replica.capabilities = live.capabilities
  policies : PolicyRegistry.Same live.policies replica.policies
  links : LinkRegistry.Same live.links replica.links
  evidence : EvidenceStore.Same live.evidence (replica.links.evicted.foldl EvidenceStore.dropLink replica.evidence)

structure Mirrors (live replica : Fabric) : Prop extends Awaits live replica where
  drained : replica.links.evicted = []

theorem Mirrors.store (h : Mirrors live replica) : EvidenceStore.Same live.evidence replica.evidence := by
  have hevidence := h.evidence
  rwa [h.drained] at hevidence

theorem Mirrors.reproduces (h : Mirrors live replica) : Reproduces live.toFabricState replica.toFabricState :=
  ⟨congrArg CapabilityRegistry.entries h.capabilities, h.policies.faces, h.links.current, h.links.marks,
    h.store.streams⟩

theorem Mirrors.pending (h : Mirrors live replica) (hlive : live.links.evicted = []) :
    LinkRegistry.SamePending live.links replica.links := ⟨h.links, h.drained.trans hlive.symm⟩

theorem Awaits.of_only (h : Awaits live replica) (honly : JournalRuns live after) : Awaits after replica := by
  obtain ⟨hpolicies, hcapabilities, hlinks, hevidence⟩ := FabricState.mk.injEq .. ▸ honly.state
  exact ⟨h.config.trans honly.config.symm, h.catalog.trans honly.catalog.symm, hcapabilities ▸ h.capabilities,
    hpolicies ▸ h.policies, hlinks ▸ h.links, hevidence ▸ h.evidence⟩

structure Tracks (replica live : Fabric) : Prop where
  orderly : live.Orderly
  journaling : live.Journaling
  mirrors : Mirrors live replica

/-- What the call has journaled takes the replica to the new state. -/
def Advances (replica before after : Fabric) : Prop :=
  ∃ records, after.journaled = before.journaled ++ records ∧ Tracks (replica.replay records) after

section Advances
variable {replica live changed after : Fabric}

theorem Tracks.of_only (h : Tracks replica live) (honly : JournalRuns live after) : Tracks replica after :=
  ⟨h.orderly.of_only honly, h.journaling.of_only honly, ⟨h.mirrors.toAwaits.of_only honly, h.mirrors.drained⟩⟩

theorem Advances.counted (h : Advances replica live changed) (honly : JournalRuns changed after)
    (hjournaled : after.journaled = changed.journaled) : Advances replica live after := by
  obtain ⟨records, hrecords, htracks⟩ := h
  exact ⟨records, hjournaled.trans hrecords, htracks.of_only honly⟩

theorem Tracks.stays (h : Tracks replica live) : Advances replica live live :=
  ⟨[], (List.append_nil _).symm, h⟩

theorem advances_append {record : JournalRecord} (horderly : changed.Orderly)
    (hmirrors : Mirrors changed (replica.replayRecord record)) (hjournaling : live.Journaling)
    (htrail : Trail live [record] after) (honly : JournalRuns changed after) : Advances replica live after :=
  ⟨[record], htrail.enqueues.journaled, horderly.of_only honly, htrail.enqueues.journaling hjournaling,
    ⟨hmirrors.toAwaits.of_only honly, hmirrors.drained⟩⟩

end Advances

/-! ## Reading a record back -/

theorem replayRecord_of_ok {record : JournalRecord} (h : replica.applyRecord record = (.ok (), after)) :
    replica.replayRecord record = after := by
  unfold replayRecord
  rw [h]

theorem replay_cons (replica : Fabric) (record : JournalRecord) (rest : List JournalRecord) :
    replica.replay (record :: rest) = (replica.replayRecord record).replay rest := rfl

theorem Sound.maxItems (h : fabric.Sound) : fabric.codecLimits.maxItems < 2 ^ 32 := by
  have hchecked := h.checked
  rw [checkConfig, Outcome.check_bind_eq_ok] at hchecked
  have hlimits := hchecked.1
  simp only [FabricLimits.validate, Outcome.check_bind_eq_ok, requireBetween_eq_ok] at hlimits
  obtain ⟨-, -, -, -, -, -, -, -, -, -, hglobal, -, hbatch, -, hquery, -⟩ := hlimits
  show max (max _ _) _ < 2 ^ 32
  omega

theorem applyDecoded_encoded {α : Type} [Inhabited α] {codec : Codec α} {value : α} {body : Bytes}
    (apply : α → Fabric → Outcome Unit × Fabric) (hsound : live.Sound) (hconfig : replica.config = live.config)
    (hencode : codec.encodeBody live.codecLimits value = .ok body) (hvalid : codec.Valid value) :
    replica.applyDecoded codec body apply = apply value replica := by
  have hlimits : replica.codecLimits = live.codecLimits := by
    unfold codecLimits
    rw [hconfig]
  unfold applyDecoded
  rw [hlimits, codec.decodeBody_encodeBody hencode hvalid hsound.maxItems]

/-! ## The calls -/

/-- Entering the generation drops none from the list of its link. -/
def EvictsNothing (registry : LinkRegistry) (link : LinkIdentity) : Prop :=
  ∀ current ∈ registry.current[link.id]?, current < link.generation → registry.excess link = 0

/-- The record of the call can be written and read back, and the call is not a registration that evicts. -/
def Replayable (fabric : Fabric) : FabricCall × CallIo → Prop
  | (.declareCapability declaration, _) =>
    (∃ capabilities, fabric.capabilities.declare fabric.catalog declaration = .ok capabilities) →
      fabric.Encodes Codec.capabilityDeclaration declaration ∧ declaration.transport ≠ .count ∧
        declaration.evidenceClass ≠ .count
  | (.registerLink link _, _) => EvictsNothing fabric.links link
  | (.advanceLinkGeneration _ reason, _) => reason ≠ .count
  | (.publishPolicy document, io) =>
    fabric.policyChecks.validate document = .ok () →
      fabric.Encodes Codec.policyGenerationRecord (generationRecord document ⟨io.now.wallNanos, true⟩
        (fabric.policies.current.stamp.generation + 1))
  | (.ingest _, _) => True

section Calls
variable {replica live : Fabric}

theorem Mirrors.policyChecks (h : Mirrors live replica) : replica.policyChecks = live.policyChecks := by
  unfold Fabric.policyChecks
  rw [h.config, h.catalog]

theorem recoverRecord_published (h : Tracks replica live) {document : PolicyDocument}
    (hvalid : live.policyChecks.validate document = .ok ()) (publishedAt : Timestamp) :
    replica.policies.recoverRecord replica.policyChecks
        (generationRecord document publishedAt (live.policies.current.stamp.generation + 1)) =
      .ok (replica.policies.push
        (generationRecord document publishedAt (live.policies.current.stamp.generation + 1))) := by
  obtain ⟨dropped, hnumbered, -⟩ := h.orderly.published.numbered
  have hbounded := h.orderly.published.bounded
  have hcountable := h.orderly.countable
  have hlength := h.mirrors.policies.length
  have hnext := PolicyRegistry.NumberedFrom.current hnumbered
  have hreplica : PolicyRegistry.NumberedFrom (1 + UInt64.ofNat dropped) replica.policies.generations := by
    unfold PolicyRegistry.NumberedFrom at hnumbered ⊢
    rw [h.mirrors.policies.numbers, hnumbered, hlength]
  rw [h.mirrors.policyChecks]
  exact PolicyRegistry.recoverRecord_next hreplica (by omega) hvalid (by rw [hlength]; exact hnext)

variable {links : LinkRegistry} {link : LinkIdentity} {received : ReceiveStamp} {drained pending : Fabric}
  {observation : Observation} {outcome : IngestOutcome} {evidence : EvidenceStore} {body : Bytes} {fenced : Bool}
  {changed : Fabric}

theorem Orderly.drain (h : live.Orderly) (hlinks : links.WellFormed) (hlimits : links.limits = live.links.limits)
    (hkept : ∀ link ∈ live.links.links, link ∉ links.evicted → link ∈ links.links) :
    ({ live with links := links } : Fabric).drainEvicted.Orderly := by
  refine ⟨h.sound.drainEvicted hlinks, h.published, h.countable, hlimits.trans h.linkLimits, ?_, rfl, ?_⟩
  · show (links.evicted.foldl EvidenceStore.dropLink live.evidence).limits = _
    rw [EvidenceStore.dropLinks_limits]
    exact h.storeLimits
  · intro link hknows
    obtain ⟨hnot, hbefore⟩ := EvidenceStore.knows_of_dropLinks hknows
    exact hkept link (h.registered link hbefore) hnot

theorem reach_evicts_nothing {registry : LinkRegistry} (h : EvictsNothing registry link) (observedAt : Timestamp)
    (received : ReceiveStamp) : (registry.reach link observedAt received).evicted = registry.evicted := by
  unfold LinkRegistry.reach
  cases hcurrent : registry.current[link.id]? with
  | none => rfl
  | some current =>
    by_cases hlt : current < link.generation
    · simp only [hlt, if_true]
      show registry.evicted ++ (registry.listed link).take (registry.excess link) = registry.evicted
      rw [h current hcurrent hlt, List.take_zero, List.append_nil]
    · simp [hlt]

theorem linkObserved_awaits (h : Tracks replica live) {body : LinkObservedBody} {encoded : Bytes}
    (hencode : Codec.linkObservedBody.encodeBody live.codecLimits body = .ok encoded)
    (hobserve : live.links.observe body.link body.observedAt body.received = .ok links) (ordinal : UInt64) :
    Awaits ({ live with links := links } : Fabric).drainEvicted
        (replica.replayRecord ⟨.linkObserved, ordinal, encoded⟩) ∧
      (replica.replayRecord ⟨.linkObserved, ordinal, encoded⟩).links.evicted = links.evicted := by
  obtain ⟨other, hother, hsame⟩ := (h.mirrors.pending h.orderly.drained).observe hobserve
  have hreplayed : replica.replayRecord ⟨.linkObserved, ordinal, encoded⟩ = { replica with links := other } := by
    apply replayRecord_of_ok
    show replica.applyDecoded Codec.linkObservedBody encoded applyLinkObserved = _
    rw [applyDecoded_encoded applyLinkObserved h.orderly.sound h.mirrors.config hencode
      (Codec.linkObservedBody_valid _), applyLinkObserved, hother]
  rw [hreplayed]
  refine ⟨⟨h.mirrors.config, h.mirrors.catalog, h.mirrors.capabilities, h.mirrors.policies,
    { hsame with }, ?_⟩, hsame.evicted⟩
  show EvidenceStore.Same (links.evicted.foldl EvidenceStore.dropLink live.evidence)
    (other.evicted.foldl EvidenceStore.dropLink replica.evidence)
  rw [hsame.evicted]
  exact h.mirrors.store.dropLinks _

variable {io : CallIo} {call : FabricCall} {result : Outcome IngestOutcome × Fabric}

theorem Plans.replays (h : Tracks replica live) {kind : JournalRecordKind}
    (hplan : Plans live io call changed kind (.ok body)) (hcondition : live.Replayable (call, io)) :
    changed.Orderly ∧ Mirrors changed (replica.replayRecord ⟨kind, live.nextOrdinal, body⟩) := by
  cases hplan with
  | @declare declaration capabilities _ hdeclare hbody =>
    obtain ⟨-, htransport, hclass⟩ := hcondition ⟨capabilities, hdeclare⟩
    have hvalid := Codec.capabilityDeclaration_valid (CapabilityRegistry.declare_eq_ok hdeclare).1 htransport hclass
    have hreplayed : replica.replayRecord ⟨.capability, live.nextOrdinal, body⟩ =
        { replica with capabilities := capabilities } := by
      apply replayRecord_of_ok
      show replica.applyDecoded Codec.capabilityDeclaration body applyCapability = _
      rw [applyDecoded_encoded applyCapability h.orderly.sound h.mirrors.config hbody hvalid, applyCapability,
        h.mirrors.capabilities, h.mirrors.catalog, hdeclare]
    rw [hreplayed]
    exact ⟨⟨h.orderly.sound.same rfl rfl rfl, h.orderly.published, h.orderly.countable, h.orderly.linkLimits,
      h.orderly.storeLimits, h.orderly.drained, h.orderly.registered⟩, ⟨h.mirrors.config, h.mirrors.catalog, rfl,
      h.mirrors.policies, h.mirrors.links, h.mirrors.evidence⟩, h.mirrors.drained⟩
  | @register link observedAt _ links hplan =>
    obtain ⟨hbody, hobserve⟩ := planRegistration_eq_ok.mp hplan
    have hevicted : links.evicted = [] := by
      obtain ⟨-, -, rfl⟩ := LinkRegistry.observe_eq_ok.mp hobserve
      exact (reach_evicts_nothing hcondition _ _).trans h.orderly.drained
    obtain ⟨hawaits, hpending⟩ := linkObserved_awaits h hbody hobserve live.nextOrdinal
    have hdrained := h.orderly.drain (h.orderly.sound.links.observe hobserve) (LinkRegistry.observe_limits hobserve)
      (fun key hkey hkept => LinkRegistry.mem_of_observe hobserve (.inl ⟨hkey, hkept⟩))
    exact ⟨hdrained.of_only (tally_only _ _), hawaits.of_only (tally_only _ _), hpending.trans hevicted⟩
  | @advance link reason _ links hplan =>
    obtain ⟨hbody, hadvance⟩ := planAdvance_eq_ok.mp hplan
    obtain ⟨other, hother, hsame⟩ := (h.mirrors.pending h.orderly.drained).advanceGeneration hadvance
    have hdrained := h.orderly.drain (h.orderly.sound.links.advanceGeneration hadvance)
      (LinkRegistry.advanceGeneration_limits hadvance)
      (fun key hkey hkept => LinkRegistry.mem_of_advanceGeneration hadvance hkey hkept)
    have hreplayed : replica.replayRecord ⟨.linkGenerationAdvanced, live.nextOrdinal, body⟩ =
        ({ replica with links := other } : Fabric).drainEvicted := by
      apply replayRecord_of_ok
      show replica.applyDecoded Codec.generationBody body applyGeneration = _
      rw [applyDecoded_encoded applyGeneration h.orderly.sound h.mirrors.config hbody
        (Codec.generationBody_valid hcondition), applyGeneration, hother]
    rw [hreplayed]
    refine ⟨hdrained.of_only (tally_only _ _), ⟨h.mirrors.config, h.mirrors.catalog, h.mirrors.capabilities,
      h.mirrors.policies, { hsame with }, ?_⟩, rfl⟩
    show EvidenceStore.Same (links.evicted.foldl EvidenceStore.dropLink live.evidence)
      (other.evicted.foldl EvidenceStore.dropLink replica.evidence)
    rw [hsame.evicted]
    exact h.mirrors.store.dropLinks _
  | @publish document _ _ hpublish hbody =>
    obtain ⟨hvalid, rfl⟩ := PolicyRegistry.publish_eq_ok.mp hpublish
    have hreplayed : replica.replayRecord ⟨.policy, live.nextOrdinal, body⟩ =
        { replica with policies := replica.policies.push (generationRecord document
          ⟨io.now.wallNanos, true⟩ (live.policies.current.stamp.generation + 1)) } := by
      apply replayRecord_of_ok
      show replica.applyDecoded Codec.policyGenerationRecord body applyPolicy = _
      rw [applyDecoded_encoded applyPolicy h.orderly.sound h.mirrors.config hbody
        (Codec.policyGenerationRecord_valid hvalid), applyPolicy, recoverRecord_published h hvalid]
    rw [hreplayed]
    exact ⟨⟨h.orderly.sound.same rfl rfl rfl, h.orderly.published.push hvalid _, h.orderly.countable,
      h.orderly.linkLimits, h.orderly.storeLimits, h.orderly.drained, h.orderly.registered⟩, ⟨h.mirrors.config,
      h.mirrors.catalog, h.mirrors.capabilities, h.mirrors.policies.push _, h.mirrors.links, h.mirrors.evidence⟩,
      h.mirrors.drained⟩

theorem Ends.advances (h : Tracks replica live) {result : Outcome FabricReply × Fabric}
    (hends : Ends live io call result) (hsteady : Steady live result.2) (hcondition : live.Replayable (call, io)) :
    Advances replica live result.2 := by
  cases hends with
  | kept stats degraded _ => exact h.stays.counted (.same ⟨rfl, rfl, rfl, rfl, rfl, rfl⟩ rfl) rfl
  | unencoded _ hplan =>
    cases hplan with
    | declare hdeclare hbody =>
      obtain ⟨⟨body, hencodes⟩, -⟩ := hcondition ⟨_, hdeclare⟩
      cases hbody.symm.trans hencodes
    | publish hpublish hbody =>
      obtain ⟨hvalid, rfl⟩ := PolicyRegistry.publish_eq_ok.mp hpublish
      obtain ⟨body, hencodes⟩ := hcondition hvalid
      cases hbody.symm.trans hencodes
  | @appended changed kind body _ _ _ hplan hstats _ =>
    obtain ⟨horderly, hmirrors⟩ := hplan.replays h hcondition
    have hsame := hplan.sameJournal
    have hquiet : Steady live changed := by cases hplan <;> rfl
    have happends := journalAppend_appends io.record kind body (hsame.journaling h.journaling) (by cases hplan <;> decide)
    have honly := changed.journalAppend_only io.record kind body
    have hkept : Steady changed (changed.journalAppend io.record kind body).2 :=
      hstats.symm.trans (hsteady.trans hquiet.symm)
    generalize changed.journalAppend io.record kind body = appended at happends honly hkept ⊢
    cases happends with
    | taken htrail _ =>
      rw [hsame.ordinal] at htrail
      have happend := advances_append horderly hmirrors h.journaling (.after_beside hsame htrail) honly
      exact happend.counted (.same ⟨rfl, rfl, rfl, rfl, rfl, rfl⟩ rfl) rfl
    | refused status _ _ hcounted => exact absurd hkept hcounted

theorem Orderly.stored (h : live.Orderly) (observation : Observation) (received : ReceiveStamp) (ordinal : UInt64)
    (origin : EvidenceOrigin) (config : CounterContinuityConfig) (hlink : observation.link ∈ live.links.links) :
    ({ live with evidence := (live.evidence.append observation received ordinal origin config).2 } : Fabric).Orderly := by
  refine ⟨h.sound.same rfl rfl rfl, h.published, h.countable, h.linkLimits, ?_, h.drained, ?_⟩
  · exact (EvidenceStore.append_limits ..).trans h.storeLimits
  · intro link hknows
    rcases EvidenceStore.knows_of_append hknows with hbefore | rfl
    · exact h.registered link hbefore
    · exact hlink

section
variable (horderly : drained.Orderly) (hawaits : Awaits drained pending)
  (hvalid : validateObservation observation (drained.catalog.find observation.metric) drained.observationLimits = .ok ())
  (hlink : observation.link ∈ drained.links.links) (hkept : observation.link ∉ pending.links.evicted)
  (hstored : drained.evidence.append observation received drained.nextOrdinal .live
    (counterConfigFor drained.policies.current.document observation.metric) = (.ok outcome, evidence))
  (hbody : Codec.evidenceRecord.encodeBody drained.codecLimits
    ⟨observation, received, drained.nextOrdinal, .live⟩ = .ok body)
include horderly hawaits hvalid hlink hkept hstored hbody

theorem replayed_evidence (ordinal : UInt64) :
    Mirrors { drained with evidence := evidence } (pending.replayRecord ⟨.evidence, ordinal, body⟩) := by
  have hpolicy : pending.policies.current.document = drained.policies.current.document :=
    congrArg Prod.snd hawaits.policies.current
  have hcheck : validateObservation observation (pending.catalog.find observation.metric) pending.observationLimits =
      .ok () := by
    unfold observationLimits
    rw [hawaits.catalog, hawaits.config]
    exact hvalid
  have hwellFormed := hawaits.links.wellFormed horderly.sound.links
  have hmem : observation.link ∈ pending.links.links := by
    rw [LinkRegistry.mem_links_iff, hawaits.links.marks, ← LinkRegistry.mem_links_iff]
    exact hlink
  obtain ⟨links, hobserve, hnoted⟩ := hwellFormed.observe_of_mem (validateObservation_spec hvalid).1 hmem
    observation.observedAt received
  obtain ⟨hanswer, hsame⟩ := hawaits.evidence.append observation received drained.nextOrdinal .live .recovered
    (counterConfigFor drained.policies.current.document observation.metric)
  obtain ⟨hanswer', hsame'⟩ := pending.evidence.append_dropLinks observation received drained.nextOrdinal .recovered
    (counterConfigFor drained.policies.current.document observation.metric) hkept
  rw [hstored] at hanswer hsame
  have hok := hanswer'.symm.trans hanswer
  have hreplayed : pending.replayRecord ⟨.evidence, ordinal, body⟩ =
      ({ pending with
          evidence := (pending.evidence.append observation received drained.nextOrdinal .recovered
            (counterConfigFor drained.policies.current.document observation.metric)).2
          links := links } : Fabric).drainEvicted.countRecovered := by
    apply replayRecord_of_ok
    show pending.applyDecoded Codec.evidenceRecord body applyEvidence = _
    rw [applyDecoded_encoded applyEvidence horderly.sound hawaits.config hbody
      (Codec.evidenceRecord_valid hvalid (fun horigin => nomatch horigin)), applyEvidence, hcheck]
    dsimp only
    rw [storeRecovered, hpolicy]
    cases hresult : pending.evidence.append observation received drained.nextOrdinal .recovered
      (counterConfigFor drained.policies.current.document observation.metric) with
    | mk answer store =>
      rw [hresult] at hok
      obtain rfl : answer = .ok outcome := hok
      dsimp only
      rw [noteRecovered]
      dsimp only
      rw [hobserve]
  rw [hreplayed]
  refine ⟨⟨hawaits.config, hawaits.catalog, hawaits.capabilities, hawaits.policies, ?_, ?_⟩, rfl⟩
  · have hlinks := hawaits.links.trans hnoted.toSame
    exact { hlinks with }
  · show EvidenceStore.Same evidence (links.evicted.foldl EvidenceStore.dropLink _)
    rw [hnoted.evicted]
    exact hsame.trans hsame'

theorem stored_advances (hjournaling : drained.Journaling) (io : CallIo)
    (honly : JournalRuns { drained with evidence := evidence } after)
    (htrail : Trail drained [⟨.evidence, drained.nextOrdinal, body⟩] after) :
    Advances pending drained (after.answerStored io outcome fenced).2 := by
  have hafter := horderly.stored observation received drained.nextOrdinal .live
    (counterConfigFor drained.policies.current.document observation.metric) hlink
  rw [hstored] at hafter
  have hmirrors := replayed_evidence horderly hawaits hvalid hlink hkept hstored hbody drained.nextOrdinal
  have hadvances := advances_append hafter hmirrors hjournaling htrail honly
  exact hadvances.counted ((after.tally_only _).trans (maybeCompact_only _ _))
    ((after.tally (countOutcome outcome)).maybeCompact_journaled io.compaction).1

end

theorem Orderly.observed (h : live.Orderly) {observedAt : Timestamp}
    (hobserve : live.links.observe link observedAt received = .ok links) : (live.observed links).Orderly := by
  have hdrained := h.drain (h.sound.links.observe hobserve) (LinkRegistry.observe_limits hobserve)
    (fun key hkey hkept => LinkRegistry.mem_of_observe hobserve (.inl ⟨hkey, hkept⟩))
  exact hdrained.of_only (tally_only _ _)

section
variable (h : Tracks replica live)
  (hvalid : validateObservation observation (live.catalog.find observation.metric) live.observationLimits = .ok ())
  (hobserve : live.links.observe observation.link observation.observedAt received = .ok links)
include h hvalid hobserve

theorem ingest_registered_advances (hmem : observation.link ∈ live.links.links)
    (hsettles : Settles (live.observed links) io observation received fenced result)
    (hsteady : Steady live result.2) : Advances replica live result.2 := by
  obtain ⟨noted, hnoted, hsame⟩ := h.orderly.sound.links.observe_of_mem (validateObservation_spec hvalid).1 hmem
    observation.observedAt received
  obtain rfl : links = noted := Except.ok.inj (hobserve.symm.trans hnoted)
  have hevicted : links.evicted = [] := hsame.evicted.trans h.orderly.drained
  have horderly := h.orderly.observed hobserve
  have hevidence : (live.observed links).evidence = live.evidence := by
    show links.evicted.foldl EvidenceStore.dropLink live.evidence = live.evidence
    rw [hevicted]
    rfl
  have hlinks := hsame.toSame.symm.trans h.mirrors.links
  have hawaits : Awaits (live.observed links) replica := by
    refine ⟨h.mirrors.config, h.mirrors.catalog, h.mirrors.capabilities, h.mirrors.policies,
      { hlinks with }, ?_⟩
    rw [hevidence]
    exact h.mirrors.evidence
  have hlinked : observation.link ∈ links.links := LinkRegistry.mem_of_observe hobserve (.inr rfl)
  have hregistered : observation.link ∈ (live.observed links).links.links := hlinked
  cases hsettles with
  | @refused status evidence hstored =>
    have hkept := EvidenceStore.same_of_append_error (congrArg Prod.fst hstored)
    have hafter := horderly.stored observation received (live.observed links).nextOrdinal .live
      (counterConfigFor (live.observed links).policies.current.document observation.metric) hregistered
    rw [hstored] at hkept hafter
    have htracks : Tracks replica { live.observed links with evidence := evidence } :=
      ⟨hafter, h.journaling, { hawaits with evidence := hkept.symm.trans hawaits.evidence }, h.mirrors.drained⟩
    have hadvances : Advances replica live { live.observed links with evidence := evidence } :=
      ⟨[], (List.append_nil _).symm, htracks⟩
    exact hadvances.counted (.same ⟨rfl, rfl, rfl, rfl, rfl, rfl⟩ rfl) rfl
  | taken hstored hbody _ honly htrail =>
    exact stored_advances horderly hawaits hvalid hregistered (by rw [h.mirrors.drained]; exact List.not_mem_nil)
      hstored hbody h.journaling io honly htrail
  | lost _ _ _ hcounted => exact absurd hsteady hcounted

theorem ingest_new_advances (hnew : observation.link ∉ live.links.links)
    (hbody : Codec.linkObservedBody.encodeBody live.codecLimits ⟨observation.link, observation.observedAt, received⟩ =
      .ok body) (honly : JournalRuns (live.observed links) after)
    (htrail : Trail live [⟨.linkObserved, live.nextOrdinal, body⟩] after)
    (hsettles : Settles after io observation received fenced result) (hsteady : Steady after result.2) :
    Advances replica live result.2 := by
  have hafter := (h.orderly.observed hobserve).of_only honly
  have hevidence : after.evidence = (live.observed links).evidence := congrArg FabricState.evidence honly.state
  have hlinks : after.links = (live.observed links).links := congrArg FabricState.links honly.state
  have hnoted : observation.link ∈ links.links := LinkRegistry.mem_of_observe hobserve (.inr rfl)
  have hlinked : observation.link ∈ after.links.links := by
    rw [hlinks]
    exact hnoted
  have hkept : observation.link ∉ links.evicted := by
    obtain ⟨-, -, rfl⟩ := LinkRegistry.observe_eq_ok.mp hobserve
    exact h.orderly.sound.links.reach_evicted observation.link _ _
      (by rw [h.orderly.linkLimits]; exact h.orderly.sound.limits.generationsPerLink) h.orderly.drained
  cases hsettles with
  | refused hstored =>
    have hunknown : ¬ after.evidence.Knows observation.link := by
      rw [hevidence]
      intro hknows
      exact hnew (h.orderly.registered _ (EvidenceStore.knows_of_dropLinks hknows).2)
    obtain ⟨outcome, houtcome⟩ := (after.evidence.append_ok_iff observation received after.nextOrdinal .live
      (counterConfigFor after.policies.current.document observation.metric)).mpr
      (EvidenceStore.answers_of_not_knows hunknown
        (by rw [hafter.storeLimits]; exact hafter.sound.limits.streamsPerLink))
    rw [hstored] at houtcome
    cases houtcome
  | lost _ _ _ hcounted => exact absurd hsteady hcounted
  | taken hstored hbody' _ honly' htrail' =>
    have hvalid' : validateObservation observation (after.catalog.find observation.metric) after.observationLimits =
        .ok () := by
      unfold observationLimits
      rw [honly.catalog, honly.config]
      exact hvalid
    obtain ⟨hawaits, hpending⟩ := linkObserved_awaits h hbody hobserve live.nextOrdinal
    obtain ⟨records, hrecords, htracks⟩ := stored_advances hafter
      ((hawaits.of_only (tally_only _ _)).of_only honly) hvalid' hlinked (by rw [hpending]; exact hkept) hstored hbody'
      (htrail.enqueues.journaling h.journaling) io honly' htrail'
    refine ⟨⟨.linkObserved, live.nextOrdinal, body⟩ :: records, ?_, ?_⟩
    · rw [hrecords, htrail.enqueues.journaled, List.append_assoc]
      rfl
    · rw [replay_cons]
      exact htracks

end

theorem ingest_advances (h : Tracks replica live) (io : CallIo) (observation : Observation)
    (hsteady : Steady live (live.ingestLocked io observation).2) :
    Advances replica live (live.ingestLocked io observation).2 := by
  have hoffers := ingestLocked_offers io h.orderly.sound h.journaling observation
  generalize live.ingestLocked io observation = result at hsteady hoffers ⊢
  cases hoffers with
  | kept status stats => exact h.stays.counted (.same ⟨rfl, rfl, rfl, rfl, rfl, rfl⟩ rfl) rfl
  | unlinked status _ hcounted => exact absurd hsteady hcounted
  | @linked links linked _ hcheck hobserve hpart htrail hquiet hsettles =>
    have hvalid := checkObservation_valid hcheck
    rcases hpart with ⟨hcontains, rfl⟩ | ⟨hcontains, body, hbody, rfl⟩
    · rw [show live.entered io observation links = live.observed links from if_pos hcontains] at hsettles
      exact ingest_registered_advances h hvalid hobserve (LinkRegistry.contains_iff.mp hcontains) hsettles hsteady
    · refine ingest_new_advances h hvalid hobserve (fun hmem => ?_) hbody (live.entered_only io observation links)
        htrail hsettles (hsteady.trans hquiet.symm)
      rw [LinkRegistry.contains_iff.mpr hmem] at hcontains
      cases hcontains

end Calls

end Fabric

end Lqf
