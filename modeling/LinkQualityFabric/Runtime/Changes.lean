import LinkQualityFabric.Runtime.JournalCalls

/-! What the operations of a fabric do to its registries, as a chain of elementary changes.

Every call and every replayed record changes the registries by a few changes with known arguments. A call is
permitted under a predicate of changes when each change it makes satisfies the predicate; a fabric that went through
permitted calls and records only has registries that went through such changes only. -/
namespace Lqf
open Foundations Relation
set_option autoImplicit false

inductive Change where
  | declare (declaration : CapabilityDeclaration)
  | publish (record : PolicyGenerationRecord)
  | restore (record : PolicyGenerationRecord)
  | observe (link : LinkIdentity) (observedAt : Timestamp) (received : ReceiveStamp)
  | advance (link : LinkIdentity) (at_ : Timestamp) (received : ReceiveStamp)
  | drain
  | append (observation : Observation) (received : ReceiveStamp) (ordinal : UInt64) (origin : EvidenceOrigin)
  | seed (key : StreamKey) (entries : List (UInt64 × UInt64))
  deriving DecidableEq, Repr

namespace FabricState

inductive Changed (config : FabricConfig) (catalog : MetricCatalog) : Change → FabricState → FabricState → Prop
  | declare {state : FabricState} {declaration : CapabilityDeclaration} {capabilities : CapabilityRegistry}
      (h : state.capabilities.declare catalog declaration = .ok capabilities) :
      Changed config catalog (.declare declaration) state { state with capabilities := capabilities }
  | publish {state : FabricState} {document : PolicyDocument} {publishedAt : Timestamp}
      {result : PolicyGenerationRecord × PolicyRegistry}
      (h : state.policies.publish ⟨catalog, config.limits.maxPolicyRules, config.limits.maxBandsPerRule⟩ document
        publishedAt = .ok result) :
      Changed config catalog (.publish result.1) state { state with policies := result.2 }
  | restore {state : FabricState} {record : PolicyGenerationRecord} {policies : PolicyRegistry}
      (h : state.policies.recoverRecord ⟨catalog, config.limits.maxPolicyRules, config.limits.maxBandsPerRule⟩
        record = .ok policies) : Changed config catalog (.restore record) state { state with policies := policies }
  | observe {state : FabricState} {link : LinkIdentity} {observedAt : Timestamp} {received : ReceiveStamp}
      {links : LinkRegistry} (h : state.links.observe link observedAt received = .ok links) :
      Changed config catalog (.observe link observedAt received) state { state with links := links }
  | advance {state : FabricState} {link : LinkIdentity} {at_ : Timestamp} {received : ReceiveStamp}
      {links : LinkRegistry} (h : state.links.advanceGeneration link at_ received = .ok links) :
      Changed config catalog (.advance link at_ received) state { state with links := links }
  | drain (state : FabricState) : Changed config catalog .drain state state.drain
  | append {state : FabricState} {observation : Observation}
      (h : validateObservation observation (catalog.find observation.metric)
        (CapabilityRegistry.observationLimits config.limits) = .ok ())
      (received : ReceiveStamp) (ordinal : UInt64) (origin : EvidenceOrigin) :
      Changed config catalog (.append observation received ordinal origin) state { state with evidence :=
        (state.evidence.append observation received ordinal origin
          (counterConfigFor state.policies.current.document observation.metric)).2 }
  | seed (state : FabricState) (key : StreamKey) (entries : List (UInt64 × UInt64)) :
      Changed config catalog (.seed key entries) state
        { state with evidence := (state.evidence.seedDedupWindow key entries).2 }

def StepBy (config : FabricConfig) (catalog : MetricCatalog) (allowed : Change → Prop) (before after : FabricState) :
    Prop :=
  ∃ change, allowed change ∧ Changed config catalog change before after

abbrev StepsBy (config : FabricConfig) (catalog : MetricCatalog) (allowed : Change → Prop) :
    FabricState → FabricState → Prop :=
  ReflTransGen (StepBy config catalog allowed)

theorem StepsBy.invariant {config : FabricConfig} {catalog : MetricCatalog} {allowed : Change → Prop}
    {P : FabricState → Prop}
    (hstep : ∀ change before after, allowed change → P before → Changed config catalog change before after → P after)
    {before after : FabricState} (hbefore : P before) (h : StepsBy config catalog allowed before after) : P after := by
  induction h with
  | refl => exact hbefore
  | tail _ hlast ih =>
    obtain ⟨change, hallowed, hchanged⟩ := hlast
    exact hstep change _ _ hallowed ih hchanged

end FabricState

namespace Fabric
open FabricState

section Plans
variable {fabric : Fabric} {link : LinkIdentity} {observedAt : Timestamp} {received : ReceiveStamp} {body : Bytes}
  {links : LinkRegistry}

theorem plan_eq_ok {encoded : Outcome Bytes} {reached : Outcome LinkRegistry} :
    (do let body ← encoded; let links ← reached; return (body, links)) = .ok (body, links) ↔
      encoded = .ok body ∧ reached = .ok links := by
  simp only [Outcome.bind_eq_ok]
  constructor
  · rintro ⟨body', hbody, links', hlinks, hresult⟩
    obtain ⟨rfl, rfl⟩ := Prod.mk.inj (Except.ok.inj hresult)
    exact ⟨hbody, hlinks⟩
  · rintro ⟨hbody, hlinks⟩
    exact ⟨body, hbody, links, hlinks, rfl⟩

theorem planRegistration_eq_ok : fabric.planRegistration link observedAt received = .ok (body, links) ↔
      Codec.linkObservedBody.encodeBody fabric.codecLimits ⟨link, observedAt, received⟩ = .ok body ∧
        fabric.links.observe link observedAt received = .ok links := plan_eq_ok

theorem planAdvance_eq_ok {reason : ReasonCode} {now : ClockReading} :
    fabric.planAdvance link reason now = .ok (body, links) ↔ Codec.generationBody.encodeBody fabric.codecLimits
          ⟨link.id, link.generation, ⟨now.wallNanos, true⟩, fabric.receiveStamp now, reason⟩ = .ok body ∧
        fabric.links.advanceGeneration link ⟨now.wallNanos, true⟩ (fabric.receiveStamp now) = .ok links := plan_eq_ok

theorem checkObservation_valid {now : ClockReading} {observation : Observation} {u : Unit}
    (h : fabric.checkObservation now observation = .ok u) :
    validateObservation observation (fabric.catalog.find observation.metric) fabric.observationLimits = .ok () := by
  simp only [checkObservation, Outcome.check_bind_eq_ok] at h
  exact h.2.1

end Plans

/-! ## The exits of a locked call -/

/-- Where a call other than an ingest leads, and the record it offers to the journal, if the record can be encoded. -/
inductive Plans (fabric : Fabric) (io : CallIo) : FabricCall → Fabric → JournalRecordKind → Outcome Bytes → Prop
  | declare {declaration : CapabilityDeclaration} {capabilities : CapabilityRegistry} {encoded : Outcome Bytes}
      (h : fabric.capabilities.declare fabric.catalog declaration = .ok capabilities)
      (hbody : Codec.capabilityDeclaration.encodeBody fabric.codecLimits declaration = encoded) :
      Plans fabric io (.declareCapability declaration) { fabric with capabilities := capabilities } .capability encoded
  | register {link : LinkIdentity} {observedAt : Timestamp} {body : Bytes} {links : LinkRegistry}
      (h : fabric.planRegistration link observedAt (fabric.receiveStamp io.now) = .ok (body, links)) :
      Plans fabric io (.registerLink link observedAt) (fabric.registered links) .linkObserved (.ok body)
  | advance {link : LinkIdentity} {reason : ReasonCode} {body : Bytes} {links : LinkRegistry}
      (h : fabric.planAdvance link reason io.now = .ok (body, links)) :
      Plans fabric io (.advanceLinkGeneration link reason) (fabric.advanced links) .linkGenerationAdvanced (.ok body)
  | publish {document : PolicyDocument} {result : PolicyGenerationRecord × PolicyRegistry} {encoded : Outcome Bytes}
      (h : fabric.policies.publish fabric.policyChecks document ⟨io.now.wallNanos, true⟩ = .ok result)
      (hbody : Codec.policyGenerationRecord.encodeBody fabric.codecLimits result.1 = encoded) :
      Plans fabric io (.publishPolicy document) { fabric with policies := result.2 } .policy encoded

structure SameJournal (before after : Fabric) : Prop where
  journal : after.journal = before.journal
  journaled : after.journaled = before.journaled
  ordinal : after.nextOrdinal = before.nextOrdinal
  since : after.recordsSinceCompaction = before.recordsSinceCompaction
  config : after.config = before.config

theorem Plans.sameJournal {fabric changed : Fabric} {io : CallIo} {call : FabricCall} {kind : JournalRecordKind}
    {encoded : Outcome Bytes} (h : Plans fabric io call changed kind encoded) : SameJournal fabric changed := by
  cases h <;> exact ⟨rfl, rfl, rfl, rfl, rfl⟩

/-- How a call other than an ingest ends: in front of the registries, between them and the journal, or behind the
journal. The answer says what the journal did for links only. -/
inductive Ends (fabric : Fabric) (io : CallIo) (call : FabricCall) : Outcome FabricReply × Fabric → Prop
  | kept {answer : Outcome FabricReply} (stats : FabricStats) (degraded : Bool)
      (hrefused : ∀ document, call = .publishPolicy document → ∃ status, answer = .error status) :
      Ends fabric io call (answer, { fabric with stats := stats, persistenceDegraded := degraded })
  | unencoded {changed : Fabric} {kind : JournalRecordKind} {status : Status} (hroom : fabric.queueFull = false)
      (hplan : Plans fabric io call changed kind (.error status)) : Ends fabric io call (.error status, changed)
  | appended {changed : Fabric} {kind : JournalRecordKind} {body : Bytes} {answer : Outcome FabricReply}
      {stats : FabricStats} (hroom : fabric.queueFull = false) (hplan : Plans fabric io call changed kind (.ok body))
      (hstats : stats.journalRejections = (changed.journalAppend io.record kind body).2.stats.journalRejections)
      (htold : kind = .capability ∨ kind = .policy ∨
        answer = (changed.journalAppend io.record kind body).1.map fun _ => .done) :
      Ends fabric io call (answer, { (changed.journalAppend io.record kind body).2 with stats := stats })

variable (fabric : Fabric) (io : CallIo) (observation : Observation)

theorem respondLocked_ends (call : FabricCall) (io : CallIo) (hcall : ∀ observation, call ≠ .ingest observation) :
    Ends fabric io call (fabric.respondLocked (call, io)) := by
  have hroom : ¬ fabric.queueFull = true → fabric.queueFull = false := Bool.eq_false_iff.mpr
  cases call with
  | declareCapability declaration =>
    show Ends fabric io _ (replyWith .acknowledged (fabric.declareLocked io declaration))
    unfold declareLocked
    split
    · exact .kept _ _ nofun
    · next hfull =>
      split
      · split <;> exact .kept _ _ nofun
      · next hdeclare =>
        unfold journalDeclaration
        split
        · next hbody => exact .unencoded (hroom hfull) (.declare hdeclare hbody)
        · next hbody => exact .appended (hroom hfull) (.declare hdeclare hbody) rfl (.inl rfl)
  | registerLink link observedAt =>
    show Ends fabric io _ (replyWith (fun _ => .done) (fabric.registerLocked io link observedAt))
    unfold registerLocked
    split
    · exact .kept _ _ nofun
    · split
      · exact .kept _ _ nofun
      · next hfull =>
        split
        · exact .kept _ _ nofun
        · next hplan => exact .appended (hroom hfull) (.register hplan) rfl (.inr (.inr rfl))
  | advanceLinkGeneration link reason =>
    show Ends fabric io _ (replyWith (fun _ => .done) (fabric.advanceLocked io link reason))
    unfold advanceLocked
    split
    · exact .kept _ _ nofun
    · next hfull =>
      split
      · exact .kept _ _ nofun
      · next hplan => exact .appended (hroom hfull) (.advance hplan) rfl (.inr (.inr rfl))
  | publishPolicy document =>
    show Ends fabric io _ (replyWith .published (fabric.publishLocked io document))
    unfold publishLocked
    split
    · exact .kept _ _ fun _ _ => ⟨_, rfl⟩
    · next hfull =>
      split
      · exact .kept _ _ fun _ _ => ⟨_, rfl⟩
      · next hpublish =>
        unfold journalPolicy
        split
        · next hbody => exact .unencoded (hroom hfull) (.publish hpublish hbody)
        · next hbody => exact .appended (hroom hfull) (.publish hpublish hbody) rfl (.inr (.inl rfl))
  | ingest observation => exact absurd rfl (hcall observation)

def entered (io : CallIo) (observation : Observation) (links : LinkRegistry) (fabric : Fabric) : Fabric :=
  if fabric.links.contains observation.link then fabric.observed links
  else ((fabric.observed links).journalNewLink io
    ⟨observation.link, observation.observedAt, fabric.receiveStamp io.now⟩).2

/-- How an ingest ends: in front of the registries, at the record of its link, or at the store. -/
inductive IngestEnds (fabric : Fabric) (io : CallIo) (observation : Observation) : Outcome IngestOutcome × Fabric → Prop
  | kept (status : Status) (stats : FabricStats) :
      IngestEnds fabric io observation (.error status, { fabric with stats := stats })
  | unlinked {links : LinkRegistry} (hcheck : fabric.checkObservation io.now observation = .ok ())
      (hobserve : fabric.links.observe observation.link observation.observedAt (fabric.receiveStamp io.now) = .ok links)
      (status : Status) :
      IngestEnds fabric io observation (.error status, (fabric.entered io observation links).rejectObservation)
  | stored {links : LinkRegistry} (hcheck : fabric.checkObservation io.now observation = .ok ())
      (hobserve : fabric.links.observe observation.link observation.observedAt (fabric.receiveStamp io.now) = .ok links) :
      IngestEnds fabric io observation ((fabric.entered io observation links).storeEvidence io observation
        (fabric.receiveStamp io.now) (fabric.fences observation.link))

theorem ingestLocked_ends : IngestEnds fabric io observation (fabric.ingestLocked io observation) := by
  unfold ingestLocked
  split
  · exact .kept _ _
  · next hcheck =>
    split
    · exact .kept _ _
    · unfold ingestChecked
      split
      · exact .kept _ _
      · next links hobserve =>
        have hstored := IngestEnds.stored hcheck hobserve
        have hunlinked := IngestEnds.unlinked hcheck hobserve
        unfold entered at hstored hunlinked
        split
        · next hcontains =>
          rw [if_pos hcontains] at hstored
          exact hstored
        · next hcontains =>
          rw [if_neg hcontains] at hstored hunlinked
          unfold ingestNewLink
          split
          · next status _ hlink =>
            rw [hlink] at hunlinked
            exact hunlinked status
          · next hlink =>
            rw [hlink] at hstored
            exact hstored

theorem journalNewLink_only (body : LinkObservedBody) : JournalRuns fabric (fabric.journalNewLink io body).2 := by
  unfold journalNewLink
  split
  · exact .refl fabric
  · next encoded _ =>
    have honly := fabric.journalAppend_only io.link .linkObserved encoded
    split
    · next hresult =>
      rw [hresult] at honly
      exact honly
    · next hresult =>
      rw [hresult] at honly
      split <;> exact honly

theorem entered_only (links : LinkRegistry) :
    JournalRuns (fabric.observed links) (fabric.entered io observation links) := by
  unfold entered
  split
  · exact .refl _
  · exact journalNewLink_only _ _ _

structure MovesBy (allowed : Change → Prop) (before after : Fabric) : Prop where
  steps : StepsBy before.config before.catalog allowed before.toFabricState after.toFabricState
  config : after.config = before.config
  catalog : after.catalog = before.catalog
  epoch : after.epoch = before.epoch

structure RunsBy (allowed : Change → Prop) (before after : Fabric) : Prop extends MovesBy allowed before after where
  unrefused : (∀ journal ∈ before.journal, journal.Unrefused) → ∀ journal ∈ after.journal, journal.Unrefused

def Permits (allowed : Change → Prop) (fabric : Fabric) : FabricCall × CallIo → Prop
  | (.declareCapability declaration, _) =>
    ∀ capabilities, fabric.queueFull = false → fabric.capabilities.declare fabric.catalog declaration = .ok capabilities →
      allowed (.declare declaration)
  | (.registerLink link observedAt, io) =>
    ∀ plan, fabric.planRegistration link observedAt (fabric.receiveStamp io.now) = .ok plan →
      allowed (.observe link observedAt (fabric.receiveStamp io.now))
  | (.advanceLinkGeneration link reason, io) =>
    ∀ plan, fabric.planAdvance link reason io.now = .ok plan →
      allowed (.advance link ⟨io.now.wallNanos, true⟩ (fabric.receiveStamp io.now))
  | (.publishPolicy document, io) =>
    ∀ result, fabric.queueFull = false →
      fabric.policies.publish fabric.policyChecks document ⟨io.now.wallNanos, true⟩ = .ok result →
      allowed (.publish result.1)
  | (.ingest observation, io) =>
    fabric.checkObservation io.now observation = .ok () →
      allowed (.observe observation.link observation.observedAt (fabric.receiveStamp io.now)) ∧
        ∀ ordinal, allowed (.append observation (fabric.receiveStamp io.now) ordinal .live)

theorem finishIngest_only (outcome : IngestOutcome) (fenced : Bool) (journaled : Outcome Unit × Fabric) :
    JournalRuns journaled.2 (finishIngest io outcome fenced journaled).2 := by
  have hadvance : ∀ fabric : Fabric, JournalRuns fabric fabric.advanceUnjournaled := by
    intro fabric
    unfold advanceUnjournaled
    split <;> exact .same ⟨rfl, rfl, rfl, rfl, rfl, rfl⟩ rfl
  have hstored : ∀ fabric : Fabric, JournalRuns fabric (fabric.advanceUnjournaled.answerStored io outcome fenced).2 := by
    intro fabric
    exact ((hadvance fabric).trans (tally_only _ _)).trans (maybeCompact_only _ _)
  unfold Fabric.finishIngest
  split
  · exact hstored _
  · split
    · exact hstored _
    · exact (hadvance _).trans (.same ⟨rfl, rfl, rfl, rfl, rfl, rfl⟩ rfl)

theorem storeEvidence_only (io : CallIo) (observation : Observation) (received : ReceiveStamp) (fenced : Bool) :
    JournalRuns { fabric with evidence := (fabric.evidence.append observation received fabric.nextOrdinal .live
        (counterConfigFor fabric.policies.current.document observation.metric)).2 }
      (fabric.storeEvidence io observation received fenced).2 := by
  unfold storeEvidence
  split
  · next hstored =>
    rw [hstored]
    exact .same ⟨rfl, rfl, rfl, rfl, rfl, rfl⟩ rfl
  · next hstored =>
    rw [hstored]
    unfold journalEvidence
    split
    · exact .same ⟨rfl, rfl, rfl, rfl, rfl, rfl⟩ rfl
    · exact (journalAppend_only _ _ _ _).trans (finishIngest_only _ _ _ _)

namespace RunsBy
variable {allowed : Change → Prop} {fabric before after : Fabric}

theorem refl (fabric : Fabric) : RunsBy allowed fabric fabric := ⟨⟨.refl, rfl, rfl, rfl⟩, id⟩

theorem trans {third : Fabric} (h : RunsBy allowed before after) (h' : RunsBy allowed after third) :
    RunsBy allowed before third := by
  refine ⟨⟨h.steps.trans ?_, h'.config.trans h.config, h'.catalog.trans h.catalog, h'.epoch.trans h.epoch⟩,
    h'.unrefused ∘ h.unrefused⟩
  rw [← h.config, ← h.catalog]
  exact h'.steps

theorem of_only (h : JournalRuns before after) : RunsBy allowed before after :=
  ⟨⟨by rw [h.state], h.config, h.catalog, h.epoch⟩, h.unrefused⟩

theorem same (hstate : after.toFabricState = before.toFabricState) (hconfig : after.config = before.config)
    (hcatalog : after.catalog = before.catalog) (hepoch : after.epoch = before.epoch)
    (hjournal : after.journal = before.journal) : RunsBy allowed before after :=
  ⟨⟨by rw [hstate], hconfig, hcatalog, hepoch⟩, fun h => by rwa [hjournal]⟩

theorem change {change : Change} (hallowed : allowed change)
    (h : Changed before.config before.catalog change before.toFabricState after.toFabricState)
    (hconfig : after.config = before.config) (hcatalog : after.catalog = before.catalog)
    (hepoch : after.epoch = before.epoch) (hjournal : after.journal = before.journal) : RunsBy allowed before after :=
  ⟨⟨.single ⟨change, hallowed, h⟩, hconfig, hcatalog, hepoch⟩, fun h => by rwa [hjournal]⟩

theorem drainEvicted (hdrain : allowed .drain) (fabric : Fabric) : RunsBy allowed fabric fabric.drainEvicted :=
  change hdrain (.drain _) rfl rfl rfl rfl

/-! ## The calls -/

variable {io : CallIo} {observation : Observation} {call : FabricCall}

theorem plans {changed : Fabric} {kind : JournalRecordKind} {encoded : Outcome Bytes} (hdrain : allowed .drain)
    (hroom : fabric.queueFull = false) (h : fabric.Permits allowed (call, io))
    (hplan : Plans fabric io call changed kind encoded) : RunsBy allowed fabric changed := by
  cases hplan with
  | declare hdeclare => exact change (h _ hroom hdeclare) (.declare hdeclare) rfl rfl rfl rfl
  | @register _ _ _ links hplan =>
    have hmove : RunsBy allowed fabric { fabric with links := links } :=
      change (h _ hplan) (.observe (planRegistration_eq_ok.mp hplan).2) rfl rfl rfl rfl
    exact (hmove.trans (drainEvicted hdrain _)).trans (of_only (tally_only _ _))
  | @advance _ _ _ links hplan =>
    have hmove : RunsBy allowed fabric { fabric with links := links } :=
      change (h _ hplan) (.advance (planAdvance_eq_ok.mp hplan).2) rfl rfl rfl rfl
    exact (hmove.trans (drainEvicted hdrain _)).trans (of_only (tally_only _ _))
  | publish hpublish => exact change (h _ hroom hpublish) (.publish hpublish) rfl rfl rfl rfl

theorem ends {result : Outcome FabricReply × Fabric} (hdrain : allowed .drain) (h : fabric.Permits allowed (call, io))
    (hends : Ends fabric io call result) : RunsBy allowed fabric result.2 := by
  cases hends with
  | kept stats degraded _ => exact same rfl rfl rfl rfl rfl
  | unencoded hroom hplan => exact plans hdrain hroom h hplan
  | appended hroom hplan _ _ =>
    exact ((plans hdrain hroom h hplan).trans (of_only (journalAppend_only _ _ _ _))).trans (same rfl rfl rfl rfl rfl)

theorem ingestEnds {result : Outcome IngestOutcome × Fabric} (hdrain : allowed .drain)
    (h : fabric.Permits allowed (.ingest observation, io)) (hends : IngestEnds fabric io observation result) :
    RunsBy allowed fabric result.2 := by
  have hobserved : ∀ {links : LinkRegistry}, fabric.links.observe observation.link observation.observedAt
      (fabric.receiveStamp io.now) = .ok links → fabric.checkObservation io.now observation = .ok () →
      RunsBy allowed fabric (fabric.observed links) := by
    intro links hobserve hcheck
    have hlinked : RunsBy allowed fabric { fabric with links := links } :=
      change (h hcheck).1 (.observe hobserve) rfl rfl rfl rfl
    exact (hlinked.trans (drainEvicted hdrain _)).trans (of_only (tally_only _ _))
  cases hends with
  | kept status stats => exact same rfl rfl rfl rfl rfl
  | unlinked hcheck hobserve _ =>
    exact ((hobserved hobserve hcheck).trans (of_only (entered_only _ _ _ _))).trans (same rfl rfl rfl rfl rfl)
  | @stored links hcheck hobserve =>
    have honly := fabric.entered_only io observation links
    refine (((hobserved hobserve hcheck).trans (of_only honly)).trans ?_).trans (of_only (storeEvidence_only _ _ _ _ _))
    refine change ((h hcheck).2 _) (.append ?_ (fabric.receiveStamp io.now) _ .live) rfl rfl rfl rfl
    rw [honly.catalog, honly.config]
    exact checkObservation_valid hcheck

theorem respondLocked (hdrain : allowed .drain) (h : fabric.Permits allowed (call, io)) :
    RunsBy allowed fabric (fabric.respondLocked (call, io)).2 := by
  cases call with
  | ingest observation => exact ingestEnds hdrain h (fabric.ingestLocked_ends io observation)
  | _ => exact ends hdrain h (fabric.respondLocked_ends _ io (by simp))

theorem respond (hdrain : allowed .drain) (h : (fabric.letWriterRun io.writer).Permits allowed (call, io)) :
    RunsBy allowed fabric (fabric.respond (call, io)).2 := by
  rw [respond_eq]
  split
  · exact refl fabric
  · exact (of_only (letWriterRun_only _ _)).trans (respondLocked hdrain h)

end RunsBy

/-! ## Recovery -/

def PermitsRecord (config : FabricConfig) (catalog : MetricCatalog) (allowed : Change → Prop) (record : JournalRecord) :
    Prop :=
  match record.kind with
  | .capability => ∀ declaration,
    Codec.capabilityDeclaration.decodeBody (codecLimitsFor config.limits) record.body = .ok declaration →
      allowed (.declare declaration)
  | .policy => ∀ policy,
    Codec.policyGenerationRecord.decodeBody (codecLimitsFor config.limits) record.body = .ok policy →
      allowed (.restore policy)
  | .linkObserved => ∀ body,
    Codec.linkObservedBody.decodeBody (codecLimitsFor config.limits) record.body = .ok body →
      allowed (.observe body.link body.observedAt body.received)
  | .linkGenerationAdvanced => ∀ body,
    Codec.generationBody.decodeBody (codecLimitsFor config.limits) record.body = .ok body →
      allowed (.advance ⟨body.link, body.generation⟩ body.at_ body.received)
  | .evidence => ∀ evidence,
    Codec.evidenceRecord.decodeBody (codecLimitsFor config.limits) record.body = .ok evidence →
      validateObservation evidence.observation (catalog.find evidence.observation.metric)
        (CapabilityRegistry.observationLimits config.limits) = .ok () →
      allowed (.append evidence.observation evidence.received evidence.ordinal .recovered) ∧
        allowed (.observe evidence.observation.link evidence.observation.observedAt evidence.received)
  | .dedupWindow => ∀ body,
    Codec.dedupBody.decodeBody (codecLimitsFor config.limits) record.body = .ok body →
      allowed (.seed body.key body.entries)
  | .snapshot => True
  | .count => True

def PermitsReplay (config : FabricConfig) (catalog : MetricCatalog) (allowed : Change → Prop) (record : JournalRecord) :
    Prop :=
  PermitsRecord config catalog allowed record ∧
    (record.kind = .snapshot → ∀ records,
      decodeRecordBundle record.body config.journal.maxRecoveryRecords config.journal.maxRecordBytes = .ok records →
      ∀ nested ∈ records, PermitsRecord config catalog allowed nested)

namespace RunsBy
variable {allowed : Change → Prop} {fabric before after : Fabric}

theorem applyDecoded {α : Type} [Inhabited α] (fabric : Fabric) (codec : Codec α) (body : Bytes)
    {apply : α → Fabric → Outcome Unit × Fabric}
    (happly : ∀ value, codec.decodeBody fabric.codecLimits body = .ok value →
      RunsBy allowed fabric (apply value fabric).2) :
    RunsBy allowed fabric (fabric.applyDecoded codec body apply).2 := by
  unfold Fabric.applyDecoded
  split
  · exact refl fabric
  · next hdecode => exact happly _ hdecode

section
variable (hdrain : allowed .drain)
include hdrain

theorem applyEvidence (fabric : Fabric) (record : EvidenceRecord)
    (h : validateObservation record.observation (fabric.catalog.find record.observation.metric)
      fabric.observationLimits = .ok () →
      allowed (.append record.observation record.received record.ordinal .recovered) ∧
        allowed (.observe record.observation.link record.observation.observedAt record.received)) :
    RunsBy allowed fabric (fabric.applyEvidence record).2 := by
  unfold Fabric.applyEvidence
  split
  · exact refl fabric
  · next hvalid =>
    obtain ⟨happend, hobserved⟩ := h hvalid
    have hmove : RunsBy allowed fabric { fabric with evidence := (fabric.evidence.append record.observation
        record.received record.ordinal .recovered
          (counterConfigFor fabric.policies.current.document record.observation.metric)).2 } :=
      change happend (.append hvalid record.received record.ordinal .recovered) rfl rfl rfl rfl
    unfold storeRecovered
    split
    · next hstored =>
      rw [hstored] at hmove
      exact hmove
    · next evidence hstored =>
      rw [hstored] at hmove
      refine hmove.trans ?_
      unfold noteRecovered
      split
      · exact refl _
      · next links hobserve =>
        have hlinked : RunsBy allowed { fabric with evidence := evidence }
            { fabric with evidence := evidence, links := links } :=
          change hobserved (.observe hobserve) rfl rfl rfl rfl
        exact (hlinked.trans (drainEvicted hdrain _)).trans (same rfl rfl rfl rfl rfl)

variable {record : JournalRecord} (records : List JournalRecord)

theorem applyKind (fabric : Fabric) {snapshot : Bytes → Fabric → Outcome Unit × Fabric}
    (h : PermitsRecord fabric.config fabric.catalog allowed record)
    (hsnapshot : record.kind = .snapshot → RunsBy allowed fabric (snapshot record.body fabric).2) :
    RunsBy allowed fabric (fabric.applyKind snapshot record).2 := by
  unfold Fabric.applyKind
  unfold PermitsRecord at h
  split
  · next hkind =>
    simp only [hkind] at h
    refine applyDecoded fabric _ _ fun declaration hdecode => ?_
    unfold applyCapability
    split
    · exact refl fabric
    · next hdeclare => exact change (h _ hdecode) (.declare hdeclare) rfl rfl rfl rfl
  · next hkind =>
    simp only [hkind] at h
    refine applyDecoded fabric _ _ fun policy hdecode => ?_
    unfold applyPolicy
    split
    · exact refl fabric
    · next hrestore => exact change (h _ hdecode) (.restore hrestore) rfl rfl rfl rfl
  · next hkind =>
    simp only [hkind] at h
    refine applyDecoded fabric _ _ fun body hdecode => ?_
    unfold applyLinkObserved
    split
    · exact refl fabric
    · next hobserve => exact change (h _ hdecode) (.observe hobserve) rfl rfl rfl rfl
  · next hkind =>
    simp only [hkind] at h
    refine applyDecoded fabric _ _ fun body hdecode => ?_
    unfold applyGeneration
    split
    · exact refl fabric
    · next links hadvance =>
      have hmove : RunsBy allowed fabric { fabric with links := links } :=
        change (h _ hdecode) (.advance hadvance) rfl rfl rfl rfl
      exact hmove.trans (drainEvicted hdrain _)
  · next hkind =>
    simp only [hkind] at h
    exact applyDecoded fabric _ _ fun evidence hdecode => applyEvidence hdrain fabric evidence (h _ hdecode)
  · next hkind =>
    simp only [hkind] at h
    exact applyDecoded fabric _ _ fun body hdecode => change (h _ hdecode) (.seed _ body.key body.entries) rfl rfl rfl rfl
  · next hkind => exact hsnapshot hkind
  · exact refl fabric

theorem applyAll (fabric : Fabric)
    (h : ∀ record ∈ records, PermitsRecord fabric.config fabric.catalog allowed record) :
    RunsBy allowed fabric (applyAll records fabric).2 := by
  induction records generalizing fabric with
  | nil => exact refl fabric
  | cons record rest ih =>
    have hnested : RunsBy allowed fabric (fabric.applyNested record).2 :=
      applyKind hdrain fabric (h record List.mem_cons_self) fun _ => refl fabric
    unfold Fabric.applyAll
    split
    · next hresult =>
      rw [hresult] at hnested
      exact hnested
    · next after hresult =>
      rw [hresult] at hnested
      refine hnested.trans (ih after fun other hother => ?_)
      rw [hnested.config, hnested.catalog]
      exact h other (List.mem_cons_of_mem _ hother)

theorem applyRecord (fabric : Fabric) (h : PermitsReplay fabric.config fabric.catalog allowed record) :
    RunsBy allowed fabric (fabric.applyRecord record).2 := by
  refine applyKind hdrain fabric h.1 fun hkind => ?_
  unfold applySnapshot
  split
  · exact refl fabric
  · next records hdecode => exact applyAll hdrain _ _ (h.2 hkind records hdecode)

theorem replay (fabric : Fabric) (h : ∀ record ∈ records, PermitsReplay fabric.config fabric.catalog allowed record) :
    RunsBy allowed fabric (fabric.replay records) := by
  induction records generalizing fabric with
  | nil => exact refl fabric
  | cons record rest ih =>
    have happlied := applyRecord hdrain fabric (h record List.mem_cons_self)
    have hreplayed : RunsBy allowed fabric (fabric.replayRecord record) := by
      unfold replayRecord
      split
      · next hresult =>
        rw [hresult] at happlied
        exact happlied
      · next hresult =>
        rw [hresult] at happlied
        exact happlied.trans (same rfl rfl rfl rfl rfl)
    refine hreplayed.trans (ih _ fun other hother => ?_)
    rw [hreplayed.config, hreplayed.catalog]
    exact h other (List.mem_cons_of_mem _ hother)

end

/-! ## Opening -/

theorem startJournal (fabric : Fabric) (io : InitializeIo) (initial : PolicyGenerationRecord) (fresh : Bool)
    (disk : Disk) : RunsBy allowed fabric (fabric.startJournal io initial fresh disk).2 := by
  unfold Fabric.startJournal
  split
  · exact refl fabric
  · next journal hstart =>
    have hstarted : RunsBy allowed fabric (fabric.startedWith journal) := by
      refine ⟨⟨.refl, rfl, rfl, rfl⟩, fun _ other hother => ?_⟩
      cases hother
      obtain ⟨-, rfl⟩ := BackgroundJournal.start_eq_ok hstart
      exact fun _ hstatus => nomatch hstatus
    have hinitial : RunsBy allowed (fabric.startedWith journal) _ := of_only (journalInitialPolicy_only _ io initial fresh)
    split
    · next hresult =>
      rw [hresult] at hinitial
      exact hstarted.trans hinitial
    · next after hresult =>
      rw [hresult] at hinitial
      refine (hstarted.trans hinitial).trans ?_
      have hcompact : RunsBy allowed after _ := of_only (after.compactOnOpen_only io)
      unfold openGate
      split
      · next hlast =>
        rw [hlast] at hcompact
        exact hcompact
      · next hlast =>
        rw [hlast] at hcompact
        exact hcompact.trans (same rfl rfl rfl rfl rfl)

theorem afterReplay (fabric : Fabric) (io : InitializeIo) (initial : PolicyGenerationRecord)
    (reader : JournalReader) : RunsBy allowed fabric (fabric.afterReplay io initial reader).2 := by
  have hreport : ∀ recovery : RecoveryReport, RunsBy allowed fabric { fabric with recovery := recovery } :=
    fun _ => same rfl rfl rfl rfl rfl
  unfold Fabric.afterReplay
  split
  · exact same rfl rfl rfl rfl rfl
  · unfold repairTail
    split
    · next hfailed =>
      split at hfailed
      · split at hfailed
        · cases hfailed
          exact same rfl rfl rfl rfl rfl
        · cases hfailed
      · cases hfailed
    · next hrepaired =>
      split at hrepaired
      · split at hrepaired
        · cases hrepaired
        · cases hrepaired
          exact (hreport _).trans (startJournal _ _ _ _ _)
      · cases hrepaired
        exact (hreport _).trans (startJournal _ _ _ _ _)

end RunsBy

def PermitsJournal (allowed : Change → Prop) (config : FabricConfig) (catalog : MetricCatalog) (io : InitializeIo)
    (disk : Disk) : Prop :=
  ∀ reader, (JournalReader.openReader io.reader config.journal disk).1 = .inr reader →
    ∀ record ∈ reader.readAll.1, PermitsReplay config catalog allowed record

namespace RunsBy
variable {allowed : Change → Prop} {fabric before after : Fabric}
variable {io : InitializeIo} {disk : Disk}

theorem recover (hdrain : allowed .drain) (fabric : Fabric) (initial : PolicyGenerationRecord)
    (h : PermitsJournal allowed fabric.config fabric.catalog io disk) :
    RunsBy allowed fabric (fabric.recover io initial disk).2 := by
  unfold Fabric.recover
  split
  · exact same rfl rfl rfl rfl rfl
  · next reader hreader =>
    have hadopted : RunsBy allowed (fabric.replay reader.readAll.1)
        ((fabric.replay reader.readAll.1).adoptReport reader.readAll.2) := same rfl rfl rfl rfl rfl
    exact ((replay hdrain _ _ (h reader hreader)).trans hadopted).trans (afterReplay _ _ _ _)

theorem bringUp (hdrain : allowed .drain) (fabric : Fabric)
    (h : PermitsJournal allowed fabric.config fabric.catalog io disk) :
    RunsBy allowed fabric (fabric.bringUp io disk).2 := by
  unfold Fabric.bringUp
  split
  · exact refl fabric
  · split
    · refine RunsBy.trans ?_ (recover hdrain _ _ h)
      exact same rfl rfl rfl rfl rfl
    · exact same rfl rfl rfl rfl rfl

theorem detachJournal (fabric : Fabric) : RunsBy allowed fabric fabric.detachJournal.2 := by
  unfold Fabric.detachJournal
  split
  · exact refl fabric
  · exact ⟨⟨.refl, rfl, rfl, rfl⟩, fun _ _ hother => nomatch hother⟩

end RunsBy

/-! ## Calls and records in general -/

end Fabric

def Change.KnownOrigin : Change → Prop
  | .append _ _ _ origin => origin ≠ .count
  | _ => True

namespace Fabric

theorem permits_knownOrigin (fabric : Fabric) (call : FabricCall) (io : CallIo) :
    fabric.Permits Change.KnownOrigin (call, io) := by
  cases call with
  | declareCapability declaration => exact fun _ _ _ => trivial
  | registerLink link observedAt => exact fun _ _ => trivial
  | advanceLinkGeneration link reason => exact fun _ _ => trivial
  | publishPolicy document => exact fun _ _ _ => trivial
  | ingest observation => exact fun _ => ⟨trivial, fun _ horigin => nomatch horigin⟩

variable (config : FabricConfig) (catalog : MetricCatalog)

theorem permitsRecord_knownOrigin (record : JournalRecord) :
    PermitsRecord config catalog Change.KnownOrigin record := by
  unfold PermitsRecord
  split <;> first
    | exact trivial
    | exact fun _ _ => trivial
    | exact fun _ _ _ => ⟨(fun horigin => nomatch horigin), trivial⟩

theorem permitsJournal_knownOrigin (io : InitializeIo) (disk : Disk) :
    PermitsJournal Change.KnownOrigin config catalog io disk :=
  fun _ _ _ _ => ⟨permitsRecord_knownOrigin _ _ _, fun _ _ _ _ _ => permitsRecord_knownOrigin _ _ _⟩

namespace RunsBy
variable (fabric : Fabric) (call : FabricCall) (io : CallIo)

theorem anyLocked : RunsBy Change.KnownOrigin fabric (fabric.respondLocked (call, io)).2 :=
  respondLocked trivial (permits_knownOrigin fabric call io)

theorem anyCall : RunsBy Change.KnownOrigin fabric (fabric.respond (call, io)).2 :=
  respond trivial (permits_knownOrigin _ call io)

theorem anyStart (io : InitializeIo) (disk : Disk) : RunsBy Change.KnownOrigin fabric (fabric.bringUp io disk).2 :=
  bringUp trivial fabric (permitsJournal_knownOrigin _ _ io disk)

end RunsBy

end Fabric

end Lqf
