import LinkQualityFabric.Runtime.Refusal
import LinkQualityFabric.Runtime.StateInvariant

/-! A fabric without a journal.

Without a journal there is no writer and no queue, so a call is a function of the registries and of the clock. The
lemmas say what the calls do then, and that declarations and publications neither read nor change links and evidence. -/
namespace Lqf.Fabric
open Foundations
set_option autoImplicit false

section Calls
variable {fabric : Fabric}

section
variable (h : fabric.journal = none)
include h

theorem letWriterRun_none (steps : List WriterStep) : fabric.letWriterRun steps = fabric := by
  obtain ⟨state, config, epoch, catalog, journal⟩ := fabric
  obtain rfl : journal = none := h
  rfl

theorem activeJournal_none : fabric.activeJournal = none := by
  rw [activeJournal, h]
  rfl

theorem queueFull_none : fabric.queueFull = false := by
  rw [queueFull, activeJournal_none h]

theorem journalAppend_none (io : AppendIo) (kind : JournalRecordKind) (body : Bytes) :
    fabric.journalAppend io kind body = (.ok (), fabric) := by
  rw [journalAppend, letWriterRun_none h, appendProbed, activeJournal_none h]

theorem maybeCompact_none (io : BackgroundJournal.CompactIo) : fabric.maybeCompact io = fabric := by
  rw [maybeCompact, activeJournal_none h]

end

end Calls

/-! ## What a call reads besides links and evidence -/

/-- Two fabrics without a journal that differ in links, evidence and bookkeeping only. -/
structure Twin (a b : Fabric) : Prop where
  config : b.config = a.config
  catalog : b.catalog = a.catalog
  epoch : b.epoch = a.epoch
  isOpen : b.isOpen = a.isOpen
  policies : b.policies = a.policies
  capabilities : b.capabilities = a.capabilities
  unjournaled : a.journal = none
  unjournaled' : b.journal = none

structure Elsewhere (before after : Fabric) : Prop where
  config : after.config = before.config
  catalog : after.catalog = before.catalog
  epoch : after.epoch = before.epoch
  links : after.links = before.links
  evidence : after.evidence = before.evidence

section Twins
variable {a b : Fabric}

theorem Twin.refl (h : a.journal = none) : Twin a a := ⟨rfl, rfl, rfl, rfl, rfl, rfl, h, h⟩

theorem Twin.codecLimits (h : Twin a b) : b.codecLimits = a.codecLimits := by
  unfold Fabric.codecLimits
  rw [h.config]

theorem Twin.observationLimits (h : Twin a b) : b.observationLimits = a.observationLimits := by
  unfold Fabric.observationLimits
  rw [h.config]

section
variable (h : Twin a b) (io : CallIo) (declaration : CapabilityDeclaration)
include h io declaration

theorem Twin.journalDeclaration : (b.journalDeclaration io declaration).1 = (a.journalDeclaration io declaration).1 ∧
      Twin (a.journalDeclaration io declaration).2 (b.journalDeclaration io declaration).2 := by
  unfold Fabric.journalDeclaration
  rw [h.codecLimits]
  split
  · exact ⟨rfl, h⟩
  · rw [journalAppend_none h.unjournaled, journalAppend_none h.unjournaled']
    exact ⟨rfl, { h with }⟩

theorem Twin.declareLocked : (b.declareLocked io declaration).1 = (a.declareLocked io declaration).1 ∧
      Twin (a.declareLocked io declaration).2 (b.declareLocked io declaration).2 := by
  have hdeclare : b.capabilities.declare b.catalog declaration = a.capabilities.declare a.catalog declaration := by
    rw [h.capabilities, h.catalog]
  unfold Fabric.declareLocked
  rw [queueFull_none h.unjournaled, queueFull_none h.unjournaled', hdeclare]
  simp only [Bool.false_eq_true, if_false]
  split
  · split <;> exact ⟨rfl, { h with }⟩
  · next capabilities _ =>
    have hdeclared : Twin { a with capabilities := capabilities } { b with capabilities := capabilities } :=
      { h with capabilities := rfl }
    exact hdeclared.journalDeclaration io declaration

theorem Twin.declareCapability : (b.declareCapability io declaration).1 = (a.declareCapability io declaration).1 ∧
      Twin (a.declareCapability io declaration).2 (b.declareCapability io declaration).2 := by
  unfold Fabric.declareCapability
  rw [h.isOpen, h.catalog, h.observationLimits, h.config, letWriterRun_none h.unjournaled,
    letWriterRun_none h.unjournaled']
  split
  · exact ⟨rfl, h⟩
  · split
    · exact ⟨rfl, h⟩
    · exact h.declareLocked io declaration

end

theorem Twin.journalPolicy (h : Twin a b) (io : CallIo) (record : PolicyGenerationRecord) :
    (b.journalPolicy io record).1 = (a.journalPolicy io record).1 ∧
      Twin (a.journalPolicy io record).2 (b.journalPolicy io record).2 := by
  unfold Fabric.journalPolicy
  rw [h.codecLimits]
  split
  · exact ⟨rfl, h⟩
  · rw [journalAppend_none h.unjournaled, journalAppend_none h.unjournaled']
    exact ⟨rfl, { h with }⟩

theorem Twin.publishPolicy (h : Twin a b) (io : CallIo) (document : PolicyDocument) :
    (b.publishPolicy io document).1 = (a.publishPolicy io document).1 ∧
      Twin (a.publishPolicy io document).2 (b.publishPolicy io document).2 := by
  have hpublish : b.policies.publish b.policyChecks document ⟨io.now.wallNanos, true⟩ =
      a.policies.publish a.policyChecks document ⟨io.now.wallNanos, true⟩ := by
    unfold policyChecks
    rw [h.policies, h.catalog, h.config]
  unfold Fabric.publishPolicy
  rw [h.isOpen, letWriterRun_none h.unjournaled, letWriterRun_none h.unjournaled']
  split
  · exact ⟨rfl, h⟩
  · unfold publishLocked
    rw [queueFull_none h.unjournaled, queueFull_none h.unjournaled', hpublish]
    simp only [Bool.false_eq_true, if_false]
    split
    · exact ⟨rfl, { h with }⟩
    · next record policies _ =>
      have hpublished : Twin { a with policies := policies } { b with policies := policies } :=
        { h with policies := rfl }
      exact hpublished.journalPolicy io record

theorem Ends.elsewhere {fabric : Fabric} {io : CallIo} {call : FabricCall} {result : Outcome FabricReply × Fabric}
    (hregister : ∀ link observedAt, call ≠ .registerLink link observedAt)
    (hadvance : ∀ link reason, call ≠ .advanceLinkGeneration link reason) (h : Ends fabric io call result) :
    Elsewhere fabric result.2 := by
  have hplans : ∀ {changed : Fabric} {kind : JournalRecordKind} {encoded : Outcome Bytes},
      Plans fabric io call changed kind encoded → Elsewhere fabric changed := by
    intro changed kind encoded hplan
    cases hplan with
    | register => exact absurd rfl (hregister _ _)
    | advance => exact absurd rfl (hadvance _ _)
    | _ => exact ⟨rfl, rfl, rfl, rfl, rfl⟩
  cases h with
  | kept => exact ⟨rfl, rfl, rfl, rfl, rfl⟩
  | unencoded _ hplan => exact hplans hplan
  | @appended changed kind body _ _ _ hplan _ _ =>
    have honly := changed.journalAppend_only io.record kind body
    have hchanged := hplans hplan
    exact ⟨honly.config.trans hchanged.config, honly.catalog.trans hchanged.catalog, honly.epoch.trans hchanged.epoch,
      (congrArg FabricState.links honly.state).trans hchanged.links,
      (congrArg FabricState.evidence honly.state).trans hchanged.evidence⟩

theorem respond_elsewhere (fabric : Fabric) (call : FabricCall) (io : CallIo)
    (hingest : ∀ observation, call ≠ .ingest observation)
    (hregister : ∀ link observedAt, call ≠ .registerLink link observedAt)
    (hadvance : ∀ link reason, call ≠ .advanceLinkGeneration link reason) :
    Elsewhere fabric (fabric.respond (call, io)).2 := by
  rw [respond_eq]
  split
  · exact ⟨rfl, rfl, rfl, rfl, rfl⟩
  · have helsewhere := (respondLocked_ends (fabric.letWriterRun io.writer) call io hingest).elsewhere hregister hadvance
    exact { helsewhere with }

end Twins

/-! ## Evidence -/

/-- The answer to evidence of a generation that is not the current one says so. -/
def fencedAnswer (fenced : Bool) (outcome : IngestOutcome) : IngestOutcome :=
  if fenced then { outcome with reason := .fencedGeneration } else outcome

/-- The links are noted, what they drop is dropped, and the evidence is appended. -/
def ingestInto (io : CallIo) (observation : Observation) (links : LinkRegistry) (fabric : Fabric) :
    Outcome IngestOutcome × EvidenceStore :=
  (links.evicted.foldl EvidenceStore.dropLink fabric.evidence).append observation (fabric.receiveStamp io.now)
    fabric.nextOrdinal .live (counterConfigFor fabric.policies.current.document observation.metric)

structure EvidenceOnly (before after : Fabric) : Prop where
  config : after.config = before.config
  catalog : after.catalog = before.catalog
  epoch : after.epoch = before.epoch
  isOpen : after.isOpen = before.isOpen
  policies : after.policies = before.policies
  capabilities : after.capabilities = before.capabilities
  journal : after.journal = before.journal

theorem Twin.ingested {a b after after' : Fabric} (h : Twin a b) (ha : EvidenceOnly a after)
    (hb : EvidenceOnly b after') : Twin after after' where
  config := by rw [hb.config, h.config, ha.config]
  catalog := by rw [hb.catalog, h.catalog, ha.catalog]
  epoch := by rw [hb.epoch, h.epoch, ha.epoch]
  isOpen := by rw [hb.isOpen, h.isOpen, ha.isOpen]
  policies := by rw [hb.policies, h.policies, ha.policies]
  capabilities := by rw [hb.capabilities, h.capabilities, ha.capabilities]
  unjournaled := by rw [ha.journal, h.unjournaled]
  unjournaled' := by rw [hb.journal, h.unjournaled']

structure Ingested (fabric : Fabric) (answer : Outcome IngestOutcome) (links : LinkRegistry) (evidence : EvidenceStore)
    (result : Outcome IngestOutcome × Fabric) : Prop where
  answer : result.1 = answer
  only : EvidenceOnly fabric result.2
  links : result.2.links = links
  evidence : result.2.evidence = evidence

section Ingest
variable {fabric : Fabric}

theorem finishIngest_none (h : fabric.journal = none) (io : CallIo) (outcome : IngestOutcome) (fenced : Bool) :
    Ingested fabric (.ok (fencedAnswer fenced outcome)) fabric.links fabric.evidence
      (finishIngest io outcome fenced (.ok (), fabric)) := by
  have hadvanced : fabric.advanceUnjournaled = { fabric with nextOrdinal := fabric.nextOrdinal + 1 } := by
    rw [advanceUnjournaled, if_pos (activeJournal_none h)]
  have hcompact : ((fabric.advanceUnjournaled).tally (countOutcome outcome)).maybeCompact io.compaction =
      (fabric.advanceUnjournaled).tally (countOutcome outcome) := by
    rw [hadvanced]
    apply maybeCompact_none
    exact h
  simp only [finishIngest, answerStored, hcompact]
  rw [hadvanced]
  exact ⟨rfl, ⟨rfl, rfl, rfl, rfl, rfl, rfl, rfl⟩, rfl, rfl⟩

variable {observation : Observation} {links : LinkRegistry}

section
variable (hsound : fabric.Sound) (h : fabric.journal = none) (io : CallIo)
  (hvalid : validateObservation observation (fabric.catalog.find observation.metric) fabric.observationLimits = .ok ())
include hsound h io hvalid

theorem storeEvidence_none (received : ReceiveStamp) (fenced : Bool) :
    let stored := fabric.evidence.append observation received fabric.nextOrdinal .live
      (counterConfigFor fabric.policies.current.document observation.metric)
    Ingested fabric (stored.1.map (fencedAnswer fenced)) fabric.links stored.2
      (fabric.storeEvidence io observation received fenced) := by
  dsimp only
  rcases happend : fabric.evidence.append observation received fabric.nextOrdinal .live
    (counterConfigFor fabric.policies.current.document observation.metric) with ⟨answer, evidence⟩
  cases answer with
  | error status =>
    unfold storeEvidence
    rw [happend]
    exact ⟨rfl, ⟨rfl, rfl, rfl, rfl, rfl, rfl, rfl⟩, rfl, rfl⟩
  | ok outcome =>
    obtain ⟨body, -, hresult⟩ := storeEvidence_eq hsound io hvalid fenced happend
    rw [hresult, journalAppend_none (show ({ fabric with evidence := evidence } : Fabric).journal = none from h)]
    obtain ⟨hanswer, honly, hlinks, hevidence⟩ :=
      finishIngest_none (show ({ fabric with evidence := evidence } : Fabric).journal = none from h) io outcome fenced
    exact ⟨hanswer, { honly with }, hlinks, hevidence⟩

theorem ingestChecked_none
    (hobserve : fabric.links.observe observation.link observation.observedAt (fabric.receiveStamp io.now) = .ok links) :
    Ingested fabric ((fabric.ingestInto io observation links).1.map (fencedAnswer (fabric.fences observation.link)))
      { links with evicted := [] } (fabric.ingestInto io observation links).2
      (fabric.ingestChecked io observation (fabric.receiveStamp io.now)) := by
  have hsound' := hsound.observed hobserve
  have hstored := storeEvidence_none hsound' (show (fabric.observed links).journal = none from h) io hvalid
    (fabric.receiveStamp io.now) (fabric.fences observation.link)
  have hresult : fabric.ingestChecked io observation (fabric.receiveStamp io.now) =
      (fabric.observed links).storeEvidence io observation (fabric.receiveStamp io.now)
        (fabric.fences observation.link) := by
    unfold ingestChecked
    rw [hobserve]
    dsimp only
    split
    · rfl
    · obtain ⟨encoded, -, hlinked⟩ := journalNewLink_eq hsound' io
        ⟨observation.link, observation.observedAt, fabric.receiveStamp io.now⟩ (LinkRegistry.observe_eq_ok.mp hobserve).1
      unfold ingestNewLink
      rw [hlinked, journalAppend_none (show (fabric.observed links).journal = none from h)]
  rw [hresult]
  obtain ⟨hanswer, honly, hlinks, hevidence⟩ := hstored
  exact ⟨hanswer, { honly with }, hlinks, hevidence⟩

end

def planIngest (io : CallIo) (observation : Observation) (fabric : Fabric) : Outcome LinkRegistry := do
  refuseIf (fabric.isOpen = false) fabricClosed.code fabricClosed.message
  fabric.checkObservation io.now observation
  fabric.links.observe observation.link observation.observedAt (fabric.receiveStamp io.now)

theorem planIngest_eq_ok {io : CallIo} : fabric.planIngest io observation = .ok links ↔
      fabric.isOpen = true ∧ fabric.checkObservation io.now observation = .ok () ∧
        fabric.links.observe observation.link observation.observedAt (fabric.receiveStamp io.now) = .ok links := by
  rw [planIngest, Outcome.check_bind_eq_ok, Outcome.refuseIf_eq_ok, Outcome.check_bind_eq_ok, Bool.not_eq_false]

theorem ingest_of_refused (h : fabric.journal = none) {io : CallIo} {status : Status}
    (hplan : fabric.planIngest io observation = .error status) :
    Ingested fabric (.error status) fabric.links fabric.evidence (fabric.ingest io observation) := by
  unfold planIngest refuseIf at hplan
  unfold Fabric.ingest
  split
  · next hclosed =>
    rw [if_pos hclosed] at hplan
    obtain rfl : fabricClosed = status := Except.error.inj hplan
    exact ⟨rfl, ⟨rfl, rfl, rfl, rfl, rfl, rfl, rfl⟩, rfl, rfl⟩
  · next hopen =>
    rw [if_neg hopen, Outcome.ok_bind] at hplan
    rw [letWriterRun_none h, ingestLocked]
    cases hcheck : fabric.checkObservation io.now observation with
    | error refused =>
      rw [hcheck] at hplan
      obtain rfl : refused = status := Except.error.inj hplan
      exact ⟨rfl, ⟨rfl, rfl, rfl, rfl, rfl, rfl, rfl⟩, rfl, rfl⟩
    | ok =>
      rw [hcheck, Outcome.ok_bind] at hplan
      simp only [queueFull_none h, Bool.false_eq_true, if_false, ingestChecked, hplan]
      exact ⟨rfl, ⟨rfl, rfl, rfl, rfl, rfl, rfl, rfl⟩, rfl, rfl⟩

theorem ingest_of_planned (hsound : fabric.Sound) (h : fabric.journal = none) {io : CallIo}
    (hplan : fabric.planIngest io observation = .ok links) :
    Ingested fabric ((fabric.ingestInto io observation links).1.map (fencedAnswer (fabric.fences observation.link)))
      { links with evicted := [] } (fabric.ingestInto io observation links).2 (fabric.ingest io observation) := by
  obtain ⟨hopen, hcheck, hobserve⟩ := planIngest_eq_ok.mp hplan
  have hingest : fabric.ingest io observation =
      fabric.ingestChecked io observation (fabric.receiveStamp io.now) := by
    rw [Fabric.ingest, if_neg (by simp [hopen]), letWriterRun_none h, ingestLocked, hcheck]
    simp only [queueFull_none h, Bool.false_eq_true, if_false]
  rw [hingest]
  exact ingestChecked_none hsound h io (checkObservation_valid hcheck) hobserve

end Ingest

end Lqf.Fabric
