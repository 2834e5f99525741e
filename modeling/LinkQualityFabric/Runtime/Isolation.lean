import LinkQualityFabric.Classify.Backing
import LinkQualityFabric.Runtime.Unjournaled
import LinkQualityFabric.Store.LinkRuns

/-! Links and link generations do not show in each other.

A run is compared with the run that leaves out the evidence of every link identity but one. The two fabrics have the
same policies and capabilities, and their streams of the one identity are the same up to the numbers of the records. -/
namespace Lqf
open Std (ExtTreeMap LawfulEqCmp)
set_option autoImplicit false

/-! ## What evidence of a link does to the registry -/

namespace LinkRegistry
variable {registry result : LinkRegistry} {link other : LinkIdentity} {observedAt : Timestamp}
  {received : ReceiveStamp}

/-- The link is not above the current generation of its identity, and no newer generation is. -/
def AtMost (registry : LinkRegistry) (link : LinkIdentity) : Prop :=
  ∀ current, registry.current[link.id]? = some current → current ≤ link.generation

theorem observe_current_le (h : registry.observe other observedAt received = .ok result) (hafter : result.AtMost link) :
    registry.AtMost link := by
  intro current hcurrent
  obtain ⟨later, hlater, hle⟩ := step_current_le registry (.observe other observedAt received) hcurrent
  have hstep : (linkMachine.step registry (.observe other observedAt received)).2 = result := by
    simp [linkMachine, LinkCall.apply, h]
  rw [hstep] at hlater
  exact UInt64.le_trans hle (hafter later hlater)

theorem WellFormed.not_evicted (h : registry.WellFormed)
    (hresult : registry.observe other observedAt received = .ok result) (hne : other ≠ link)
    (hafter : result.AtMost link) (hevicted : registry.evicted = []) : link ∉ result.evicted := by
  have hchange := change_of_apply (show LinkCall.apply registry (.observe other observedAt received) = .ok result from
    hresult)
  cases hchange with
  | first _ _ _ hnew =>
    show link ∉ registry.evicted
    simp [hevicted]
  | noted _ _ _ hbehind =>
    show link ∉ registry.evicted
    simp [hevicted]
  | newer _ _ _ hnewer =>
    show link ∉ registry.evicted ++ (registry.listed other).take (registry.excess other)
    rw [hevicted, List.nil_append]
    intro hmem
    rcases listed_subset (List.mem_of_mem_take hmem) with hsame | hlisted
    · exact hne hsame.symm
    · obtain ⟨hid, current, hcurrent, hle⟩ := h.generations other.id link hlisted
      have hraised : other.generation ≤ link.generation := by
        refine hafter other.generation ?_
        show (registry.enterGeneration other observedAt received).current[link.id]? = some other.generation
        rw [enterGeneration_current, if_pos hid.symm]
      have hlt := hnewer current (hid ▸ hcurrent)
      exact absurd (UInt64.lt_of_le_of_lt hle hlt) (UInt64.not_lt.mpr hraised)

theorem observe_contains (hresult : registry.observe other observedAt received = .ok result) (hne : other ≠ link)
    (hkept : link ∉ result.evicted) : result.contains link = registry.contains link := by
  have hregistered : link ∈ result.links → link ∈ registry.links := by
    intro hmem
    have hchange := change_of_apply (show LinkCall.apply registry (.observe other observedAt received) = .ok result from
      hresult)
    cases hchange with
    | first _ _ _ hnew => exact (mem_noteEvidence.mp hmem).resolve_left hne
    | noted _ _ _ hbehind => exact (mem_noteEvidence.mp hmem).resolve_left hne
    | newer _ _ _ hnewer =>
      have hentered := (mem_noteEvidence.mp hmem).resolve_left hne
      rw [mem_links_iff, enterGeneration_marked] at hentered
      simp only [if_neg hne] at hentered
      split at hentered
      · exact absurd rfl hentered
      · rwa [ne_eq, Option.map_eq_none_iff, ← ne_eq, ← mem_links_iff] at hentered
  rw [Bool.eq_iff_iff, contains_iff, contains_iff]
  exact ⟨hregistered, fun hmem => mem_of_observe hresult (.inl ⟨hmem, hkept⟩)⟩

/-- The registry knows one identity at most, with one generation. -/
def Solely (registry : LinkRegistry) (link : LinkIdentity) : Prop :=
  registry.current = ∅ ∨ registry.current = (∅ : ExtTreeMap Text UInt64).insert link.id link.generation

theorem reach_of_empty (h : registry.current = ∅) (link : LinkIdentity) (observedAt : Timestamp)
    (received : ReceiveStamp) : registry.reach link observedAt received = registry.addLink link := by
  have hnone : registry.current[link.id]? = none := by simp [h]
  unfold LinkRegistry.reach
  rw [hnone]

theorem reach_of_current (h : registry.current[link.id]? = some link.generation) (observedAt : Timestamp)
    (received : ReceiveStamp) : registry.reach link observedAt received = registry := by
  unfold LinkRegistry.reach
  rw [h]
  exact if_neg (UInt64.lt_irrefl _)

theorem Solely.observe (h : registry.Solely link) (hvalid : validateLinkIdentity link = .ok ())
    (hbound : 1 ≤ registry.limits.maxLinks) (hevicted : registry.evicted = []) (observedAt : Timestamp)
    (received : ReceiveStamp) :
    ∃ result, registry.observe link observedAt received = .ok result ∧ result.Solely link ∧ result.evicted = [] := by
  rcases h with hempty | hone
  · refine ⟨_, observe_eq_ok.mpr ⟨hvalid, .inr ?_, rfl⟩, ?_⟩
    · rw [hempty, ExtTreeMap.size_empty]
      omega
    · rw [reach_of_empty hempty]
      exact ⟨.inr (congrArg (·.insert link.id link.generation) hempty), hevicted⟩
  · have hcurrent : registry.current[link.id]? = some link.generation := by
      rw [hone, ExtTreeMap.getElem?_insert_self]
    refine ⟨_, observe_eq_ok.mpr ⟨hvalid, room_of_some hcurrent, rfl⟩, ?_⟩
    rw [reach_of_current hcurrent]
    exact ⟨.inr hone, hevicted⟩

theorem Solely.atMost (h : registry.Solely link) : registry.AtMost link := by
  intro current hcurrent
  rcases h with hempty | hone
  · simp [hempty] at hcurrent
  · rw [hone, ExtTreeMap.getElem?_insert_self, Option.some.injEq] at hcurrent
    exact UInt64.le_of_eq hcurrent.symm

end LinkRegistry

namespace Fabric
open LinkRegistry

def linkCapacityReached (limits : FabricLimits) : Status :=
  ⟨.limitExceeded, text "link identity capacity of " ++ formatNat limits.maxLinks ++ text " reached"⟩

/-! ## Two fabrics that differ in other links -/

/-- The second fabric has seen no evidence but that of one link identity. -/
structure Apart (link : LinkIdentity) (a b : Fabric) : Prop extends Twin a b where
  reachable : Reachable a
  reachable' : Reachable b
  drained : a.links.evicted = []
  drained' : b.links.evicted = []
  known : b.links.contains link = a.links.contains link
  sole : b.links.Solely link
  evidence : EvidenceStore.Agree EvidenceRecord.unnumbered (· = link) a.evidence b.evidence

section Step
variable {link : LinkIdentity} {a b : Fabric}

variable {fabric : Fabric} {status : Status} {io : CallIo} {observation : Observation}

theorem fences_of_atMost (h : fabric.links.AtMost link) : fabric.fences link = false := by
  unfold fences
  cases hcurrent : fabric.links.currentGeneration link.id with
  | none => rfl
  | some current => simpa [UInt64.not_lt] using h current hcurrent

theorem Twin.checkObservation (h : Twin a b) (now : ClockReading) (observation : Observation) :
    b.checkObservation now observation = a.checkObservation now observation := by
  unfold Fabric.checkObservation checkDeclared
  rw [h.catalog, h.observationLimits, h.config, h.policies, h.capabilities]

theorem Twin.receiveStamp (h : Twin a b) (now : ClockReading) : b.receiveStamp now = a.receiveStamp now := by
  unfold Fabric.receiveStamp
  rw [h.epoch]

theorem observe_error {registry : LinkRegistry} {observedAt : Timestamp} {received : ReceiveStamp}
    (hvalid : validateLinkIdentity link = .ok ()) (h : registry.observe link observedAt received = .error status) :
    status = linkCapacityReached registry.limits := by
  have hroom : ¬ registry.Room link.id := by
    intro hroom
    rw [observe_eq_ok.mpr ⟨hvalid, hroom, rfl⟩] at h
    cases h
  unfold LinkRegistry.observe at h
  rw [hvalid, Outcome.ok_bind] at h
  cases hcurrent : registry.current[link.id]? with
  | some current => exact absurd (room_of_some hcurrent) hroom
  | none =>
    have hfull : registry.limits.maxLinks ≤ registry.current.size := by
      by_contra hspace
      exact hroom (.inr (Nat.lt_of_not_le hspace))
    rw [hcurrent] at h
    simp only [refuseNewLink, refuseIf, if_pos hfull] at h
    exact (Except.error.inj h).symm

theorem Reachable.linkBounds (h : Reachable fabric) :
    1 ≤ fabric.links.limits.maxLinks ∧ 1 ≤ fabric.links.limits.maxGenerationsPerLink := by
  rw [h.vetted.linkLimits]
  exact ⟨h.sound.limits.links, h.sound.limits.generationsPerLink⟩

section
variable (h : Apart link a b)
include h

theorem Apart.plan (hplan : a.planIngest io observation = .error status)
    (hroom : status ≠ linkCapacityReached a.config.limits) : b.planIngest io observation = .error status := by
  unfold planIngest at hplan ⊢
  rw [h.isOpen, h.toTwin.checkObservation]
  cases hopen : (refuseIf (a.isOpen = false) fabricClosed.code fabricClosed.message) with
  | error closed =>
    rw [hopen] at hplan
    exact hplan
  | ok =>
    rw [hopen, Outcome.ok_bind] at hplan
    cases hcheck : a.checkObservation io.now observation with
    | error refused =>
      rw [hcheck] at hplan
      exact hplan
    | ok =>
      rw [hcheck, Outcome.ok_bind] at hplan
      have hvalid := (validateObservation_spec (checkObservation_valid hcheck)).1
      refine absurd (observe_error hvalid hplan) ?_
      rw [h.reachable.vetted.linkLimits]
      exact hroom

theorem Apart.ingest (hlink : observation.link = link) (hafter : (a.ingest io observation).2.links.AtMost link)
    (hroom : (a.ingest io observation).1 ≠ .error (linkCapacityReached a.config.limits)) :
    (b.ingest io observation).1 = (a.ingest io observation).1 ∧
      Apart link (a.ingest io observation).2 (b.ingest io observation).2 := by
  have hreachable : Reachable (a.ingest io observation).2 := .called (.ingest observation) io h.reachable
  have hreachable' : Reachable (b.ingest io observation).2 := .called (.ingest observation) io h.reachable'
  cases hplan : a.planIngest io observation with
  | error status =>
    obtain ⟨hanswer, honly, hlinks, hevidence⟩ := ingest_of_refused h.unjournaled hplan
    have hplan' : b.planIngest io observation = .error status := by
      refine h.plan hplan fun hfull => hroom ?_
      rw [hanswer, hfull]
    obtain ⟨hanswer', honly', hlinks', hevidence'⟩ := ingest_of_refused h.unjournaled' hplan'
    refine ⟨hanswer'.trans hanswer.symm, h.toTwin.ingested honly honly', hreachable, hreachable', ?_, ?_, ?_, ?_, ?_⟩
    · rw [hlinks, h.drained]
    · rw [hlinks', h.drained']
    · rw [hlinks, hlinks', h.known]
    · rw [hlinks']
      exact h.sole
    · rw [hevidence, hevidence']
      exact h.evidence
  | ok links =>
    obtain ⟨hanswer, honly, hlinks, hevidence⟩ := ingest_of_planned h.reachable.sound h.unjournaled hplan
    obtain ⟨hopen, hcheck, hobserve⟩ := planIngest_eq_ok.mp hplan
    subst hlink
    have hvalid := (validateObservation_spec (checkObservation_valid hcheck)).1
    obtain ⟨links', hobserve', hsole, hdrained⟩ := h.sole.observe hvalid h.reachable'.linkBounds.1 h.drained'
      observation.observedAt (a.receiveStamp io.now)
    have hplan' : b.planIngest io observation = .ok links' := by
      rw [planIngest_eq_ok, h.isOpen, h.toTwin.checkObservation, h.toTwin.receiveStamp]
      exact ⟨hopen, hcheck, hobserve'⟩
    obtain ⟨hanswer', honly', hlinks', hevidence'⟩ := ingest_of_planned h.reachable'.sound h.unjournaled' hplan'
    have hbefore : a.links.AtMost observation.link := by
      rw [hlinks] at hafter
      exact observe_current_le hobserve hafter
    have hkept : observation.link ∉ links.evicted := by
      obtain ⟨-, -, rfl⟩ := observe_eq_ok.mp hobserve
      exact h.reachable.sound.links.reach_evicted observation.link observation.observedAt _ h.reachable.linkBounds.2
        h.drained
    have hdropped := h.evidence.dropOthers fun dropped hmem hsame => hkept (hsame ▸ hmem)
    obtain ⟨hsame, hagree⟩ := hdropped.append faithful_unnumbered rfl
      (show EvidenceRecord.unnumbered ⟨observation, a.receiveStamp io.now, b.nextOrdinal, .live⟩ =
        EvidenceRecord.unnumbered ⟨observation, a.receiveStamp io.now, a.nextOrdinal, .live⟩ from rfl)
      (show StreamState.SameTracking observation
        (counterConfigFor a.policies.current.document observation.metric)
        (counterConfigFor a.policies.current.document observation.metric) from fun _ _ => rfl)
    have hinto : b.ingestInto io observation links' =
        b.evidence.append observation (a.receiveStamp io.now) b.nextOrdinal .live
          (counterConfigFor a.policies.current.document observation.metric) := by
      unfold ingestInto
      rw [hdrained, h.toTwin.receiveStamp, h.policies]
      rfl
    refine ⟨?_, h.toTwin.ingested honly honly', hreachable, hreachable', ?_, ?_, ?_, ?_, ?_⟩
    · rw [hanswer, hanswer', hinto, fences_of_atMost hbefore, fences_of_atMost h.sole.atMost, hsame]
      rfl
    · rw [hlinks]
    · rw [hlinks']
    · have hmem : observation.link ∈ links.links := mem_of_observe hobserve (.inr rfl)
      have hmem' : observation.link ∈ links'.links := mem_of_observe hobserve' (.inr rfl)
      rw [hlinks, hlinks', Bool.eq_iff_iff, LinkRegistry.contains_iff, LinkRegistry.contains_iff]
      exact ⟨fun _ => hmem, fun _ => hmem'⟩
    · rw [hlinks']
      exact hsole
    · rw [hevidence, hevidence', hinto]
      exact hagree

theorem Apart.ingestOther (hlink : observation.link ≠ link) (hafter : (a.ingest io observation).2.links.AtMost link) :
    Apart link (a.ingest io observation).2 b := by
  have hreachable : Reachable (a.ingest io observation).2 := .called (.ingest observation) io h.reachable
  have hself : EvidenceOnly b b := ⟨rfl, rfl, rfl, rfl, rfl, rfl, rfl⟩
  cases hplan : a.planIngest io observation with
  | error status =>
    obtain ⟨-, honly, hlinks, hevidence⟩ := ingest_of_refused h.unjournaled hplan
    refine ⟨h.toTwin.ingested honly hself, hreachable, h.reachable', ?_, h.drained', ?_, h.sole, ?_⟩
    · rw [hlinks, h.drained]
    · rw [hlinks, h.known]
    · rw [hevidence]
      exact h.evidence
  | ok links =>
    obtain ⟨-, honly, hlinks, hevidence⟩ := ingest_of_planned h.reachable.sound h.unjournaled hplan
    obtain ⟨-, -, hobserve⟩ := planIngest_eq_ok.mp hplan
    rw [hlinks] at hafter
    have hkept := h.reachable.sound.links.not_evicted hobserve hlink hafter h.drained
    have hdropped := h.evidence.dropOthers fun dropped hmem hsame => hkept (hsame ▸ hmem)
    refine ⟨h.toTwin.ingested honly hself, hreachable, h.reachable', ?_, h.drained', ?_, h.sole, ?_⟩
    · rw [hlinks]
    · rw [hlinks, h.known]
      exact (observe_contains hobserve hlink hkept).symm
    · rw [hevidence]
      exact hdropped.appendOther hlink _ _ _ _

theorem Apart.elsewhere (call : FabricCall) (io : CallIo) (hingest : ∀ observation, call ≠ .ingest observation)
    (hregister : ∀ link observedAt, call ≠ .registerLink link observedAt)
    (hadvance : ∀ link reason, call ≠ .advanceLinkGeneration link reason)
    (htwin : Twin (a.respond (call, io)).2 (b.respond (call, io)).2) :
    Apart link (a.respond (call, io)).2 (b.respond (call, io)).2 := by
  have ha := a.respond_elsewhere call io hingest hregister hadvance
  have hb := b.respond_elsewhere call io hingest hregister hadvance
  refine ⟨htwin, .called call io h.reachable, .called call io h.reachable', ?_, ?_, ?_, ?_, ?_⟩
  · rw [ha.links, h.drained]
  · rw [hb.links, h.drained']
  · rw [ha.links, hb.links, h.known]
  · rw [hb.links]
    exact h.sole
  · rw [ha.evidence, hb.evidence]
    exact h.evidence

theorem Apart.declareCapability (io : CallIo) (declaration : CapabilityDeclaration) :
    (b.declareCapability io declaration).1 = (a.declareCapability io declaration).1 ∧
      Apart link (a.declareCapability io declaration).2 (b.declareCapability io declaration).2 := by
  obtain ⟨hanswer, htwin⟩ := h.toTwin.declareCapability io declaration
  exact ⟨hanswer, h.elsewhere (.declareCapability declaration) io (by simp) (by simp) (by simp) htwin⟩

theorem Apart.publishPolicy (io : CallIo) (document : PolicyDocument) :
    (b.publishPolicy io document).1 = (a.publishPolicy io document).1 ∧
      Apart link (a.publishPolicy io document).2 (b.publishPolicy io document).2 := by
  obtain ⟨hanswer, htwin⟩ := h.toTwin.publishPolicy io document
  exact ⟨hanswer, h.elsewhere (.publishPolicy document) io (by simp) (by simp) (by simp) htwin⟩

end

end Step

/-! ## Two runs -/

def Reports : FabricCall → Prop
  | .declareCapability _ | .publishPolicy _ | .ingest _ => True
  | .registerLink _ _ | .advanceLinkGeneration _ _ => False

/-- Everything but the evidence of other link identities. -/
def concerns (link : LinkIdentity) : FabricCall × CallIo → Bool
  | (.ingest observation, _) => observation.link = link
  | _ => true

/-- A step on the way to a state in which the link is current, and not one that finds no room for the link. -/
structure Roomy (limits : FabricLimits) (link : LinkIdentity) (fabric : Fabric) (event : FabricCall × CallIo) : Prop where
  reports : Reports event.1
  atMost : (machine.step fabric event).2.links.AtMost link
  room : ∀ observation, event.1 = .ingest observation → observation.link = link →
    (machine.step fabric event).1 ≠ .error (linkCapacityReached limits)

section Runs
variable {link : LinkIdentity} {a b : Fabric}

theorem replyWith_error {α : Type} {reply : α → FabricReply} {result : Outcome α × Fabric} {status : Status}
    (h : result.1 = .error status) : (replyWith reply result).1 = .error status := by
  unfold replyWith
  rw [h]
  rfl

variable {event : FabricCall × CallIo} (fabric : Fabric)

theorem Apart.step (h : Apart link a b) (hconcerns : concerns link event = true)
    (hroomy : Roomy a.config.limits link a event) : (machine.step b event).1 = (machine.step a event).1 ∧
      Apart link (machine.step a event).2 (machine.step b event).2 := by
  obtain ⟨call, io⟩ := event
  cases call with
  | declareCapability declaration =>
    obtain ⟨hanswer, hnext⟩ := h.declareCapability io declaration
    exact ⟨congrArg (Except.map FabricReply.acknowledged) hanswer, hnext⟩
  | publishPolicy document =>
    obtain ⟨hanswer, hnext⟩ := h.publishPolicy io document
    exact ⟨congrArg (Except.map FabricReply.published) hanswer, hnext⟩
  | ingest observation =>
    have hlink : observation.link = link := of_decide_eq_true hconcerns
    obtain ⟨hanswer, hnext⟩ := h.ingest hlink hroomy.atMost fun hfull =>
      hroomy.room observation rfl hlink (replyWith_error hfull)
    exact ⟨congrArg (Except.map FabricReply.ingested) hanswer, hnext⟩
  | registerLink other observedAt => exact hroomy.reports.elim
  | advanceLinkGeneration other reason => exact hroomy.reports.elim

theorem Apart.skip (h : Apart link a b) (hconcerns : concerns link event = false)
    (hroomy : Roomy a.config.limits link a event) : Apart link (machine.step a event).2 b := by
  obtain ⟨call, io⟩ := event
  cases call with
  | ingest observation => exact h.ingestOther (of_decide_eq_false hconcerns) hroomy.atMost
  | declareCapability | publishPolicy | registerLink | advanceLinkGeneration => cases hconcerns

theorem respond_current_le (event : FabricCall × CallIo) {id : Text} {current : UInt64}
    (h : fabric.links.current[id]? = some current) :
    ∃ later, (machine.step fabric event).2.links.current[id]? = some later ∧ current ≤ later := by
  have hmoves := RunsBy.anyCall fabric event.1 event.2
  refine FabricState.StepsBy.invariant (P := fun state => ∃ later, state.links.current[id]? = some later ∧ current ≤ later)
    (fun change before after _ hbefore hchanged => ?_) ⟨current, h, UInt64.le_refl _⟩ hmoves.steps
  obtain ⟨earlier, hearlier, hle⟩ := hbefore
  have hcall : ∀ (call : LinkCall) (links : LinkRegistry), call.apply before.links = .ok links →
      ∃ later, links.current[id]? = some later ∧ current ≤ later := by
    intro call links hlinks
    obtain ⟨later, hlater, hmore⟩ := step_current_le before.links call hearlier
    refine ⟨later, ?_, UInt64.le_trans hle hmore⟩
    simpa only [linkMachine, hlinks] using hlater
  cases hchanged with
  | observe hobserve => exact hcall (.observe _ _ _) _ hobserve
  | advance hadvance => exact hcall (.advance _ _ _) _ hadvance
  | declare | publish | restore | append | seed | drain => exact ⟨earlier, hearlier, hle⟩

theorem respond_config (event : FabricCall × CallIo) : (machine.step fabric event).2.config = fabric.config :=
  (RunsBy.anyCall fabric event.1 event.2).config

end Runs

theorem initializeFabric_disabled {fabric : Fabric} {io : InitializeIo} {disk : Disk}
    (hplain : fabric.config.journal.enabled = false) (hopened : (fabric.initializeFabric io disk).1 = .ok ()) :
    (fabric.initializeFabric io disk).2.links = fabric.links ∧
      (fabric.initializeFabric io disk).2.evidence = fabric.evidence ∧
      (fabric.initializeFabric io disk).2.journal = fabric.journal ∧
      (fabric.initializeFabric io disk).2.config = fabric.config := by
  unfold initializeFabric at hopened ⊢
  split at hopened
  · cases hopened
  · unfold bringUp at hopened ⊢
    split at hopened
    · cases hopened
    · rw [if_neg (by simp [hplain])]
      exact ⟨rfl, rfl, rfl, rfl⟩

variable {start : Fabric} {link : LinkIdentity}

theorem apart_of_empty {limits : FabricLimits} (hreachable : Reachable start) (hlinks : start.links = .empty limits)
    (hjournal : start.journal = none) (link : LinkIdentity) : Apart link start start := by
  have hdrained : start.links.evicted = [] := by rw [hlinks]; rfl
  have hcurrent : start.links.current = ∅ := by rw [hlinks]; rfl
  exact ⟨.refl hjournal, hreachable, hreachable, hdrained, hdrained, rfl, .inl hcurrent, .refl _ _ _⟩

theorem Apart.findings {a b : Fabric} (h : Apart link a b) (now : ClockReading) {query : QualityQuery}
    (hquery : query.link = link) :
    (b.query now query).map LinkQualityReport.findings = (a.query now query).map LinkQualityReport.findings := by
  subst hquery
  have halike : ReadsAlike query.link (a.contextAt now) (b.contextAt now) := by
    refine .of_agree ?_ ?_ rfl h.epoch h.evidence
    · show b.capabilities.viewForLink query.link = a.capabilities.viewForLink query.link
      rw [h.capabilities]
    · show b.policies.current.document = a.policies.current.document
      rw [h.policies]
  cases hvalid : validateLinkIdentity query.link with
  | error status =>
    have hrefused : ∀ fabric : Fabric, fabric.query now query = .error status := by
      intro fabric
      rw [Fabric.query, hvalid]
      rfl
    rw [hrefused, hrefused]
  | ok =>
    have hanswered : ∀ fabric : Fabric, fabric.query now query = .ok (classifyLink (fabric.contextAt now) query) := by
      intro fabric
      rw [Fabric.query, hvalid]
      rfl
    rw [hanswered, hanswered]
    simp only [Except.map, halike.findings]

theorem isolated_of_empty (hreachable : Reachable start) (hlinks : start.links = .empty start.config.limits)
    (hjournal : start.journal = none) {events : List (FabricCall × CallIo)}
    (hreports : ∀ event ∈ events, Reports event.1)
    (hcurrent : (machine.final start events).links.isCurrent link = true)
    (hroom : ∀ entry ∈ machine.trace start events, ∀ observation, entry.1.1 = .ingest observation →
      observation.link = link → entry.2 ≠ .error (linkCapacityReached start.config.limits)) :
    machine.trace start (events.filter (concerns link)) =
        (machine.trace start events).filter (fun entry => concerns link entry.1) ∧
      Apart link (machine.final start events) (machine.final start (events.filter (concerns link))) := by
  have hatMost : (machine.final start events).links.AtMost link := by
    intro current hfound
    have hsame : (machine.final start events).links.current[link.id]? = some link.generation :=
      of_decide_eq_true hcurrent
    rw [hsame, Option.some.injEq] at hfound
    exact UInt64.le_of_eq hfound.symm
  have hback : ∀ (state : Fabric) (event : FabricCall × CallIo), (machine.step state event).2.links.AtMost link →
      state.links.AtMost link := by
    intro state event hafter current hfound
    obtain ⟨later, hlater, hle⟩ := respond_current_le state event hfound
    exact UInt64.le_trans hle (hafter later hlater)
  have hbehind := machine.meets_of_final (P := fun state => state.links.AtMost link) hback hatMost
  have hanswered := machine.meets_of_trace (P := fun event answer => ∀ observation, event.1 = .ingest observation →
    observation.link = link → answer ≠ .error (linkCapacityReached start.config.limits)) hroom
  have hmeets := machine.meets_and (machine.meets_of_forall start hreports) (machine.meets_and hbehind hanswered)
  -- The configuration is carried along, since the answer to a full registry names its limit.
  obtain ⟨htrace, hfinal⟩ := machine.purged (R := fun a b => Apart link a b ∧ a.config = start.config)
    (fun a b event (hconcerns : concerns link event = true) hrelated hmet => by
      have hroomy : Roomy a.config.limits link a event := ⟨hmet.1, hmet.2.1, hrelated.2 ▸ hmet.2.2⟩
      obtain ⟨hanswer, hnext⟩ := hrelated.1.step hconcerns hroomy
      exact ⟨hanswer, hnext, (respond_config a event).trans hrelated.2⟩)
    (fun a b event hconcerns hrelated hmet => by
      have hroomy : Roomy a.config.limits link a event := ⟨hmet.1, hmet.2.1, hrelated.2 ▸ hmet.2.2⟩
      exact ⟨hrelated.1.skip hconcerns hroomy, (respond_config a event).trans hrelated.2⟩)
    ⟨apart_of_empty hreachable hlinks hjournal link, rfl⟩ hmeets
  exact ⟨htrace, hfinal.1⟩

/-- In a run without a journal, leaving out the evidence of every other link identity changes neither an answer to the
other calls nor what a query finds about a link generation that ends up current. -/
theorem links_isolated {config : FabricConfig} {derived : UInt64} {publishedAt : Int64} {io : InitializeIo} {disk : Disk}
    {start : Fabric} (hplain : config.journal.enabled = false)
    (hopened : (new config derived publishedAt).initializeFabric io disk = (.ok (), start)) {link : LinkIdentity}
    {events : List (FabricCall × CallIo)} (hreports : ∀ event ∈ events, Reports event.1)
    (hcurrent : (machine.final start events).links.isCurrent link = true)
    (hroom : ∀ entry ∈ machine.trace start events, ∀ observation, entry.1.1 = .ingest observation →
      observation.link = link → entry.2 ≠ .error (linkCapacityReached config.limits))
    (now : ClockReading) {query : QualityQuery} (hquery : query.link = link) :
    machine.trace start (events.filter (concerns link)) =
        (machine.trace start events).filter (fun entry => concerns link entry.1) ∧
      ((machine.final start (events.filter (concerns link))).query now query).map LinkQualityReport.findings =
        ((machine.final start events).query now query).map LinkQualityReport.findings := by
  have hok : ((new config derived publishedAt).initializeFabric io disk).1 = .ok () := congrArg Prod.fst hopened
  have hreachable : Reachable start := by
    have hstart : Reachable ((new config derived publishedAt).initializeFabric io disk).2 := .opened _ _ _ _ _ hok
    rwa [hopened] at hstart
  obtain ⟨hlinks, -, hjournal, hconfig⟩ := initializeFabric_disabled hplain hok
  rw [hopened] at hlinks hjournal hconfig
  have hconfig' : start.config = config := hconfig
  obtain ⟨htrace, hapart⟩ := isolated_of_empty hreachable (by rw [hconfig']; exact hlinks) hjournal hreports hcurrent
    (by rw [hconfig']; exact hroom)
  exact ⟨htrace, hapart.findings now hquery⟩

/-! ## Two links -/

theorem pair_of_fst {α β : Type} {pair : α × β} {first : α} (h : pair.1 = first) : pair = (first, pair.2) := by
  rw [← h]

def degreesOf (link : LinkIdentity) (sequence : UInt64) : Observation := { degrees sequence .one with link := link }

def mixedRun : List (FabricCall × CallIo) :=
  [(.declareCapability thermometer, { now := instant 1 }),
    (.ingest (degreesOf ⟨text "a", 1⟩ 1), { now := instant 2 }),
    (.ingest (degreesOf ⟨text "a", 2⟩ 1), { now := instant 3 }),
    (.ingest (degreesOf ⟨text "b", 1⟩ 1), { now := instant 4 }),
    (.ingest (degreesOf ⟨text "a", 2⟩ 2), { now := instant 5 })]

theorem mixedRun_isolated :
    (mixedRun.filter (concerns ⟨text "a", 2⟩)).length = 3 ∧
      ((machine.final gaugeStart (mixedRun.filter (concerns ⟨text "a", 2⟩))).query (instant 6)
          { link := ⟨text "a", 2⟩ }).map LinkQualityReport.findings =
        ((machine.final gaugeStart mixedRun).query (instant 6) { link := ⟨text "a", 2⟩ }).map
          LinkQualityReport.findings := by
  have hopened : (new gaugeConfig 1 0).initializeFabric {} ⟨none, none⟩ = (.ok (), gaugeStart) := by
    rw [gaugeStart]
    exact pair_of_fst (by decide +kernel)
  have hreports : ∀ event ∈ mixedRun, Reports event.1 := by
    intro event hevent
    simp only [mixedRun, List.mem_cons, List.not_mem_nil, or_false] at hevent
    rcases hevent with rfl | rfl | rfl | rfl | rfl <;> trivial
  have haccepted : ∀ entry ∈ machine.trace gaugeStart mixedRun, entry.2.isOk = true := by decide +kernel
  exact ⟨by decide +kernel, (links_isolated rfl hopened hreports (by decide +kernel)
    (fun entry hentry _ _ _ hfull => by simpa [hfull, Except.isOk, Except.toBool] using haccepted entry hentry) (instant 6)
    rfl).2⟩

end Fabric

end Lqf
