import LinkQualityFabric.Persist.Bodies
import LinkQualityFabric.Runtime.Reachable

/-! Refused calls and the state they leave.

Every operation has error exits behind the point where it has changed the registries: the encoding of a
declaration or a policy, the append of the record, and the refusal of the evidence of a link that was just
registered. A refused call leaves the state as it was exactly when none of them is taken there. -/
namespace Lqf
open Foundations
open Std (ExtTreeMap)
set_option autoImplicit false

/-- What a refusal must not change: declarations, policy generations, link generations with their marks,
and every stream up to its statistics. -/
structure SameView (before after : FabricState) : Prop where
  capabilities : after.capabilities.entries = before.capabilities.entries
  policies : after.policies.generations = before.policies.generations
  current : after.links.current = before.links.current
  marks : ∀ link, after.links.marked link = before.links.marked link
  streams : ∀ key : StreamKey,
    (after.evidence.streams[key]?).map EvidenceStore.content = (before.evidence.streams[key]?).map EvidenceStore.content

theorem SameView.of_eq {before after : FabricState} (h : after = before) : SameView before after := by
  subst h
  exact ⟨rfl, rfl, rfl, fun _ => rfl, fun _ => rfl⟩

namespace CapabilityRegistry

theorem declare_changes {registry result : CapabilityRegistry} {catalog : MetricCatalog}
    {declaration : CapabilityDeclaration} (h : registry.declare catalog declaration = .ok result) :
    result.entries ≠ registry.entries := by
  obtain ⟨-, rfl⟩ := declare_eq_ok h
  rw [declare, Outcome.check_bind_eq_ok] at h
  have hstored := h.2
  intro hsame
  have hfind : registry.entries[scopedKey declaration]? = some declaration := by
    rw [← hsame]
    simp [store]
  rw [hfind] at hstored
  simp [replace, fail] at hstored

end CapabilityRegistry

namespace PolicyRegistry

theorem push_changes (registry : PolicyRegistry) {record : PolicyGenerationRecord}
    (h : record.stamp.generation = registry.current.stamp.generation + 1) :
    (registry.push record).generations ≠ registry.generations := by
  intro hsame
  have hcurrent : registry.current = record := by
    rw [← current_push registry record]
    simp only [current, hsame]
  rw [← hcurrent] at h
  have hshift := congrArg (fun value => value - registry.current.stamp.generation) h
  simp at hshift

end PolicyRegistry

namespace Fabric

/-! ## The conditions -/

def Encodes {α : Type} (codec : Codec α) (value : α) (fabric : Fabric) : Prop :=
  ∃ body, codec.encodeBody fabric.codecLimits value = .ok body

/-- Streams of evicted generations wait to be dropped. -/
def Pending (fabric : Fabric) : Prop :=
  ∃ key : StreamKey, key ∈ fabric.evidence.streams ∧ key.link ∈ fabric.links.evicted

/-- The evidence store behind the eviction that the link of the observation causes. -/
def drainedEvidence (observation : Observation) (received : ReceiveStamp) (fabric : Fabric) : EvidenceStore :=
  (fabric.links.reach observation.link observation.observedAt received).evicted.foldl EvidenceStore.dropLink
    fabric.evidence

def Stores (observation : Observation) (received : ReceiveStamp) (fabric : Fabric) : Prop :=
  (fabric.drainedEvidence observation received).Admits observation.streamKey ∧
    EvidenceStore.Answers (fabric.drainedEvidence observation received).limits
      ((fabric.drainedEvidence observation received).streamAt observation.streamKey) observation

/-- None of the error exits behind a change of the state is taken. -/
def Committed (fabric : Fabric) : FabricCall × CallIo → Prop
  | (.declareCapability declaration, _) =>
    (∃ capabilities, fabric.capabilities.declare fabric.catalog declaration = .ok capabilities) →
      fabric.Encodes Codec.capabilityDeclaration declaration
  | (.registerLink link observedAt, io) =>
    validateLinkIdentity link = .ok () → fabric.links.contains link = false → fabric.links.Room link.id →
      fabric.Takes io.record (Codec.linkObservedBody.size ⟨link, observedAt, fabric.receiveStamp io.now⟩)
  | (.advanceLinkGeneration link reason, io) =>
    validateLinkIdentity link = .ok () → fabric.links.Room link.id →
      fabric.links.Newer link ∨ fabric.links.current[link.id]? = some link.generation ∧ fabric.Pending →
      fabric.Takes io.record (Codec.generationBody.size
        ⟨link.id, link.generation, ⟨io.now.wallNanos, true⟩, fabric.receiveStamp io.now, reason⟩)
  | (.publishPolicy document, io) =>
    fabric.policyChecks.validate document = .ok () →
      fabric.Encodes Codec.policyGenerationRecord (generationRecord document ⟨io.now.wallNanos, true⟩
        (fabric.policies.current.stamp.generation + 1))
  | (.ingest observation, io) =>
    fabric.checkObservation io.now observation = .ok () → fabric.links.Room observation.link.id →
      (fabric.links.contains observation.link = false → fabric.Takes io.link (Codec.linkObservedBody.size
        ⟨observation.link, observation.observedAt, fabric.receiveStamp io.now⟩)) ∧
      (fabric.links.contains observation.link = false ∨ fabric.Pending →
        fabric.Stores observation (fabric.receiveStamp io.now))

def Atomic {α : Type} (before : Fabric) (result : Outcome α × Fabric) : Prop :=
  ∀ status, result.1 = .error status → SameView before.toFabricState result.2.toFabricState

section Atomic
variable {α : Type} {before after : Fabric}

theorem atomic_of_state (outcome : Outcome α) (h : after.toFabricState = before.toFabricState) :
    Atomic before (outcome, after) := fun _ _ => .of_eq h

theorem atomic_of_ok (value : α) (after : Fabric) : Atomic before ((.ok value : Outcome α), after) := by
  intro status hstatus
  cases hstatus

theorem atomic_of_answer {result : Outcome α × Fabric} (h : ∃ value, result.1 = .ok value) : Atomic before result := by
  obtain ⟨value, hvalue⟩ := h
  intro status hstatus
  rw [hvalue] at hstatus
  cases hstatus

theorem not_atomic {status : Status} (h : ¬ SameView before.toFabricState after.toFabricState) :
    ¬ Atomic before ((.error status : Outcome α), after) := fun hatomic => h (hatomic status rfl)

theorem atomic_unless_full {full : Bool} {refused rest : Outcome α × Fabric} {condition : Prop}
    (hrefused : refused.2.toFabricState = before.toFabricState) (h : Atomic before rest ↔ condition) :
    Atomic before (if full then refused else rest) ↔ (full = false → condition) := by
  cases full with
  | true => exact iff_of_true (atomic_of_state _ hrefused) nofun
  | false => simpa using h

end Atomic

theorem journalAppend_atomic_iff (before changed : Fabric) (io : AppendIo) (kind : JournalRecordKind) (body : Bytes) :
    Atomic before (changed.journalAppend io kind body) ↔
      SameView before.toFabricState changed.toFabricState ∨ changed.Takes io body.length := by
  have hstate := (changed.journalAppend_only io kind body).state
  by_cases htakes : changed.Takes io body.length
  · exact iff_of_true (atomic_of_answer ⟨(), journalAppend_ok_iff.mpr htakes⟩) (.inr htakes)
  · obtain ⟨status, hstatus⟩ := journalAppend_refused kind htakes
    simp only [htakes, or_false]
    unfold Atomic
    rw [hstate]
    exact ⟨fun hatomic => hatomic status hstatus, fun hview _ _ => hview⟩

/-! ## Capabilities and policies -/

variable {observation : Observation} {u : Unit} (fabric : Fabric) (io : CallIo) (link : LinkIdentity)

theorem declare_atomic_iff (declaration : CapabilityDeclaration) :
    Atomic fabric (fabric.declareLocked io declaration) ↔
      (fabric.queueFull = false → fabric.Committed (.declareCapability declaration, io)) := by
  unfold declareLocked
  refine atomic_unless_full rfl ?_
  cases hdeclare : fabric.capabilities.declare fabric.catalog declaration with
  | error status =>
    refine iff_of_true ?_ ?_
    · dsimp only
      split
      · exact atomic_of_ok _ _
      · exact atomic_of_state _ rfl
    · rintro ⟨capabilities, hok⟩
      rw [hdeclare] at hok
      cases hok
  | ok capabilities =>
    dsimp only
    unfold journalDeclaration
    split
    · next status hencode =>
      refine iff_of_false (not_atomic fun hview => ?_) fun hcommitted => ?_
      · exact CapabilityRegistry.declare_changes hdeclare hview.capabilities
      · obtain ⟨body, hbody⟩ := hcommitted ⟨capabilities, hdeclare⟩
        have hclash := hencode.symm.trans hbody
        cases hclash
    · next body hencode => exact iff_of_true (atomic_of_ok _ _) fun _ => ⟨body, hencode⟩

theorem publish_atomic_iff (document : PolicyDocument) : Atomic fabric (fabric.publishLocked io document) ↔
      (fabric.queueFull = false → fabric.Committed (.publishPolicy document, io)) := by
  unfold publishLocked
  refine atomic_unless_full rfl ?_
  cases hpublish : fabric.policies.publish fabric.policyChecks document ⟨io.now.wallNanos, true⟩ with
  | error status =>
    refine iff_of_true (atomic_of_state _ rfl) fun hvalid => ?_
    rw [PolicyRegistry.publish, hvalid] at hpublish
    cases hpublish
  | ok result =>
    obtain ⟨hvalid, rfl⟩ := PolicyRegistry.publish_eq_ok.mp hpublish
    dsimp only
    unfold journalPolicy
    split
    · next status hencode =>
      refine iff_of_false (not_atomic fun hview => ?_) fun hcommitted => ?_
      · exact fabric.policies.push_changes rfl hview.policies
      · obtain ⟨body, hbody⟩ := hcommitted hvalid
        have hclash := hencode.symm.trans hbody
        cases hclash
    · next body hencode => exact iff_of_true (atomic_of_ok _ _) fun _ => ⟨body, hencode⟩

/-! ## Links -/

theorem codecLimits_wide : Codec.Wide fabric.codecLimits := ⟨le_max_right _ _, rfl⟩

section Links
variable {fabric : Fabric} {link : LinkIdentity} {observedAt : Timestamp} {received : ReceiveStamp}

variable {body : Bytes} {links : LinkRegistry}

theorem not_contains_marked (h : fabric.links.contains link = false) : fabric.links.marked link = none := by
  have hmem : link ∉ fabric.links.links := by
    rw [← LinkRegistry.contains_iff, h]
    exact Bool.false_ne_true
  rwa [LinkRegistry.mem_links_iff, not_not] at hmem

theorem observe_registers (h : fabric.links.observe link observedAt received = .ok links) :
    links.marked link ≠ none := by
  obtain ⟨-, -, rfl⟩ := LinkRegistry.observe_eq_ok.mp h
  rw [LinkRegistry.noteEvidence_marked, if_pos rfl]
  exact Option.some_ne_none _

end Links

theorem register_atomic_iff (observedAt : Timestamp) : Atomic fabric (fabric.registerLocked io link observedAt) ↔
      (fabric.queueFull = false → fabric.Committed (.registerLink link observedAt, io)) := by
  unfold registerLocked
  cases hcontains : fabric.links.contains link with
  | true =>
    refine iff_of_true (atomic_of_ok _ _) fun _ _ hnot => ?_
    rw [hcontains] at hnot
    cases hnot
  | false =>
    rw [if_neg Bool.false_ne_true]
    refine atomic_unless_full rfl ?_
    cases hplan : fabric.planRegistration link observedAt (fabric.receiveStamp io.now) with
    | error status =>
      refine iff_of_true (atomic_of_state _ rfl) fun hvalid _ hroom => ?_
      obtain ⟨body, hbody⟩ := Codec.linkObservedBody_encodes fabric.codecLimits_wide
        ⟨link, observedAt, fabric.receiveStamp io.now⟩ hvalid
      have hok := planRegistration_eq_ok.mpr ⟨hbody, LinkRegistry.observe_eq_ok.mpr ⟨hvalid, hroom, rfl⟩⟩
      rw [hplan] at hok
      cases hok
    | ok plan =>
      obtain ⟨body, links⟩ := plan
      obtain ⟨hbody, hobserve⟩ := planRegistration_eq_ok.mp hplan
      obtain ⟨hvalid, hroom, -⟩ := LinkRegistry.observe_eq_ok.mp hobserve
      have hview : ¬ SameView fabric.toFabricState (fabric.registered links).toFabricState := by
        intro hview
        have hmark : links.marked link = fabric.links.marked link := hview.marks link
        exact observe_registers hobserve (hmark.trans (not_contains_marked hcontains))
      rw [journalAppend_atomic_iff, Codec.encodeBody_length hbody]
      simp only [hview, false_or]
      exact ⟨fun htakes _ _ _ => htakes, fun hcommitted => hcommitted hvalid hcontains hroom⟩

theorem drain_streams_iff :
    (∀ key : StreamKey, ((fabric.links.evicted.foldl EvidenceStore.dropLink fabric.evidence).streams[key]?).map
        EvidenceStore.content = (fabric.evidence.streams[key]?).map EvidenceStore.content) ↔ ¬ fabric.Pending := by
  simp only [EvidenceStore.dropLinks_getElem?, Pending, not_exists, not_and]
  refine forall_congr' fun key => ?_
  rw [ExtTreeMap.mem_iff_isSome_getElem?]
  by_cases hevicted : key.link ∈ fabric.links.evicted
  · cases fabric.evidence.streams[key]? <;> simp [hevicted]
  · simp [hevicted]

theorem advance_atomic_iff (reason : ReasonCode) : Atomic fabric (fabric.advanceLocked io link reason) ↔
      (fabric.queueFull = false → fabric.Committed (.advanceLinkGeneration link reason, io)) := by
  unfold advanceLocked
  refine atomic_unless_full rfl ?_
  cases hplan : fabric.planAdvance link reason io.now with
  | error status =>
    refine iff_of_true (atomic_of_state _ rfl) fun hvalid hroom hchange => ?_
    obtain ⟨body, hbody⟩ := Codec.generationBody_encodes fabric.codecLimits_wide
      ⟨link.id, link.generation, ⟨io.now.wallNanos, true⟩, fabric.receiveStamp io.now, reason⟩
      (Codec.validateLinkIdentity_length hvalid)
    have hadvance : ∃ links, fabric.links.advanceGeneration link ⟨io.now.wallNanos, true⟩
        (fabric.receiveStamp io.now) = .ok links := by
      rcases hchange with hnewer | ⟨hsame, -⟩
      · exact ⟨_, LinkRegistry.advanceGeneration_eq_ok.mpr ⟨hvalid, hroom, .inr ⟨hnewer, rfl⟩⟩⟩
      · exact ⟨_, LinkRegistry.advanceGeneration_eq_ok.mpr ⟨hvalid, hroom, .inl ⟨hsame, rfl⟩⟩⟩
    obtain ⟨links, hlinks⟩ := hadvance
    have hok := planAdvance_eq_ok.mpr ⟨hbody, hlinks⟩
    rw [hplan] at hok
    cases hok
  | ok plan =>
    obtain ⟨body, links⟩ := plan
    obtain ⟨hbody, hadvance⟩ := planAdvance_eq_ok.mp hplan
    obtain ⟨hvalid, hroom, hcases⟩ := LinkRegistry.advanceGeneration_eq_ok.mp hadvance
    rw [journalAppend_atomic_iff, Codec.encodeBody_length hbody]
    rcases hcases with ⟨hsame, rfl⟩ | ⟨hnewer, rfl⟩
    · have hnot : ¬ fabric.links.Newer link := fun hnewer => UInt64.lt_irrefl _ (hnewer _ hsame)
      have hview : SameView fabric.toFabricState (fabric.advanced fabric.links).toFabricState ↔ ¬ fabric.Pending := by
        rw [← drain_streams_iff]
        exact ⟨fun hview => hview.streams, fun hstreams => ⟨rfl, rfl, rfl, fun _ => rfl, hstreams⟩⟩
      rw [hview]
      constructor
      · rintro (hidle | htakes) _ _ (hnewer | ⟨-, hpending⟩)
        · exact absurd hnewer hnot
        · exact absurd hpending hidle
        · exact htakes
        · exact htakes
      · intro hcommitted
        by_cases hpending : fabric.Pending
        · exact .inr (hcommitted hvalid hroom (.inr ⟨hsame, hpending⟩))
        · exact .inl hpending
    · have hview : ¬ SameView fabric.toFabricState (fabric.advanced (fabric.links.enterGeneration link
          ⟨io.now.wallNanos, true⟩ (fabric.receiveStamp io.now))).toFabricState := by
        intro hview
        have hcurrent : (fabric.links.current.insert link.id link.generation)[link.id]? =
            fabric.links.current[link.id]? := congrArg (fun map => map[link.id]?) hview.current
        rw [ExtTreeMap.getElem?_insert_self] at hcurrent
        exact UInt64.lt_irrefl _ (hnewer _ hcurrent.symm)
      simp only [hview, false_or]
      exact ⟨fun htakes _ _ _ => htakes, fun hcommitted => hcommitted hvalid hroom (.inl hnewer)⟩

/-! ## Evidence -/

theorem Sound.originBytes {fabric : Fabric} (h : fabric.Sound) : fabric.observationLimits.maxOriginBytes ≤ 4096 :=
  h.limits.stringBytes.2

variable {descriptor : Option MetricDescriptor}

theorem storeEvidence_eq {fabric : Fabric} (hsound : fabric.Sound) (io : CallIo)
    (hvalid : validateObservation observation descriptor fabric.observationLimits = .ok u) {received : ReceiveStamp}
    (fenced : Bool) {outcome : IngestOutcome} {evidence : EvidenceStore}
    (hstored : fabric.evidence.append observation received fabric.nextOrdinal .live
      (counterConfigFor fabric.policies.current.document observation.metric) = (.ok outcome, evidence)) :
    ∃ body, Codec.evidenceRecord.encodeBody fabric.codecLimits ⟨observation, received, fabric.nextOrdinal, .live⟩ =
        .ok body ∧ fabric.storeEvidence io observation received fenced = finishIngest io outcome fenced
          (({ fabric with evidence := evidence } : Fabric).journalAppend io.record .evidence body) := by
  obtain ⟨body, hbody⟩ := Codec.evidenceRecord_encodes fabric.codecLimits_wide
    ⟨observation, received, fabric.nextOrdinal, .live⟩ hsound.originBytes hvalid
  have hencode : Codec.evidenceRecord.encodeBody ({ fabric with evidence := evidence } : Fabric).codecLimits
      ⟨observation, received, fabric.nextOrdinal, .live⟩ = .ok body := hbody
  refine ⟨body, hbody, ?_⟩
  unfold storeEvidence
  simp only [hstored]
  unfold journalEvidence
  simp only [hencode]

theorem storeEvidence_answers {fabric : Fabric} (hsound : fabric.Sound) (io : CallIo)
    (hvalid : validateObservation observation descriptor fabric.observationLimits = .ok u) (received : ReceiveStamp)
    (fenced : Bool) (hstores : fabric.evidence.Admits observation.streamKey ∧ EvidenceStore.Answers
      fabric.evidence.limits (fabric.evidence.streamAt observation.streamKey) observation) :
    ∃ outcome, (fabric.storeEvidence io observation received fenced).1 = .ok outcome := by
  obtain ⟨outcome, houtcome⟩ := (fabric.evidence.append_ok_iff observation received fabric.nextOrdinal .live
    (counterConfigFor fabric.policies.current.document observation.metric)).mpr hstores
  obtain ⟨body, -, hresult⟩ := storeEvidence_eq hsound io hvalid fenced (Prod.ext houtcome rfl)
  rw [hresult]
  unfold finishIngest
  split
  · exact ⟨_, rfl⟩
  · split <;> exact ⟨_, rfl⟩

theorem storeEvidence_refuses (observation : Observation) (received : ReceiveStamp) (fenced : Bool)
    (hstores : ¬ (fabric.evidence.Admits observation.streamKey ∧ EvidenceStore.Answers
      fabric.evidence.limits (fabric.evidence.streamAt observation.streamKey) observation)) :
    ∃ status evidence, fabric.storeEvidence io observation received fenced =
        (.error status, { fabric with evidence := evidence }.rejectObservation) ∧
      ∀ key : StreamKey, (evidence.streams[key]?).map EvidenceStore.content =
        (fabric.evidence.streams[key]?).map EvidenceStore.content := by
  unfold storeEvidence
  cases happend : fabric.evidence.append observation received fabric.nextOrdinal .live
      (counterConfigFor fabric.policies.current.document observation.metric) with
  | mk answer evidence =>
    cases answer with
    | ok outcome =>
      exact absurd ((EvidenceStore.append_ok_iff _ _ _ _ _ _).mp ⟨outcome, congrArg Prod.fst happend⟩) hstores
    | error status =>
      refine ⟨status, evidence, rfl, fun key => ?_⟩
      have hcontent := EvidenceStore.append_error_content (congrArg Prod.fst happend) key
      rw [happend] at hcontent
      exact hcontent

/-- A refusal does not come from the journal of a sound fabric, so no answer of it is passed over. -/
theorem journalNewLink_eq {fabric : Fabric} (hsound : fabric.Sound) (io : CallIo) (body : LinkObservedBody)
    (hlink : validateLinkIdentity body.link = .ok ()) :
    ∃ encoded, Codec.linkObservedBody.encodeBody fabric.codecLimits body = .ok encoded ∧
      fabric.journalNewLink io body = fabric.journalAppend io.link .linkObserved encoded := by
  obtain ⟨encoded, hencoded⟩ := Codec.linkObservedBody_encodes fabric.codecLimits_wide body hlink
  have havoids := journalAppend_avoids_refused io.link .linkObserved encoded hsound.journal
  refine ⟨encoded, hencoded, ?_⟩
  unfold journalNewLink
  simp only [hencoded]
  cases hresult : fabric.journalAppend io.link .linkObserved encoded with
  | mk answer after =>
    rw [hresult] at havoids
    cases answer with
    | ok => rfl
    | error status => simp only [if_neg (havoids status rfl)]

section Ingest
variable {fabric : Fabric} {io : CallIo} {observation : Observation}
variable {received : ReceiveStamp} {links : LinkRegistry}

theorem Sound.observed (hsound : fabric.Sound) {link : LinkIdentity} {observedAt : Timestamp}
    (hobserve : fabric.links.observe link observedAt received = .ok links) : (fabric.observed links).Sound :=
  (hsound.drainEvicted (hsound.links.observe hobserve)).same rfl rfl rfl

section
variable (hsound : fabric.Sound)
  (hvalid : validateObservation observation (fabric.catalog.find observation.metric) fabric.observationLimits = .ok ())
include hsound hvalid

theorem ingest_registered_atomic_iff (hmem : observation.link ∈ fabric.links.links) (received : ReceiveStamp)
    (fenced : Bool) :
    Atomic fabric ((fabric.observed ((fabric.links.reach observation.link observation.observedAt received).noteEvidence
        observation.link observation.observedAt received)).storeEvidence io observation received fenced) ↔
      (fabric.Pending → fabric.Stores observation received) := by
  have hreach := hsound.links.reach_of_mem hmem observation.observedAt received
  have hdrained : fabric.drainedEvidence observation received =
      fabric.links.evicted.foldl EvidenceStore.dropLink fabric.evidence := by rw [drainedEvidence, hreach]
  rw [hreach]
  have hobserved :
      (fabric.observed (fabric.links.noteEvidence observation.link observation.observedAt received)).Sound := by
    have hlinks := hsound.links.noteEvidence (hsound.links.links _ hmem) observation.observedAt received
    exact (hsound.drainEvicted hlinks).same rfl rfl rfl
  by_cases hstores : fabric.Stores observation received
  · refine iff_of_true (atomic_of_answer ?_) fun _ => hstores
    refine storeEvidence_answers hobserved io hvalid received fenced ?_
    unfold Stores at hstores
    rw [hdrained] at hstores
    exact hstores
  · have hnot := hstores
    unfold Stores at hnot
    rw [hdrained] at hnot
    obtain ⟨status, evidence, hresult, hcontent⟩ := storeEvidence_refuses
      (fabric.observed (fabric.links.noteEvidence observation.link observation.observedAt received)) io observation
      received fenced hnot
    rw [hresult]
    simp only [hstores, imp_false]
    rw [← drain_streams_iff]
    constructor
    · intro hatomic key
      exact (hcontent key).symm.trans ((hatomic status rfl).streams key)
    · rintro hstreams _ _
      exact ⟨rfl, rfl, rfl, LinkRegistry.noteEvidence_of_mem hmem observation.observedAt received,
        fun key => (hcontent key).trans (hstreams key)⟩

/-- Evidence of a link that was just registered: every error exit leaves the registration behind. -/
theorem ingest_new_atomic_iff (hnew : fabric.links.contains observation.link = false)
    (hobserve : fabric.links.observe observation.link observation.observedAt received = .ok links) (fenced : Bool) :
    Atomic fabric ((fabric.observed links).ingestNewLink io observation received fenced) ↔
      fabric.Takes io.link (Codec.linkObservedBody.size ⟨observation.link, observation.observedAt, received⟩) ∧
        fabric.Stores observation received := by
  have hchanged : ∀ after : FabricState, after.links = links.takeEvicted.2 → ¬ SameView fabric.toFabricState after := by
    intro after hafter hview
    have hmark := hview.marks observation.link
    rw [hafter] at hmark
    exact observe_registers hobserve (hmark.trans (not_contains_marked hnew))
  have hobserved := hsound.observed hobserve
  have hevidence : (fabric.observed links).evidence = fabric.drainedEvidence observation received := by
    obtain ⟨-, -, rfl⟩ := LinkRegistry.observe_eq_ok.mp hobserve
    rfl
  obtain ⟨body, hbody, hlinked⟩ := journalNewLink_eq hobserved io
    ⟨observation.link, observation.observedAt, received⟩ (validateObservation_spec hvalid).1
  have honly := (fabric.observed links).journalAppend_only io.link .linkObserved body
  have hsound' := hobserved.of_only honly
  have htakes : (fabric.observed links).Takes io.link body.length ↔
      ((fabric.observed links).journalAppend io.link .linkObserved body).1 = .ok () := journalAppend_ok_iff.symm
  change fabric.Takes io.link body.length ↔ _ at htakes
  unfold ingestNewLink
  rw [hlinked, ← Codec.encodeBody_length hbody, htakes]
  cases hresult : (fabric.observed links).journalAppend io.link .linkObserved body with
  | mk answer after =>
    rw [hresult] at honly hsound'
    cases answer with
    | error status =>
      refine iff_of_false (not_atomic ?_) fun h => by cases h.1
      exact hchanged _ (congrArg FabricState.links honly.state)
    | ok =>
      have hevidence : after.evidence = fabric.drainedEvidence observation received :=
        (congrArg FabricState.evidence honly.state).trans hevidence
      have hvalid' : validateObservation observation (fabric.catalog.find observation.metric)
          after.observationLimits = .ok () := by
        rw [observationLimits, honly.config]
        exact hvalid
      by_cases hstores : fabric.Stores observation received
      · refine iff_of_true (atomic_of_answer ?_) ⟨rfl, hstores⟩
        refine storeEvidence_answers hsound' io hvalid' received fenced ?_
        rw [hevidence]
        exact hstores
      · obtain ⟨status, evidence, hrefused, -⟩ := storeEvidence_refuses after io observation received
          fenced (by rw [hevidence]; exact hstores)
        dsimp only
        rw [hrefused]
        refine iff_of_false (not_atomic ?_) fun h => hstores h.2
        exact hchanged _ (congrArg FabricState.links honly.state)

end

end Ingest

theorem ingest_atomic_iff {fabric : Fabric} (hsound : fabric.Sound) (io : CallIo) (observation : Observation) :
    Atomic fabric (fabric.ingestLocked io observation) ↔
      (fabric.queueFull = false → fabric.Committed (.ingest observation, io)) := by
  unfold ingestLocked
  cases hcheck : fabric.checkObservation io.now observation with
  | error status =>
    refine iff_of_true (atomic_of_state _ rfl) fun _ hchecked => ?_
    rw [hcheck] at hchecked
    cases hchecked
  | ok =>
    have hvalid := checkObservation_valid hcheck
    have hlink := (validateObservation_spec hvalid).1
    refine atomic_unless_full rfl ?_
    unfold ingestChecked
    by_cases hroom : fabric.links.Room observation.link.id
    · have hobserve : fabric.links.observe observation.link observation.observedAt (fabric.receiveStamp io.now) =
          .ok _ := LinkRegistry.observe_eq_ok.mpr ⟨hlink, hroom, rfl⟩
      rw [hobserve]
      dsimp only
      cases hcontains : fabric.links.contains observation.link with
      | true =>
        rw [if_pos rfl, ingest_registered_atomic_iff hsound hvalid (LinkRegistry.contains_iff.mp hcontains)]
        simp [Committed, hcheck, hroom, hcontains]
      | false =>
        rw [if_neg Bool.false_ne_true, ingest_new_atomic_iff hsound hvalid hcontains hobserve]
        simp [Committed, hcheck, hroom, hcontains]
    · cases hobserve : fabric.links.observe observation.link observation.observedAt (fabric.receiveStamp io.now) with
      | ok links => exact absurd (LinkRegistry.observe_eq_ok.mp hobserve).2.1 hroom
      | error status =>
        exact iff_of_true (atomic_of_state _ rfl) fun _ h => absurd h hroom

/-- In every reachable state, a refused call leaves the state as it was if and only if none of the error
exits behind a change is taken. -/
theorem refusal_atomic_iff {fabric : Fabric} (h : Reachable fabric) (call : FabricCall) (io : CallIo) :
    Atomic fabric (fabric.respond (call, io)) ↔
      (fabric.passes call = .ok () → (fabric.letWriterRun io.writer).queueFull = false →
        (fabric.letWriterRun io.writer).Committed (call, io)) := by
  have hsound := (h.wrote io.writer).sound
  have hreply : ∀ {α : Type} (reply : α → FabricReply) (result : Outcome α × Fabric),
      Atomic fabric (replyWith reply result) ↔ Atomic (fabric.letWriterRun io.writer) result := by
    rintro α reply ⟨answer, after⟩
    cases answer <;> simp [Atomic, replyWith, letWriterRun, Except.map]
  rw [respond_eq]
  cases hpasses : fabric.passes call with
  | error status => exact iff_of_true (atomic_of_state _ rfl) (fun h => by cases h)
  | ok =>
    simp only [forall_const]
    cases call with
    | declareCapability declaration => exact (hreply _ _).trans (declare_atomic_iff _ io declaration)
    | registerLink link observedAt => exact (hreply _ _).trans (register_atomic_iff _ io link observedAt)
    | advanceLinkGeneration link reason => exact (hreply _ _).trans (advance_atomic_iff _ io link reason)
    | publishPolicy document => exact (hreply _ _).trans (publish_atomic_iff _ io document)
    | ingest observation => exact (hreply _ _).trans (ingest_atomic_iff hsound io observation)

/-- An advance to generation 0 is refused and changes nothing. -/
theorem zero_generation_refused :
    (∃ status, (smallFabric.respond (.advanceLinkGeneration ⟨text "a", 0⟩ .none, { now := ⟨0, 0⟩ })).1 =
        .error status) ∧
      Atomic smallFabric (smallFabric.respond (.advanceLinkGeneration ⟨text "a", 0⟩ .none, { now := ⟨0, 0⟩ })) := by
  refine ⟨⟨⟨.invalid, text "link generation must be at least 1"⟩, by decide +kernel⟩, ?_⟩
  refine (refusal_atomic_iff smallFabric_reachable _ _).mpr fun _ _ hvalid => ?_
  exact absurd hvalid (by decide +kernel)

/-- A link with an id of 22 bytes is registered although its record is refused. -/
theorem long_link_registered :
    Reachable smallFabric ∧ ¬ Atomic smallFabric
      (smallFabric.respond (.registerLink ⟨text "rack-7-port-13-optical", 1⟩ ⟨0, true⟩, { now := ⟨0, 0⟩ })) := by
  refine ⟨smallFabric_reachable, fun hatomic => ?_⟩
  have hview := hatomic ⟨.limitExceeded, text "journal record exceeds the record limit"⟩ (by decide +kernel)
  exact absurd (hview.marks ⟨text "rack-7-port-13-optical", 1⟩) (by decide +kernel)

end Fabric

end Lqf
