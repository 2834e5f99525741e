import LinkQualityFabric.Runtime.Reachable
import LinkQualityFabric.Store.Declarations
import LinkQualityFabric.Store.Mirror
import LinkQualityFabric.Store.Restore

/-! What the registries of every reachable fabric hold has been validated and lies under its own key. -/
namespace Lqf
open Std (ExtTreeMap LawfulEqCmp)
set_option autoImplicit false

/-! ## Policy generations -/

namespace PolicyRegistry
variable {checks : PolicyChecks} {registry : PolicyRegistry}

theorem recoverRecord_mem {result : PolicyRegistry} {record : PolicyGenerationRecord}
    (h : registry.recoverRecord checks record = .ok result) : ∀ other ∈ result.generations,
      other ∈ registry.generations ∨ other = rehash record ∧ checks.validate record.document = .ok () := by
  intro other hother
  unfold recoverRecord at h
  split at h
  · next restored hrestored =>
    obtain rfl := Except.ok.inj h
    rw [restore, Outcome.check_bind_eq_ok] at hrestored
    obtain ⟨hvalid, hrest⟩ := hrestored
    dsimp only at hrest
    split at hrest
    · split at hrest <;> cases hrest
    · rw [Outcome.check_bind_eq_ok] at hrest
      rw [← Except.ok.inj hrest.2] at hother
      exact (mem_push hother).imp_right fun hnew => ⟨hnew, hvalid⟩
  · split at h
    · rw [← Except.ok.inj h] at hother
      exact .inl hother
    · cases h

theorem publish_mem {document : PolicyDocument} {publishedAt : Timestamp}
    {result : PolicyGenerationRecord × PolicyRegistry} (h : registry.publish checks document publishedAt = .ok result) :
    ∀ other ∈ result.2.generations,
      other ∈ registry.generations ∨ other = result.1 ∧ checks.validate other.document = .ok () := by
  intro other hother
  obtain ⟨hvalid, rfl⟩ := publish_eq_ok.mp h
  refine (mem_push hother).imp_right fun hnew => ⟨hnew, ?_⟩
  rw [hnew]
  exact hvalid

end PolicyRegistry

/-! ## Streams -/

namespace StreamState

theorem seed_held (window : ℕ) (stream : StreamState) (entries : List (UInt64 × UInt64)) :
    (stream.seed window entries).held = stream.held := by
  show (entries.foldl EvidenceStore.seedEntry stream).latestFed.toList ++
    (entries.foldl EvidenceStore.seedEntry stream).recent = _
  obtain ⟨hrecent, hlatest⟩ := seedEntries_records entries stream
  rw [hlatest, hrecent]
  rfl

end StreamState

namespace EvidenceStore
variable {store : EvidenceStore}

theorem Represented.drops (h : store.Represented) (dropped : List LinkIdentity) :
    (dropped.foldl dropLink store).Represented := by
  induction dropped generalizing store with
  | nil => exact h
  | cons link rest ih => exact ih (h.drop link)

end EvidenceStore

/-! ## Links -/

namespace LinkRegistry
variable {registry result : LinkRegistry} {link : LinkIdentity} {observedAt : Timestamp} {received : ReceiveStamp}

def Named (registry : LinkRegistry) : Prop :=
  ∀ (key : LinkIdentity) (state : LinkState), registry.links[key]? = some state →
    state.identity = key ∧ validateLinkIdentity key = .ok ()

theorem named_empty (limits : FabricLimits) : (empty limits).Named := by
  intro key state hstate
  simp [empty] at hstate

theorem Named.enterGeneration (h : registry.Named) (hvalid : validateLinkIdentity link = .ok ()) (at_ : Timestamp)
    (received : ReceiveStamp) : (registry.enterGeneration link at_ received).Named := by
  intro key state hstate
  unfold LinkRegistry.enterGeneration at hstate
  simp only [ExtTreeMap.getElem?_insertIfNew] at hstate
  split at hstate
  · next hnew =>
    obtain rfl := LawfulEqCmp.eq_of_compare hnew.1
    obtain rfl := Option.some.inj hstate
    exact ⟨rfl, hvalid⟩
  · rw [getElem?_foldl_erase, ExtTreeMap.getElem?_map] at hstate
    split at hstate
    · cases hstate
    · obtain ⟨before, hbefore, rfl⟩ := Option.map_eq_some_iff.mp hstate
      obtain ⟨hidentity, hkey⟩ := h key before hbefore
      refine ⟨?_, hkey⟩
      unfold supersedeOlder
      split <;> exact hidentity

theorem Named.noteEvidence (h : registry.Named) (hvalid : validateLinkIdentity link = .ok ()) (observedAt : Timestamp)
    (received : ReceiveStamp) : (registry.noteEvidence link observedAt received).Named := by
  intro key state hstate
  unfold LinkRegistry.noteEvidence at hstate
  simp only [ExtTreeMap.getElem?_insert] at hstate
  split at hstate
  · next hkey =>
    obtain rfl := LawfulEqCmp.eq_of_compare hkey
    refine ⟨?_, hvalid⟩
    rw [← Option.some.inj hstate]
    cases hfind : registry.links[link]? with
    | none => rfl
    | some before => exact (h link before hfind).1
  · exact h key state hstate

theorem Named.observe (h : registry.Named) (hresult : registry.observe link observedAt received = .ok result) :
    result.Named := by
  obtain ⟨hvalid, -, rfl⟩ := observe_eq_ok.mp hresult
  refine Named.noteEvidence ?_ hvalid observedAt received
  unfold reach
  split
  · exact h
  · split
    · exact h.enterGeneration hvalid observedAt received
    · exact h

theorem Named.advanceGeneration (h : registry.Named)
    (hresult : registry.advanceGeneration link observedAt received = .ok result) : result.Named := by
  obtain ⟨hvalid, -, ⟨-, rfl⟩ | ⟨-, rfl⟩⟩ := advanceGeneration_eq_ok.mp hresult
  · exact h
  · exact h.enterGeneration hvalid observedAt received

end LinkRegistry

/-! ## The invariant -/

namespace FabricState

structure Admitted (config : FabricConfig) (catalog : MetricCatalog) (key : StreamKey) (record : EvidenceRecord) :
    Prop where
  key : record.observation.streamKey = key
  valid : validateObservation record.observation (catalog.find record.observation.metric)
    (CapabilityRegistry.observationLimits config.limits) = .ok ()
  origin : record.origin ≠ .count

structure Vetted (config : FabricConfig) (catalog : MetricCatalog) (state : FabricState) : Prop where
  capabilityLimits : state.capabilities.limits = config.limits
  linkLimits : state.links.limits = config.limits
  evidenceLimits : state.evidence.limits = config.limits
  declarations : ∀ (key : ScopedKey) (declaration : CapabilityDeclaration),
    state.capabilities.entries[key]? = some declaration → CapabilityRegistry.scopedKey declaration = key ∧
      validateCapability declaration catalog (CapabilityRegistry.observationLimits config.limits)
        config.limits.maxMetricsPerCapability = .ok ()
  links : state.links.Named
  linksFormed : state.links.WellFormed
  evidence : state.evidence.Represented
  records : state.evidence.Each fun key stream => ∀ record ∈ stream.held, Admitted config catalog key record

variable {config : FabricConfig} {catalog : MetricCatalog} {before after : FabricState}

theorem Vetted.declare (h : Vetted config catalog before) {declaration : CapabilityDeclaration}
    {capabilities : CapabilityRegistry} (hdeclare : before.capabilities.declare catalog declaration = .ok capabilities) :
    Vetted config catalog { before with capabilities := capabilities } := by
  obtain ⟨hvalid, rfl⟩ := CapabilityRegistry.declare_eq_ok hdeclare
  rw [h.capabilityLimits] at hvalid
  refine { h with declarations := ?_ }
  intro key found hfound
  simp only [CapabilityRegistry.store, ExtTreeMap.getElem?_insert] at hfound
  split at hfound
  · next hkey =>
    obtain rfl := LawfulEqCmp.eq_of_compare hkey
    obtain rfl := Option.some.inj hfound
    exact ⟨rfl, hvalid⟩
  · exact h.declarations key found hfound

theorem Vetted.append (h : Vetted config catalog before) (hwindow : config.limits.maxDedupWindow < 2 ^ 64)
    {observation : Observation} {received : ReceiveStamp} {ordinal : UInt64} {origin : EvidenceOrigin}
    (horigin : origin ≠ .count) (hvalid : validateObservation observation (catalog.find observation.metric)
      (CapabilityRegistry.observationLimits config.limits) = .ok ()) (counters : CounterContinuityConfig) :
    Vetted config catalog
      { before with evidence := (before.evidence.append observation received ordinal origin counters).2 } := by
  refine { h with
    evidenceLimits := (EvidenceStore.append_limits ..).trans h.evidenceLimits
    evidence := h.evidence.append (h.evidenceLimits ▸ hwindow) ..
    records := ?_ }
  refine h.records.append observation received ordinal origin counters fun stream hstream record hrecord => ?_
  rcases StreamState.mem_held_append hrecord with hearlier | rfl
  · rcases hstream with rfl | hstream
    · exact absurd hearlier List.not_mem_nil
    · exact hstream record hearlier
  · exact ⟨rfl, hvalid, horigin⟩

theorem Vetted.changed (h : Vetted config catalog before) (hwindow : config.limits.maxDedupWindow < 2 ^ 64)
    {change : Change} (hknown : change.KnownOrigin) (hchanged : Changed config catalog change before after) :
    Vetted config catalog after := by
  cases hchanged with
  | declare hdeclare => exact h.declare hdeclare
  | publish | restore =>
    exact { h with }
  | observe hobserve =>
    exact { h with
      linkLimits := (LinkRegistry.observe_limits hobserve).trans h.linkLimits
      links := h.links.observe hobserve
      linksFormed := h.linksFormed.observe hobserve }
  | advance hadvance =>
    exact { h with
      linkLimits := (LinkRegistry.advanceGeneration_limits hadvance).trans h.linkLimits
      links := h.links.advanceGeneration hadvance
      linksFormed := h.linksFormed.advanceGeneration hadvance }
  | drain =>
    exact { h with
      evidenceLimits := (EvidenceStore.dropLinks_limits _ _).trans h.evidenceLimits
      linksFormed := h.linksFormed.takeEvicted
      evidence := h.evidence.drops _
      records := h.records.drops _ }
  | append hvalid received ordinal origin => exact h.append hwindow hknown hvalid _
  | seed _ key entries =>
    refine { h with
      evidenceLimits := (EvidenceStore.seedDedupWindow_limits ..).trans h.evidenceLimits
      evidence := h.evidence.seed key entries
      records := ?_ }
    refine h.records.seed key entries fun stream hstream => ?_
    rw [StreamState.seed_held]
    rcases hstream with rfl | hstream
    · exact fun _ hrecord => absurd hrecord List.not_mem_nil
    · exact hstream

theorem vetted_new (config : FabricConfig) (catalog : MetricCatalog) (derived : UInt64) (publishedAt : Int64) :
    Vetted config catalog (Fabric.new config derived publishedAt).toFabricState where
  capabilityLimits := rfl
  linkLimits := rfl
  evidenceLimits := rfl
  declarations := by
    intro key declaration hfound
    simp [Fabric.new, CapabilityRegistry.empty] at hfound
  links := LinkRegistry.named_empty _
  linksFormed := LinkRegistry.wellFormed_empty _
  evidence := EvidenceStore.represented_empty _
  records := EvidenceStore.each_empty _

end FabricState

namespace Fabric
open FabricState

variable {fabric : Fabric}

theorem Sound.dedupWindow (h : fabric.Sound) : fabric.config.limits.maxDedupWindow < 2 ^ 64 := by
  have hle := h.limits.dedupWindowLe
  omega

theorem RunsBy.vetted {allowed : Change → Prop} {before after : Fabric} (hmoves : RunsBy allowed before after)
    (hallowed : ∀ change, allowed change → change.KnownOrigin)
    (hwindow : before.config.limits.maxDedupWindow < 2 ^ 64)
    (h : Vetted before.config before.catalog before.toFabricState) :
    Vetted after.config after.catalog after.toFabricState := by
  rw [hmoves.config, hmoves.catalog]
  exact hmoves.steps.invariant
    (fun change _ _ hchange hbefore hchanged => hbefore.changed hwindow (hallowed change hchange) hchanged) h

theorem Reachable.vetted (h : Reachable fabric) : Vetted fabric.config fabric.catalog fabric.toFabricState := by
  refine (h.induct (P := fun fabric => fabric.Sound ∧ Vetted fabric.config fabric.catalog fabric.toFabricState) ?_ ?_).2
  · intro config derived publishedAt hchecked _
    exact ⟨⟨hchecked, LinkRegistry.wellFormed_empty _, by simp [new]⟩, vetted_new config _ derived publishedAt⟩
  · rintro before after ⟨hsound, hbefore⟩ hmoves
    exact ⟨hsound.moves hmoves, hmoves.vetted (fun _ hchange => hchange) hsound.dedupWindow hbefore⟩

theorem Reachable.policies (h : Reachable fabric) :
    ∀ record ∈ fabric.policies.generations, fabric.policyChecks.validate record.document = .ok () := by
  refine h.induct (P := fun fabric => ∀ record ∈ fabric.policies.generations,
    fabric.policyChecks.validate record.document = .ok ()) ?_ ?_
  · intro config derived publishedAt _ hvalid record hrecord
    obtain rfl := List.mem_singleton.mp hrecord
    exact hvalid
  · intro before after hbefore hmoves
    have hchecks : after.policyChecks = before.policyChecks := by
      unfold policyChecks
      rw [hmoves.config, hmoves.catalog]
    rw [hchecks]
    refine hmoves.steps.invariant (P := fun state => ∀ record ∈ state.policies.generations,
      before.policyChecks.validate record.document = .ok ()) (fun _ _ _ _ hstate hchanged record hrecord => ?_) hbefore
    cases hchanged with
    | publish hpublish =>
      rcases PolicyRegistry.publish_mem hpublish record hrecord with hearlier | ⟨-, hvalid⟩
      · exact hstate record hearlier
      · exact hvalid
    | restore hrestore =>
      rcases PolicyRegistry.recoverRecord_mem hrestore record hrecord with hearlier | ⟨rfl, hvalid⟩
      · exact hstate record hearlier
      · exact hvalid
    | _ => exact hstate record hrecord

/-- Whatever a reachable fabric holds has passed the checks of its intake, also what a journal brought back. -/
theorem held_admitted {fabric : Fabric} (h : Reachable fabric) :
    Vetted fabric.config fabric.catalog fabric.toFabricState ∧
      ∀ record ∈ fabric.policies.generations, fabric.policyChecks.validate record.document = .ok () :=
  ⟨h.vetted, h.policies⟩

def declaringFabric : Fabric :=
  (smallFabric.respond (.declareCapability (CapabilityRegistry.revised 1 none "temperature"), { now := ⟨0, 0⟩ })).2

theorem declaration_admitted : declaringFabric.capabilities.declarations.length = 1 ∧
    Vetted declaringFabric.config declaringFabric.catalog declaringFabric.toFabricState := by
  refine ⟨by decide +kernel, (held_admitted ?_).1⟩
  exact .called _ _ smallFabric_reachable

end Fabric

end Lqf
