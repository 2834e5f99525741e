import LinkQualityFabric.Foundations.Run
import LinkQualityFabric.Store.LinkRegistry

/-! Runs of the link registry.

Whether a link generation is superseded follows from the current generation of its identity alone, in whatever order
the generations arrive. How many are retained does not: the bound is enforced on the list of generations that were
current, and a late generation gets a state without entering that list. -/
namespace Lqf
open Foundations
open Std (ExtTreeMap LawfulEqCmp)
set_option autoImplicit false

/-- A call that names a link generation. -/
inductive LinkCall where
  | observe (link : LinkIdentity) (observedAt : Timestamp) (received : ReceiveStamp)
  | advance (link : LinkIdentity) (at_ : Timestamp) (received : ReceiveStamp)

namespace LinkCall

def link : LinkCall → LinkIdentity
  | observe link _ _ => link
  | advance link _ _ => link

def apply (registry : LinkRegistry) : LinkCall → Outcome LinkRegistry
  | observe link observedAt received => registry.observe link observedAt received
  | advance link at_ received => registry.advanceGeneration link at_ received

end LinkCall

namespace LinkRegistry

def linkMachine : Machine LinkRegistry LinkCall (Outcome Unit) where
  step registry call :=
    match call.apply registry with
    | .error status => (.error status, registry)
    | .ok after => (.ok (), after)

/-- The generations of an identity in the successful calls of a trace. -/
def given (id : Text) (trace : List (LinkCall × Outcome Unit)) : List UInt64 :=
  trace.filterMap fun entry =>
    match entry.2 with
    | .error _ => none
    | .ok _ => if entry.1.link.id = id then some entry.1.link.generation else none

def retained (registry : LinkRegistry) (id : Text) : List LinkIdentity :=
  registry.links.keys.filter fun link => link.id = id

variable {registry : LinkRegistry} {link : LinkIdentity} {at_ : Timestamp} {received : ReceiveStamp}

/-! ## Supersession -/

/-- The mark of a generation that is not ahead of the current one. -/
def markUnder (current generation : UInt64) : Option UInt64 :=
  if generation < current then some current else none

/-- Every mark follows from the current generation, and the current generation has a state. -/
structure Superseding (registry : LinkRegistry) : Prop extends WellFormed registry where
  exact : ∀ key mark current, registry.marked key = some mark → registry.current[key.id]? = some current →
    mark = markUnder current key.generation
  present : ∀ id current, registry.current[id]? = some current → (⟨id, current⟩ : LinkIdentity) ∈ registry.links

variable {current : UInt64} {after : LinkRegistry} (limits : FabricLimits) (id : Text)
  (past : List (LinkCall × Outcome Unit)) (call : LinkCall)

theorem superseding_empty : (empty limits).Superseding := by
  refine ⟨wellFormed_empty limits, fun key mark current hmark _ => ?_, fun id current hcurrent => ?_⟩
  · simp [marked, empty] at hmark
  · simp [empty] at hcurrent

theorem WellFormed.marked_of_newer (h : registry.WellFormed) (hnewer : registry.Newer link) :
    registry.marked link = none := by
  by_contra hmarked
  obtain ⟨current, hcurrent, hle⟩ := h.links link (mem_links_iff.mpr hmarked)
  exact absurd (hnewer current hcurrent) (UInt64.not_lt.mpr hle)

theorem lateMark_eq (h : registry.current[link.id]? = some current) :
    registry.lateMark link = markUnder current link.generation := by
  unfold lateMark
  rw [h]
  rfl

theorem Superseding.noteEvidence (h : registry.Superseding) (hbehind : registry.Behind link)
    (observedAt : Timestamp) (received : ReceiveStamp) :
    (registry.noteEvidence link observedAt received).Superseding := by
  refine ⟨h.toWellFormed.noteEvidence hbehind observedAt received, fun key mark current hmark hcurrent => ?_,
    fun id current hcurrent => ?_⟩
  · rw [noteEvidence_marked] at hmark
    by_cases hkey : link = key
    · rw [if_pos hkey, Option.some.injEq] at hmark
      subst hkey hmark
      cases hold : registry.marked link with
      | none => exact lateMark_eq hcurrent
      | some mark => exact h.exact link mark current hold hcurrent
    · rw [if_neg hkey] at hmark
      exact h.exact key mark current hmark hcurrent
  · rw [mem_links_iff, noteEvidence_marked]
    by_cases hkey : link = ⟨id, current⟩
    · rw [if_pos hkey]
      exact Option.some_ne_none _
    · rw [if_neg hkey, ← mem_links_iff]
      exact h.present id current hcurrent

theorem WellFormed.enterGeneration_marked (h : registry.WellFormed) (hnewer : registry.Newer link) (at_ : Timestamp)
    (received : ReceiveStamp) (key : LinkIdentity) : (registry.enterGeneration link at_ received).marked key =
      if link = key then some none else if key ∈ (registry.listed link).take (registry.excess link) then none
      else (registry.marked key).map fun mark => if key.id = link.id then some link.generation else mark := by
  rw [LinkRegistry.enterGeneration_marked]
  by_cases hkey : link = key
  · subst hkey
    simp [h.marked_of_newer hnewer]
  · simp only [if_neg hkey]
    by_cases hdropped : key ∈ (registry.listed link).take (registry.excess link)
    · simp only [if_pos hdropped]
    · simp only [if_neg hdropped]
      cases hmark : registry.marked key with
      | none => rfl
      | some mark =>
        have hlt : key.id = link.id → key.generation < link.generation := by
          intro hid
          obtain ⟨current, hcurrent, hle⟩ := h.links key (mem_links_iff.mpr (by simp [hmark]))
          exact UInt64.lt_of_le_of_lt hle (hnewer current (hid ▸ hcurrent))
        by_cases hid : key.id = link.id
        · simp [hid, hlt hid]
        · simp [hid]

theorem enterGeneration_current : (registry.enterGeneration link at_ received).current[id]? =
      if link.id = id then some link.generation else registry.current[id]? := by
  simp [enterGeneration, ExtTreeMap.getElem?_insert]

theorem WellFormed.id_of_listed (h : registry.WellFormed) {key : LinkIdentity} (hkey : key ∈ registry.listed link) :
    key.id = link.id := by
  rcases listed_subset hkey with rfl | hknown
  · rfl
  · exact (h.generations link.id key hknown).1

theorem Superseding.enterGeneration (h : registry.Superseding) (hnewer : registry.Newer link) (at_ : Timestamp)
    (received : ReceiveStamp) : (registry.enterGeneration link at_ received).Superseding := by
  refine ⟨h.toWellFormed.enterGeneration hnewer at_ received, fun key mark current hmark hcurrent => ?_,
    fun id current hcurrent => ?_⟩
  · rw [h.toWellFormed.enterGeneration_marked hnewer] at hmark
    rw [enterGeneration_current] at hcurrent
    by_cases hkey : link = key
    · subst hkey
      rw [if_pos rfl, Option.some.injEq] at hmark hcurrent
      rw [← hmark, ← hcurrent, markUnder, if_neg (UInt64.lt_irrefl _)]
    · rw [if_neg hkey] at hmark
      split at hmark
      · cases hmark
      obtain ⟨old, hold, rfl⟩ := Option.map_eq_some_iff.mp hmark
      by_cases hid : key.id = link.id
      · obtain ⟨before, hbefore, hle⟩ := h.links key (mem_links_iff.mpr (by simp [hold]))
        have hlt := UInt64.lt_of_le_of_lt hle (hnewer before (hid ▸ hbefore))
        rw [if_pos hid.symm, Option.some.injEq] at hcurrent
        rw [if_pos hid, ← hcurrent, markUnder, if_pos hlt]
      · rw [if_neg (Ne.symm hid)] at hcurrent
        rw [if_neg hid]
        exact h.exact key old current hold hcurrent
  · rw [mem_links_iff, h.toWellFormed.enterGeneration_marked hnewer]
    rw [enterGeneration_current] at hcurrent
    by_cases hid : link.id = id
    · rw [if_pos hid, Option.some.injEq] at hcurrent
      rw [if_pos (by rw [← hid, ← hcurrent])]
      exact Option.some_ne_none _
    · rw [if_neg hid] at hcurrent
      have hother : link ≠ ⟨id, current⟩ := fun hsame => hid (congrArg LinkIdentity.id hsame)
      have hkept : (⟨id, current⟩ : LinkIdentity) ∉ (registry.listed link).take (registry.excess link) :=
        fun hdropped => hid (h.toWellFormed.id_of_listed (List.mem_of_mem_take hdropped)).symm
      rw [if_neg hother, if_neg hkept, ne_eq, Option.map_eq_none_iff, ← ne_eq, ← mem_links_iff]
      exact h.present id current hcurrent

theorem Superseding.addLink (h : registry.Superseding) (hnew : registry.current[link.id]? = none)
    (observedAt : Timestamp) (received : ReceiveStamp) :
    ((registry.addLink link).noteEvidence link observedAt received).Superseding := by
  have hcurrent : ∀ id, (registry.addLink link).current[id]? =
      if link.id = id then some link.generation else registry.current[id]? := by
    intro id
    simp [LinkRegistry.addLink, ExtTreeMap.getElem?_insert]
  have hunknown : ∀ key : LinkIdentity, key.id = link.id → registry.marked key = none := by
    intro key hid
    by_contra hmarked
    obtain ⟨current, hfound, -⟩ := h.links key (mem_links_iff.mpr hmarked)
    rw [hid, hnew] at hfound
    cases hfound
  refine ⟨(h.toWellFormed.addLink hnew).noteEvidence (behind_entered rfl) observedAt received,
    fun key mark current hmark hfound => ?_, fun id current hfound => ?_⟩
  · rw [noteEvidence_marked] at hmark
    change (registry.addLink link).current[key.id]? = some current at hfound
    by_cases hkey : link = key
    · subst hkey
      rw [if_pos rfl, addLink_marked, hunknown link rfl, Option.getD_none, Option.some.injEq] at hmark
      rw [← hmark]
      exact lateMark_eq hfound
    · rw [if_neg hkey, addLink_marked] at hmark
      have hid : link.id ≠ key.id := by
        intro hid
        rw [hunknown key hid.symm] at hmark
        cases hmark
      rw [hcurrent, if_neg hid] at hfound
      exact h.exact key mark current hmark hfound
  · change (registry.addLink link).current[id]? = some current at hfound
    rw [mem_links_iff, noteEvidence_marked]
    rw [hcurrent] at hfound
    by_cases hid : link.id = id
    · rw [if_pos hid, Option.some.injEq] at hfound
      rw [if_pos (by rw [← hid, ← hfound])]
      exact Option.some_ne_none _
    · rw [if_neg hid] at hfound
      rw [if_neg fun hsame => hid (congrArg LinkIdentity.id hsame), addLink_marked, ← mem_links_iff]
      exact h.present id current hfound

/-- What a successful call does: the registry with the evidence noted, or the newer generation entered. -/
inductive Change (registry : LinkRegistry) : LinkCall → LinkRegistry → Prop
  | first (link : LinkIdentity) (observedAt : Timestamp) (received : ReceiveStamp)
      (hnew : registry.current[link.id]? = none) :
      Change registry (.observe link observedAt received)
        ((registry.addLink link).noteEvidence link observedAt received)
  | noted (link : LinkIdentity) (observedAt : Timestamp) (received : ReceiveStamp) (hbehind : registry.Behind link) :
      Change registry (.observe link observedAt received) (registry.noteEvidence link observedAt received)
  | newer (link : LinkIdentity) (observedAt : Timestamp) (received : ReceiveStamp) (hnewer : registry.Newer link) :
      Change registry (.observe link observedAt received)
        ((registry.enterGeneration link observedAt received).noteEvidence link observedAt received)
  | same (link : LinkIdentity) (at_ : Timestamp) (received : ReceiveStamp)
      (hcurrent : registry.current[link.id]? = some link.generation) :
      Change registry (.advance link at_ received) registry
  | entered (link : LinkIdentity) (at_ : Timestamp) (received : ReceiveStamp) (hnewer : registry.Newer link) :
      Change registry (.advance link at_ received) (registry.enterGeneration link at_ received)

theorem change_of_apply {call : LinkCall} (h : call.apply registry = .ok after) : Change registry call after := by
  cases call with
  | observe link observedAt received =>
    obtain ⟨-, -, rfl⟩ := observe_eq_ok.mp h
    unfold reach
    cases hcurrent : registry.current[link.id]? with
    | none => exact .first link observedAt received hcurrent
    | some current =>
      by_cases hlt : current < link.generation
      · simp only [if_pos hlt]
        exact .newer link observedAt received (newer_of_lt hcurrent hlt)
      · simp only [if_neg hlt]
        exact .noted link observedAt received ⟨current, hcurrent, UInt64.not_lt.mp hlt⟩
  | advance link at_ received =>
    obtain ⟨-, -, ⟨hcurrent, rfl⟩ | ⟨hnewer, rfl⟩⟩ := advanceGeneration_eq_ok.mp h
    · exact .same link at_ received hcurrent
    · exact .entered link at_ received hnewer

theorem Superseding.change {call : LinkCall} (h : registry.Superseding) (hchange : Change registry call after) :
    after.Superseding := by
  cases hchange with
  | first link observedAt received hnew => exact h.addLink hnew observedAt received
  | noted link observedAt received hbehind => exact h.noteEvidence hbehind observedAt received
  | newer link observedAt received hnewer =>
    exact (h.enterGeneration hnewer observedAt received).noteEvidence (behind_entered rfl) observedAt received
  | same link at_ received hcurrent => exact h
  | entered link at_ received hnewer => exact h.enterGeneration hnewer at_ received

structure Raised (before after : LinkRegistry) (link : LinkIdentity) (current : UInt64) : Prop where
  found : after.current[link.id]? = some current
  own : link.generation ≤ current
  older : ∀ old, before.current[link.id]? = some old → old ≤ current
  source : current = link.generation ∨ before.current[link.id]? = some current
  others : ∀ id, id ≠ link.id → after.current[id]? = before.current[id]?

theorem raised_of_insert (hnewer : registry.Newer link)
    (hafter : after.current = registry.current.insert link.id link.generation) :
    Raised registry after link link.generation where
  found := by simp [hafter]
  own := UInt64.le_refl _
  older := fun old hold => UInt64.le_of_lt (hnewer old hold)
  source := .inl rfl
  others := fun id hid => by simp [hafter, ExtTreeMap.getElem?_insert, Ne.symm hid]

theorem raised_of_behind (hcurrent : registry.current[link.id]? = some current) (hle : link.generation ≤ current)
    (hafter : after.current = registry.current) : Raised registry after link current where
  found := by rw [hafter, hcurrent]
  own := hle
  older := by
    intro old hold
    rw [Option.some.inj (hold.symm.trans hcurrent)]
    exact UInt64.le_refl _
  source := .inr hcurrent
  others := fun id _ => by rw [hafter]

theorem Change.raised {call : LinkCall} (h : Change registry call after) :
    ∃ current, Raised registry after call.link current := by
  cases h with
  | first link observedAt received hnew =>
    refine ⟨_, raised_of_insert (fun current hfound => ?_) rfl⟩
    rw [LinkCall.link, hnew] at hfound
    cases hfound
  | noted link observedAt received hbehind =>
    obtain ⟨current, hcurrent, hle⟩ := hbehind
    exact ⟨current, raised_of_behind hcurrent hle rfl⟩
  | newer link observedAt received hnewer => exact ⟨_, raised_of_insert hnewer rfl⟩
  | same link at_ received hcurrent => exact ⟨_, raised_of_behind hcurrent (UInt64.le_refl _) rfl⟩
  | entered link at_ received hnewer => exact ⟨_, raised_of_insert hnewer rfl⟩

def IsLargest (generation : UInt64) (given : List UInt64) : Prop :=
  generation ∈ given ∧ ∀ other ∈ given, other ≤ generation

structure Follows (past : List (LinkCall × Outcome Unit)) (registry : LinkRegistry) : Prop
    extends Superseding registry where
  none : ∀ id, registry.current[id]? = none → given id past = []
  largest : ∀ id current, registry.current[id]? = some current → IsLargest current (given id past)

theorem given_snoc_error (status : Status) : given id (past ++ [(call, .error status)]) = given id past := by
  simp [given]

theorem given_snoc_ok : given id (past ++ [(call, .ok ())]) =
      given id past ++ if call.link.id = id then [call.link.generation] else [] := by
  by_cases hid : call.link.id = id <;> simp [given, hid]

theorem Raised.isLargest {past : List (LinkCall × Outcome Unit)} (h : Raised registry after link current)
    (hpast : Follows past registry) : IsLargest current (given link.id past ++ [link.generation]) := by
  constructor
  · rcases h.source with rfl | hsame
    · exact List.mem_append_right _ (List.mem_singleton_self _)
    · exact List.mem_append_left _ (hpast.largest link.id current hsame).1
  · intro other hother
    rcases List.mem_append.mp hother with hearlier | hown
    · cases hold : registry.current[link.id]? with
      | none =>
        rw [hpast.none link.id hold] at hearlier
        cases hearlier
      | some old => exact UInt64.le_trans ((hpast.largest link.id old hold).2 other hearlier) (h.older old hold)
    · rw [List.mem_singleton.mp hown]
      exact h.own

theorem follows_step (registry : LinkRegistry) (call : LinkCall) (h : Follows past registry) :
    Follows (past ++ [(call, (linkMachine.step registry call).1)]) (linkMachine.step registry call).2 := by
  dsimp only [linkMachine]
  cases happly : call.apply registry with
  | error status =>
    refine ⟨h.toSuperseding, fun id hnone => ?_, fun id current hcurrent => ?_⟩
    · rw [given_snoc_error]
      exact h.none id hnone
    · rw [given_snoc_error]
      exact h.largest id current hcurrent
  | ok after =>
    have hchange := change_of_apply happly
    obtain ⟨raised, hraised⟩ := hchange.raised
    refine ⟨h.toSuperseding.change hchange, fun id hnone => ?_, fun id current hcurrent => ?_⟩
    · have hid : call.link.id ≠ id := by
        rintro rfl
        rw [hraised.found] at hnone
        cases hnone
      rw [given_snoc_ok, if_neg hid, List.append_nil]
      exact h.none id ((hraised.others id hid.symm).symm.trans hnone)
    · rw [given_snoc_ok]
      by_cases hid : call.link.id = id
      · subst hid
        rw [if_pos rfl, ← Option.some.inj (hraised.found.symm.trans hcurrent)]
        exact hraised.isLargest h
      · rw [if_neg hid, List.append_nil]
        exact h.largest id current ((hraised.others id (Ne.symm hid)).symm.trans hcurrent)

theorem follows_run (calls : List LinkCall) :
    Follows (linkMachine.trace (empty limits) calls) (linkMachine.final (empty limits) calls) := by
  have hstart : Follows [] (empty limits) := by
    refine ⟨superseding_empty limits, fun _ _ => rfl, fun id current hcurrent => ?_⟩
    simp [empty] at hcurrent
  have hmeets : linkMachine.Meets (fun _ _ => True) (empty limits) calls :=
    linkMachine.meets_of_forall (empty limits) fun _ _ => trivial
  exact linkMachine.history_invariant (fun past registry call h _ => follows_step past registry call h) hstart hmeets

theorem step_current_le (registry : LinkRegistry) (call : LinkCall) {id : Text}
    (h : registry.current[id]? = some current) :
    ∃ later, (linkMachine.step registry call).2.current[id]? = some later ∧ current ≤ later := by
  dsimp only [linkMachine]
  cases happly : call.apply registry with
  | error status => exact ⟨current, h, UInt64.le_refl _⟩
  | ok after =>
    obtain ⟨raised, hraised⟩ := (change_of_apply happly).raised
    by_cases hid : call.link.id = id
    · subst hid
      exact ⟨raised, hraised.found, hraised.older current h⟩
    · exact ⟨current, (hraised.others id (Ne.symm hid)).trans h, UInt64.le_refl _⟩

theorem final_current_le (registry : LinkRegistry) (calls : List LinkCall) {id : Text}
    (h : registry.current[id]? = some current) :
    ∃ later, (linkMachine.final registry calls).current[id]? = some later ∧ current ≤ later := by
  induction calls generalizing registry current with
  | nil => exact ⟨current, h, UInt64.le_refl _⟩
  | cons call rest ih =>
    obtain ⟨next, hnext, hle⟩ := step_current_le registry call h
    obtain ⟨later, hlater, hmore⟩ := ih _ hnext
    exact ⟨later, hlater, UInt64.le_trans hle hmore⟩

theorem mark_eq_markUnder {state : LinkState} {generation : UInt64} (h : state.mark = markUnder current generation) :
    (state.superseded = true ↔ generation < current) ∧ (state.superseded = true → state.supersededBy = current) := by
  unfold LinkState.mark markUnder at h
  by_cases hlt : generation < current
  · rw [if_pos hlt] at h
    split at h
    · next hmarked => exact ⟨iff_of_true hmarked hlt, fun _ => Option.some.inj h⟩
    · cases h
  · rw [if_neg hlt] at h
    split at h
    · cases h
    · next hmarked => exact ⟨iff_of_false hmarked hlt, fun hsame => absurd hsame hmarked⟩

/-- **Supersession is exact.** After any calls the current generation of an identity is the largest one a successful
call has given, and no later call lowers it; it has a state; and a retained state is superseded, by the current
generation, iff its own is smaller. -/
theorem supersession_exact (limits : FabricLimits) (calls : List LinkCall) (id : Text) :
    (∀ generation, (linkMachine.final (empty limits) calls).currentGeneration id = some generation ↔
      IsLargest generation (given id (linkMachine.trace (empty limits) calls))) ∧
    (∀ (rest : List LinkCall) (current : UInt64),
      (linkMachine.final (empty limits) calls).currentGeneration id = some current →
      ∃ later, (linkMachine.final (empty limits) (calls ++ rest)).currentGeneration id = some later ∧
        current ≤ later) ∧
    (∀ current, (linkMachine.final (empty limits) calls).currentGeneration id = some current →
      (linkMachine.final (empty limits) calls).contains ⟨id, current⟩ = true) ∧
    ∀ (generation : UInt64) (state : LinkState),
      (linkMachine.final (empty limits) calls).links[(⟨id, generation⟩ : LinkIdentity)]? = some state →
      ∃ current, (linkMachine.final (empty limits) calls).currentGeneration id = some current ∧
        (state.superseded = true ↔ generation < current) ∧
        (state.superseded = true → state.supersededBy = current) := by
  have hrun := follows_run limits calls
  refine ⟨fun generation => ⟨hrun.largest id generation, fun hlargest => ?_⟩, fun rest current hcurrent => ?_,
    fun current hcurrent => contains_iff.mpr (hrun.present id current hcurrent), fun generation state hstate => ?_⟩
  · unfold currentGeneration
    cases hcurrent : (linkMachine.final (empty limits) calls).current[id]? with
    | none =>
      rw [hrun.none id hcurrent] at hlargest
      exact absurd hlargest.1 List.not_mem_nil
    | some current =>
      have hother := hrun.largest id current hcurrent
      rw [UInt64.le_antisymm (hlargest.2 current hother.1) (hother.2 generation hlargest.1)]
  · rw [Machine.final_append]
    exact final_current_le _ rest hcurrent
  · have hmarked : (linkMachine.final (empty limits) calls).marked ⟨id, generation⟩ = some state.mark := by
      rw [marked, hstate, Option.map_some]
    obtain ⟨current, hcurrent, -⟩ := hrun.links ⟨id, generation⟩ (mem_links_iff.mpr (by simp [hmarked]))
    exact ⟨current, hcurrent, mark_eq_markUnder (hrun.exact _ _ current hmarked hcurrent)⟩

/-! ## Retention -/

/-- A generation of the link that is behind the current one already has a state. -/
def KnownIfLate (id : Text) (registry : LinkRegistry) : LinkCall → Prop
  | .observe link _ _ => link.id = id → (registry.lateMark link).isSome = true → link ∈ registry.links
  | .advance _ _ _ => True

instance (id : Text) (registry : LinkRegistry) (call : LinkCall) : Decidable (KnownIfLate id registry call) := by
  cases call <;> unfold KnownIfLate <;> infer_instance

variable {id}

structure Listed (registry : LinkRegistry) (id : Text) : Prop extends Superseding registry where
  positive : 1 ≤ registry.limits.maxGenerationsPerLink
  listed : ∀ link ∈ registry.links, link.id = id → link ∈ registry.generations.getD id []
  bound : (registry.generations.getD id []).length ≤ registry.limits.maxGenerationsPerLink

theorem listed_empty {limits : FabricLimits} (h : 1 ≤ limits.maxGenerationsPerLink) : (empty limits).Listed id := by
  refine ⟨superseding_empty limits, h, fun link hlink => ?_, ?_⟩
  · simp [empty] at hlink
  · simp [empty]

theorem Listed.noteEvidence (h : registry.Listed id) (hbehind : registry.Behind link)
    (hlink : link.id = id → link ∈ registry.links) (observedAt : Timestamp) (received : ReceiveStamp) :
    (registry.noteEvidence link observedAt received).Listed id := by
  refine ⟨h.toSuperseding.noteEvidence hbehind observedAt received, h.positive, fun key hkey hid => ?_, h.bound⟩
  by_cases hsame : link = key
  · subst hsame
    exact h.listed link (hlink hid) hid
  · rw [mem_links_iff, noteEvidence_marked, if_neg hsame, ← mem_links_iff] at hkey
    exact h.listed key hkey hid

theorem WellFormed.listed_of_newer (h : registry.WellFormed) (hnewer : registry.Newer link) :
    registry.listed link = registry.generations.getD link.id [] ++ [link] := by
  have hnot : link ∉ registry.generations.getD link.id [] := by
    intro hmem
    obtain ⟨-, current, hcurrent, hle⟩ := h.generations link.id link hmem
    exact absurd (hnewer current hcurrent) (UInt64.not_lt.mpr hle)
  exact if_neg hnot

theorem enterGeneration_generations : (registry.enterGeneration link at_ received).generations.getD id [] =
      if link.id = id then (registry.listed link).drop (registry.excess link) else registry.generations.getD id [] := by
  simp [enterGeneration, ExtTreeMap.getD_insert]

theorem Listed.enterGeneration (h : registry.Listed id) (hnewer : registry.Newer link) (at_ : Timestamp)
    (received : ReceiveStamp) : (registry.enterGeneration link at_ received).Listed id := by
  have hlisted := h.toWellFormed.listed_of_newer hnewer
  refine ⟨h.toSuperseding.enterGeneration hnewer at_ received, h.positive, ?_, ?_⟩
  · rintro key hkey rfl
    rw [enterGeneration_generations]
    by_cases hsame : link = key
    · subst hsame
      have hexcess : registry.excess link ≤ (registry.generations.getD link.id []).length := by
        have hpositive := h.positive
        unfold excess
        rw [hlisted, List.length_append, List.length_singleton]
        omega
      rw [if_pos rfl, hlisted, List.drop_append_of_le_length hexcess]
      exact List.mem_append_right _ (List.mem_singleton_self _)
    · rw [mem_links_iff, h.toWellFormed.enterGeneration_marked hnewer, if_neg hsame] at hkey
      by_cases hdropped : key ∈ (registry.listed link).take (registry.excess link)
      · rw [if_pos hdropped] at hkey
        exact absurd rfl hkey
      · rw [if_neg hdropped, ne_eq, Option.map_eq_none_iff, ← ne_eq, ← mem_links_iff] at hkey
        by_cases hid : link.id = key.id
        · have hmem : key ∈ registry.listed link := by
            rw [hlisted, hid]
            exact List.mem_append_left _ (h.listed key hkey rfl)
          rw [← List.take_append_drop (registry.excess link) (registry.listed link)] at hmem
          rw [if_pos hid]
          exact (List.mem_append.mp hmem).resolve_left hdropped
        · rw [if_neg hid]
          exact h.listed key hkey rfl
  · rw [enterGeneration_generations]
    by_cases hid : link.id = id
    · rw [if_pos hid, List.length_drop]
      show _ ≤ registry.limits.maxGenerationsPerLink
      unfold excess
      omega
    · rw [if_neg hid]
      exact h.bound

theorem Listed.addLink (h : registry.Listed id) (hnew : registry.current[link.id]? = none) (observedAt : Timestamp)
    (received : ReceiveStamp) : ((registry.addLink link).noteEvidence link observedAt received).Listed id := by
  have hnone : registry.generations.getD link.id [] = [] := by
    refine List.eq_nil_iff_forall_not_mem.mpr fun key hkey => ?_
    obtain ⟨hid, current, hcurrent, -⟩ := h.generations link.id key hkey
    rw [hid, hnew] at hcurrent
    cases hcurrent
  have hgenerations : ((registry.addLink link).noteEvidence link observedAt received).generations.getD id [] =
      if link.id = id then [link] else registry.generations.getD id [] := by
    simp [LinkRegistry.addLink, LinkRegistry.noteEvidence, ExtTreeMap.getD_insert, hnone]
  refine ⟨h.toSuperseding.addLink hnew observedAt received, h.positive, ?_, ?_⟩
  · rintro key hkey rfl
    rw [hgenerations]
    rw [mem_links_iff, noteEvidence_marked, addLink_marked, addLink_marked] at hkey
    by_cases hsame : link = key
    · rw [if_pos (congrArg LinkIdentity.id hsame), hsame]
      exact List.mem_singleton_self _
    · rw [if_neg hsame, ← mem_links_iff] at hkey
      have hid : link.id ≠ key.id := by
        intro hid
        obtain ⟨current, hcurrent, -⟩ := h.links key hkey
        rw [← hid, hnew] at hcurrent
        cases hcurrent
      rw [if_neg hid]
      exact h.listed key hkey rfl
  · rw [hgenerations]
    split
    · exact h.positive
    · exact h.bound

theorem Listed.change {call : LinkCall} (h : registry.Listed id) (hknown : KnownIfLate id registry call)
    (hchange : Change registry call after) : after.Listed id := by
  cases hchange with
  | first link observedAt received hnew => exact h.addLink hnew observedAt received
  | noted link observedAt received hbehind =>
    refine h.noteEvidence hbehind (fun hid => ?_) observedAt received
    obtain ⟨current, hcurrent, hle⟩ := hbehind
    by_cases hlt : link.generation < current
    · refine hknown hid ?_
      rw [lateMark_eq hcurrent, markUnder, if_pos hlt]
      rfl
    · rw [UInt64.le_antisymm (UInt64.not_lt.mp hlt) hle] at hcurrent
      exact h.present link.id link.generation hcurrent
  | newer link observedAt received hnewer =>
    have hentered := h.enterGeneration hnewer observedAt received
    have hpresent := hentered.present link.id link.generation (by rw [enterGeneration_current, if_pos rfl])
    exact hentered.noteEvidence (hentered.links link hpresent) (fun _ => hpresent) observedAt received
  | same link at_ received hcurrent => exact h
  | entered link at_ received hnewer => exact h.enterGeneration hnewer at_ received

theorem Listed.retained_length (h : registry.Listed id) :
    (registry.retained id).length ≤ registry.limits.maxGenerationsPerLink := by
  have hsub : registry.retained id ⊆ registry.generations.getD id [] := by
    intro link hlink
    obtain ⟨hkey, hid⟩ := List.mem_filter.mp hlink
    exact h.listed link (ExtTreeMap.mem_keys.mp hkey) (of_decide_eq_true hid)
  have hnodup : (registry.retained id).Nodup := (keys_nodup registry.links).filter _
  exact (List.subperm_of_subset hnodup hsub).length_le.trans h.bound

theorem step_limits (registry : LinkRegistry) (call : LinkCall) :
    (linkMachine.step registry call).2.limits = registry.limits := by
  dsimp only [linkMachine]
  cases happly : call.apply registry with
  | error status => rfl
  | ok after => cases change_of_apply happly <;> rfl

/-- **Retained generations are bounded** as long as no late generation of the link arrives that has no state. -/
theorem generations_bounded (limits : FabricLimits) (hpositive : 1 ≤ limits.maxGenerationsPerLink)
    (calls : List LinkCall) (id : Text) (hknown : linkMachine.Meets (KnownIfLate id) (empty limits) calls) :
    ((linkMachine.final (empty limits) calls).retained id).length ≤ limits.maxGenerationsPerLink := by
  obtain ⟨hlisted, hlimits⟩ := linkMachine.invariant
    (P := fun registry => registry.Listed id ∧ registry.limits = limits) (by
      rintro registry call ⟨hlisted, hlimits⟩ hcall
      refine ⟨?_, (step_limits registry call).trans hlimits⟩
      dsimp only [linkMachine]
      cases happly : call.apply registry with
      | error status => exact hlisted
      | ok after => exact hlisted.change hcall (change_of_apply happly)) ⟨listed_empty hpositive, rfl⟩ hknown
  have hbound := hlisted.retained_length
  rwa [hlimits] at hbound

/-! A bound of one generation for each link. -/

def singleGeneration : FabricLimits := { FabricLimits.defaults with maxGenerationsPerLink := 1 }

def observeGeneration (generation : UInt64) : LinkCall := .observe ⟨text "link", generation⟩ ⟨0, false⟩ ⟨0, 0, 1⟩

/-- The late generations 1 and 2 get states that no list has. -/
theorem late_generations_retained : singleGeneration.validate = .ok () ∧
    ((linkMachine.final (empty singleGeneration) ([3, 1, 2].map observeGeneration)).retained
      (text "link")).length = 3 := by
  decide +kernel

theorem rising_generations_bounded :
    linkMachine.Meets (KnownIfLate (text "link")) (empty singleGeneration) ([1, 2, 3].map observeGeneration) ∧
      ((linkMachine.final (empty singleGeneration) ([1, 2, 3].map observeGeneration)).retained
        (text "link")).length ≤ 1 := by
  have hknown : linkMachine.Meets (KnownIfLate (text "link")) (empty singleGeneration) ([1, 2, 3].map observeGeneration) :=
    by decide +kernel
  exact ⟨hknown, generations_bounded singleGeneration (by decide) _ _ hknown⟩

end LinkRegistry

end Lqf
