import LinkQualityFabric.Runtime.Config

/-! The registry of link generations: `src/store/link_registry.cpp`.

A link identity has one current generation. Entering a newer one marks the older ones as superseded,
keeps a bounded list of the generations that were current and hands the ones it drops to the caller.
A late generation is registered as superseded from the start and never enters that list. -/
namespace Lqf
open Std (ExtTreeMap LawfulEqCmp)
set_option autoImplicit false

structure LinkState where
  identity : LinkIdentity
  firstSeen : Timestamp
  firstReceived : ReceiveStamp
  evidenceCount : UInt64
  superseded : Bool
  supersededBy : UInt64
  deriving DecidableEq, Repr, Inhabited

/-- The generation a link generation is superseded by, if any. -/
def LinkState.mark (state : LinkState) : Option UInt64 :=
  if state.superseded then some state.supersededBy else none

structure LinkRegistry where
  limits : FabricLimits
  links : ExtTreeMap LinkIdentity LinkState
  current : ExtTreeMap Text UInt64
  generations : ExtTreeMap Text (List LinkIdentity)
  evicted : List LinkIdentity

namespace LinkRegistry

def empty (limits : FabricLimits) : LinkRegistry := ⟨limits, ∅, ∅, ∅, []⟩

def contains (registry : LinkRegistry) (link : LinkIdentity) : Bool := registry.links.contains link

def currentGeneration (registry : LinkRegistry) (id : Text) : Option UInt64 := registry.current[id]?

def isCurrent (registry : LinkRegistry) (link : LinkIdentity) : Bool :=
  registry.current[link.id]? = some link.generation

def snapshot (registry : LinkRegistry) : List LinkState := registry.links.values

def takeEvicted (registry : LinkRegistry) : List LinkIdentity × LinkRegistry :=
  (registry.evicted, { registry with evicted := [] })

/-- The mark of a generation that arrives behind the current one. -/
def lateMark (registry : LinkRegistry) (link : LinkIdentity) : Option UInt64 :=
  match registry.current[link.id]? with
  | none => none
  | some current => if link.generation < current then some current else none

def noteEvidence (registry : LinkRegistry) (link : LinkIdentity) (observedAt : Timestamp)
    (received : ReceiveStamp) : LinkRegistry :=
  let state :=
    match registry.links[link]? with
    | none =>
      ⟨link, observedAt, received, 1, (registry.lateMark link).isSome, (registry.lateMark link).getD 0⟩
    | some state => { state with evidenceCount := state.evidenceCount + 1 }
  { registry with links := registry.links.insert link state }

def supersedeOlder (link key : LinkIdentity) (state : LinkState) : LinkState :=
  if key.id = link.id ∧ key.generation < link.generation then
    { state with superseded := true, supersededBy := link.generation }
  else state

/-- The generations of a link that were current, with the one that is entered. -/
def listed (registry : LinkRegistry) (link : LinkIdentity) : List LinkIdentity :=
  let known := registry.generations.getD link.id []
  if link ∈ known then known else known ++ [link]

def excess (registry : LinkRegistry) (link : LinkIdentity) : ℕ :=
  (registry.listed link).length - registry.limits.maxGenerationsPerLink

/-- The part of `advance_generation` behind its checks. -/
def enterGeneration (registry : LinkRegistry) (link : LinkIdentity) (at_ : Timestamp)
    (received : ReceiveStamp) : LinkRegistry :=
  let dropped := (registry.listed link).take (registry.excess link)
  let kept := dropped.foldl ExtTreeMap.erase (registry.links.map (supersedeOlder link))
  { registry with
    links := kept.insertIfNew link ⟨link, at_, received, 0, false, 0⟩
    current := registry.current.insert link.id link.generation
    generations := registry.generations.insert link.id ((registry.listed link).drop (registry.excess link))
    evicted := registry.evicted ++ dropped }

def refuseNewLink (registry : LinkRegistry) : Outcome Unit :=
  refuseIf (registry.limits.maxLinks ≤ registry.current.size) .limitExceeded
    (text "link identity capacity of " ++ formatNat registry.limits.maxLinks ++ text " reached")

def advanceGeneration (registry : LinkRegistry) (link : LinkIdentity) (at_ : Timestamp)
    (received : ReceiveStamp) : Outcome LinkRegistry := do
  validateIdentityText link.id maxIdentityBytes (text "link id")
  refuseIf (link.generation = 0) .invalid (text "link generation must be at least 1")
  match registry.current[link.id]? with
  | none =>
    registry.refuseNewLink
    return registry.enterGeneration link at_ received
  | some current =>
    if link.generation < current then
      fail .fenced (text "generation " ++ formatU64 link.generation ++
        text " is older than the current generation " ++ formatU64 current)
    else if link.generation = current then return registry
    else return registry.enterGeneration link at_ received

/-- A link identity that was not known: its first generation is the current one. -/
def addLink (registry : LinkRegistry) (link : LinkIdentity) : LinkRegistry :=
  { registry with
    current := registry.current.insert link.id link.generation
    generations := registry.generations.insert link.id (registry.generations.getD link.id [] ++ [link]) }

def observe (registry : LinkRegistry) (link : LinkIdentity) (observedAt : Timestamp) (received : ReceiveStamp) :
    Outcome LinkRegistry := do
  validateLinkIdentity link
  match registry.current[link.id]? with
  | none =>
    registry.refuseNewLink
    return (registry.addLink link).noteEvidence link observedAt received
  | some current =>
    if current < link.generation then
      let advanced ← registry.advanceGeneration link observedAt received
      return advanced.noteEvidence link observedAt received
    else return registry.noteEvidence link observedAt received

/-! ## What the operations do -/

def Room (registry : LinkRegistry) (id : Text) : Prop :=
  id ∈ registry.current ∨ registry.current.size < registry.limits.maxLinks

instance (registry : LinkRegistry) (id : Text) : Decidable (registry.Room id) :=
  inferInstanceAs (Decidable (_ ∨ _))

/-- The registry `observe` notes the evidence in. -/
def reach (registry : LinkRegistry) (link : LinkIdentity) (observedAt : Timestamp) (received : ReceiveStamp) :
    LinkRegistry :=
  match registry.current[link.id]? with
  | none => registry.addLink link
  | some current =>
    if current < link.generation then registry.enterGeneration link observedAt received else registry

variable {registry : LinkRegistry} {id : Text} {current : UInt64} {link : LinkIdentity} {result : LinkRegistry}
  {entered : LinkIdentity} {after : LinkRegistry}

theorem room_iff_of_none (h : registry.current[id]? = none) : registry.Room id ↔ registry.refuseNewLink = .ok () := by
  have hmem : id ∉ registry.current := by simp [ExtTreeMap.mem_iff_isSome_getElem?, h]
  simp [Room, refuseNewLink, hmem]

theorem room_of_some (h : registry.current[id]? = some current) : registry.Room id := by
  left
  simp [ExtTreeMap.mem_iff_isSome_getElem?, h]

theorem advanceGeneration_of_newer (at_ : Timestamp) (received : ReceiveStamp)
    (hvalid : validateLinkIdentity link = .ok ()) (hcurrent : registry.current[link.id]? = some current)
    (hnewer : current < link.generation) :
    registry.advanceGeneration link at_ received = .ok (registry.enterGeneration link at_ received) := by
  obtain ⟨htext, hpositive⟩ := validateLinkIdentity_eq_ok.mp hvalid
  have hnot : ¬ link.generation < current := by
    rw [UInt64.not_lt]
    exact UInt64.le_of_lt hnewer
  have hne : link.generation ≠ current := by
    rintro rfl
    exact UInt64.lt_irrefl _ hnewer
  simp [advanceGeneration, htext, hpositive, hcurrent, hnot, hne, Outcome.refuseIf_of_not]

variable {observedAt : Timestamp} {received : ReceiveStamp} {at_ : Timestamp}

theorem observe_eq_ok :
    registry.observe link observedAt received = .ok result ↔
      validateLinkIdentity link = .ok () ∧ registry.Room link.id ∧
        result = (registry.reach link observedAt received).noteEvidence link observedAt received := by
  rw [observe, Outcome.check_bind_eq_ok]
  refine and_congr_right fun hvalid => ?_
  unfold reach
  cases hcurrent : registry.current[link.id]? with
  | none =>
    simp only [Outcome.check_bind_eq_ok, room_iff_of_none hcurrent]
    exact and_congr_right fun _ => ⟨fun h => (Except.ok.inj h).symm, fun h => congrArg Except.ok h.symm⟩
  | some current =>
    simp only [room_of_some hcurrent, true_and]
    by_cases hnewer : current < link.generation
    · simp only [hnewer, if_true, advanceGeneration_of_newer observedAt received hvalid hcurrent hnewer,
        Outcome.ok_bind]
      exact ⟨fun h => (Except.ok.inj h).symm, fun h => congrArg Except.ok h.symm⟩
    · simp only [hnewer, if_false]
      exact ⟨fun h => (Except.ok.inj h).symm, fun h => congrArg Except.ok h.symm⟩

def Newer (registry : LinkRegistry) (link : LinkIdentity) : Prop :=
  ∀ current, registry.current[link.id]? = some current → current < link.generation

theorem advanceGeneration_eq_ok :
    registry.advanceGeneration link at_ received = .ok result ↔
      validateLinkIdentity link = .ok () ∧ registry.Room link.id ∧
        (registry.current[link.id]? = some link.generation ∧ result = registry ∨
          registry.Newer link ∧ result = registry.enterGeneration link at_ received) := by
  rw [advanceGeneration, Outcome.check_bind_eq_ok, Outcome.check_bind_eq_ok, validateLinkIdentity_eq_ok,
    Outcome.refuseIf_eq_ok, and_assoc]
  refine and_congr_right fun _ => and_congr_right fun _ => ?_
  unfold Newer
  cases hcurrent : registry.current[link.id]? with
  | none =>
    simp only [Outcome.check_bind_eq_ok, room_iff_of_none hcurrent]
    refine and_congr_right fun _ => ⟨fun h => .inr ⟨by simp, (Except.ok.inj h).symm⟩, ?_⟩
    rintro (⟨h, -⟩ | ⟨-, rfl⟩)
    · cases h
    · rfl
  | some current =>
    simp only [room_of_some hcurrent, true_and, Option.some.injEq, forall_eq']
    by_cases holder : link.generation < current
    · have hne : current ≠ link.generation := (UInt64.ne_of_lt holder).symm
      simp [holder, hne, UInt64.lt_asymm holder, fail]
    · by_cases hsame : link.generation = current
      · subst hsame
        simp only [holder, if_false, if_true, true_and, false_and, or_false]
        exact ⟨fun h => (Except.ok.inj h).symm, fun h => congrArg Except.ok h.symm⟩
      · have hnewer : current < link.generation :=
          UInt64.lt_of_le_of_ne (UInt64.not_lt.mp holder) (Ne.symm hsame)
        simp only [holder, hsame, hnewer, Ne.symm hsame, if_false, true_and, false_and, false_or]
        exact ⟨fun h => (Except.ok.inj h).symm, fun h => congrArg Except.ok h.symm⟩

/-! ## Marks -/

def marked (registry : LinkRegistry) (key : LinkIdentity) : Option (Option UInt64) :=
  registry.links[key]?.map LinkState.mark

theorem contains_iff : registry.contains link = true ↔ link ∈ registry.links := ExtTreeMap.contains_iff_mem

theorem mem_links_iff : link ∈ registry.links ↔ registry.marked link ≠ none := by
  rw [ExtTreeMap.mem_iff_isSome_getElem?, marked, Option.isSome_iff_ne_none, ne_eq, ne_eq,
    Option.map_eq_none_iff]

theorem getElem?_foldl_erase {β : Type} (keys : List LinkIdentity) (links : ExtTreeMap LinkIdentity β)
    (key : LinkIdentity) : (keys.foldl ExtTreeMap.erase links)[key]? = if key ∈ keys then none else links[key]? := by
  induction keys generalizing links with
  | nil => simp
  | cons first rest ih =>
    rw [List.foldl_cons, ih, ExtTreeMap.getElem?_erase]
    by_cases hrest : key ∈ rest
    · simp [hrest]
    · by_cases hfirst : first = key
      · simp [hfirst]
      · simp [hrest, hfirst, Ne.symm hfirst]

theorem noteEvidence_marked (registry : LinkRegistry) (link key : LinkIdentity) (observedAt : Timestamp)
    (received : ReceiveStamp) : (registry.noteEvidence link observedAt received).marked key =
      if link = key then some ((registry.marked link).getD (registry.lateMark link)) else registry.marked key := by
  unfold marked noteEvidence
  simp only [ExtTreeMap.getElem?_insert, LawfulEqCmp.compare_eq_iff_eq]
  by_cases hkey : link = key
  · simp only [hkey, if_true, Option.map_some]
    cases hfind : registry.links[key]? with
    | some state => rfl
    | none => cases hmark : registry.lateMark key <;> simp [LinkState.mark]
  · simp [hkey]

theorem supersedeOlder_mark (link key : LinkIdentity) (state : LinkState) : (supersedeOlder link key state).mark =
      if key.id = link.id ∧ key.generation < link.generation then some link.generation else state.mark := by
  unfold supersedeOlder
  split <;> rfl

theorem enterGeneration_marked (registry : LinkRegistry) (link key : LinkIdentity) (at_ : Timestamp)
    (received : ReceiveStamp) :
    (registry.enterGeneration link at_ received).marked key =
      let remaining : Option (Option UInt64) :=
        if key ∈ (registry.listed link).take (registry.excess link) then none
        else (registry.marked key).map fun mark =>
          if key.id = link.id ∧ key.generation < link.generation then some link.generation else mark
      if link = key then some (remaining.getD none) else remaining := by
  unfold marked enterGeneration
  simp only [ExtTreeMap.getElem?_insertIfNew, LawfulEqCmp.compare_eq_iff_eq, ExtTreeMap.mem_iff_isSome_getElem?,
    getElem?_foldl_erase, ExtTreeMap.getElem?_map, Option.map_map, Function.comp_def]
  by_cases hdropped : key ∈ (registry.listed link).take (registry.excess link)
  · by_cases hkey : link = key
    · subst hkey
      simp [hdropped, LinkState.mark]
    · simp [hkey, hdropped]
  · by_cases hkey : link = key
    · subst hkey
      cases hfind : registry.links[link]? <;> simp [hdropped, LinkState.mark, supersedeOlder]
    · simp only [hkey, hdropped, false_and, if_false]
      cases hfind : registry.links[key]? <;> simp [supersedeOlder_mark]

@[simp] theorem addLink_marked (registry : LinkRegistry) (link key : LinkIdentity) :
    (registry.addLink link).marked key = registry.marked key := rfl

/-! ## No registered generation is ahead of the current one -/

/-- The link has a current generation and is not ahead of it. -/
def Behind (registry : LinkRegistry) (link : LinkIdentity) : Prop :=
  ∃ current, registry.current[link.id]? = some current ∧ link.generation ≤ current

structure WellFormed (registry : LinkRegistry) : Prop where
  links : ∀ link ∈ registry.links, registry.Behind link
  generations : ∀ id, ∀ link ∈ registry.generations.getD id [], link.id = id ∧ registry.Behind link

theorem wellFormed_empty (limits : FabricLimits) : (empty limits).WellFormed := by
  constructor
  · intro link h
    simp [empty] at h
  · intro id link h
    simp [empty] at h

theorem Behind.insert (h : registry.Behind link) (hnewer : registry.Newer entered)
    (hafter : after.current = registry.current.insert entered.id entered.generation) : after.Behind link := by
  obtain ⟨current, hcurrent, hle⟩ := h
  unfold Behind
  rw [hafter]
  simp only [ExtTreeMap.getElem?_insert, LawfulEqCmp.compare_eq_iff_eq]
  by_cases hid : entered.id = link.id
  · have hlt : current < entered.generation := hnewer current (by rw [hid]; exact hcurrent)
    exact ⟨entered.generation, by simp [hid], UInt64.le_trans hle (UInt64.le_of_lt hlt)⟩
  · exact ⟨current, by simp [hid, hcurrent], hle⟩

theorem behind_entered {before : LinkRegistry}
    (hafter : after.current = before.current.insert entered.id entered.generation) : after.Behind entered :=
  ⟨entered.generation, by simp [hafter], UInt64.le_refl _⟩

theorem listed_subset (h : link ∈ registry.listed entered) :
    link = entered ∨ link ∈ registry.generations.getD entered.id [] := by
  unfold listed at h
  simp only at h
  split at h
  · exact .inr h
  · rcases List.mem_append.mp h with hknown | hentered
    · exact .inr hknown
    · exact .inl (List.mem_singleton.mp hentered)

theorem WellFormed.noteEvidence (h : registry.WellFormed) (hbehind : registry.Behind link) (observedAt : Timestamp)
    (received : ReceiveStamp) : (registry.noteEvidence link observedAt received).WellFormed := by
  refine ⟨?_, h.generations⟩
  intro key hkey
  rw [mem_links_iff, noteEvidence_marked] at hkey
  by_cases hlink : link = key
  · exact hlink ▸ hbehind
  · rw [if_neg hlink, ← mem_links_iff] at hkey
    exact h.links key hkey

theorem WellFormed.enterGeneration (h : registry.WellFormed) (hnewer : registry.Newer link) (at_ : Timestamp)
    (received : ReceiveStamp) : (registry.enterGeneration link at_ received).WellFormed := by
  constructor
  · intro key hkey
    by_cases hlink : link = key
    · exact hlink ▸ behind_entered rfl
    · rw [mem_links_iff, enterGeneration_marked] at hkey
      simp only [if_neg hlink] at hkey
      split at hkey
      · exact absurd rfl hkey
      · rw [ne_eq, Option.map_eq_none_iff, ← ne_eq, ← mem_links_iff] at hkey
        exact (h.links key hkey).insert hnewer rfl
  · intro id key hkey
    simp only [LinkRegistry.enterGeneration, ExtTreeMap.getD_insert, LawfulEqCmp.compare_eq_iff_eq] at hkey
    by_cases hid : link.id = id
    · rw [if_pos hid] at hkey
      rcases listed_subset (List.mem_of_mem_drop hkey) with rfl | hknown
      · exact ⟨hid, behind_entered rfl⟩
      · obtain ⟨hsame, hbehind⟩ := h.generations link.id key hknown
        exact ⟨hsame.trans hid, hbehind.insert hnewer rfl⟩
    · rw [if_neg hid] at hkey
      obtain ⟨hsame, hbehind⟩ := h.generations id key hkey
      exact ⟨hsame, hbehind.insert hnewer rfl⟩

theorem WellFormed.addLink (h : registry.WellFormed) (hnew : registry.current[link.id]? = none) :
    (registry.addLink link).WellFormed := by
  have hnewer : registry.Newer link := by
    intro current hcurrent
    rw [hnew] at hcurrent
    cases hcurrent
  constructor
  · intro key hkey
    exact (h.links key hkey).insert hnewer rfl
  · intro id key hkey
    simp only [LinkRegistry.addLink, ExtTreeMap.getD_insert, LawfulEqCmp.compare_eq_iff_eq] at hkey
    by_cases hid : link.id = id
    · rw [if_pos hid] at hkey
      rcases List.mem_append.mp hkey with hknown | hentered
      · obtain ⟨hsame, hbehind⟩ := h.generations link.id key hknown
        exact ⟨hsame.trans hid, hbehind.insert hnewer rfl⟩
      · obtain rfl := List.mem_singleton.mp hentered
        exact ⟨hid, behind_entered rfl⟩
    · rw [if_neg hid] at hkey
      obtain ⟨hsame, hbehind⟩ := h.generations id key hkey
      exact ⟨hsame, hbehind.insert hnewer rfl⟩

theorem newer_of_lt (hcurrent : registry.current[link.id]? = some current) (hlt : current < link.generation) :
    registry.Newer link := by
  intro other hother
  rw [hcurrent] at hother
  exact Option.some.inj hother ▸ hlt

theorem WellFormed.reach (h : registry.WellFormed) (link : LinkIdentity) (observedAt : Timestamp)
    (received : ReceiveStamp) : (registry.reach link observedAt received).WellFormed ∧
      (registry.reach link observedAt received).Behind link := by
  unfold LinkRegistry.reach
  cases hcurrent : registry.current[link.id]? with
  | none => exact ⟨h.addLink hcurrent, behind_entered rfl⟩
  | some current =>
    by_cases hlt : current < link.generation
    · simp only [hlt, if_true]
      exact ⟨h.enterGeneration (newer_of_lt hcurrent hlt) observedAt received, behind_entered rfl⟩
    · simp only [hlt, if_false]
      exact ⟨h, current, hcurrent, UInt64.not_lt.mp hlt⟩

theorem WellFormed.observe (h : registry.WellFormed)
    (hresult : registry.observe link observedAt received = .ok result) : result.WellFormed := by
  obtain ⟨-, -, rfl⟩ := observe_eq_ok.mp hresult
  obtain ⟨hreach, hbehind⟩ := h.reach link observedAt received
  exact hreach.noteEvidence hbehind observedAt received

theorem WellFormed.advanceGeneration (h : registry.WellFormed)
    (hresult : registry.advanceGeneration link at_ received = .ok result) : result.WellFormed := by
  obtain ⟨-, -, ⟨-, rfl⟩ | ⟨hnewer, rfl⟩⟩ := advanceGeneration_eq_ok.mp hresult
  · exact h
  · exact h.enterGeneration hnewer at_ received

theorem WellFormed.reach_of_mem (h : registry.WellFormed) (hmem : link ∈ registry.links) (observedAt : Timestamp)
    (received : ReceiveStamp) : registry.reach link observedAt received = registry := by
  obtain ⟨current, hcurrent, hle⟩ := h.links link hmem
  rw [LinkRegistry.reach, hcurrent]
  exact if_neg (UInt64.not_lt.mpr hle)

theorem noteEvidence_of_mem (hmem : link ∈ registry.links) (observedAt : Timestamp) (received : ReceiveStamp)
    (key : LinkIdentity) : (registry.noteEvidence link observedAt received).marked key = registry.marked key := by
  rw [noteEvidence_marked]
  by_cases hkey : link = key
  · obtain ⟨mark, hmark⟩ := Option.ne_none_iff_exists'.mp (mem_links_iff.mp hmem)
    rw [if_pos hkey, ← hkey, hmark]
    rfl
  · rw [if_neg hkey]

theorem WellFormed.takeEvicted (h : registry.WellFormed) :
    registry.takeEvicted.2.WellFormed := ⟨h.links, h.generations⟩

end LinkRegistry

end Lqf
