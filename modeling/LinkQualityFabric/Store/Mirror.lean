import LinkQualityFabric.Domain.PolicyRegistry
import LinkQualityFabric.Store.EvidenceStore
import LinkQualityFabric.Store.LinkRegistry

/-! Registries that hold the same.

A fabric and one that has replayed its journal are compared up to the times of publication, the origin of
the evidence and the statistics. Each relation below forgets just that, and the operations which the live
side and the replay share take related registries to related ones. -/
namespace Lqf
open Std (ExtTreeMap LawfulEqCmp)
set_option autoImplicit false

/-! ## Policies -/

namespace PolicyRegistry

def face (record : PolicyGenerationRecord) : PolicyStamp × PolicyDocument := (record.stamp, record.document)

structure Same (a b : PolicyRegistry) : Prop where
  maxGenerations : b.maxGenerations = a.maxGenerations
  faces : b.generations.map face = a.generations.map face

variable {a b : PolicyRegistry} (h : Same a b)
include h

theorem Same.length : b.generations.length = a.generations.length := by
  have hlength := congrArg List.length h.faces
  rwa [List.length_map, List.length_map] at hlength

theorem Same.push (record : PolicyGenerationRecord) : Same (a.push record) (b.push record) := by
  refine ⟨h.maxGenerations, ?_⟩
  rw [push_generations, push_generations, evict_eq_drop, evict_eq_drop, List.map_drop, List.map_drop,
    List.map_append, List.map_append, h.faces, List.length_append, List.length_append, h.length, h.maxGenerations]

theorem Same.current : face b.current = face a.current := by
  have hlast : ∀ registry : PolicyRegistry,
      (registry.generations.map face).getLast? = some (face registry.current) := by
    intro registry
    rw [List.getLast?_map, List.getLast?_eq_some_getLast registry.nonempty]
    rfl
  have hsame := congrArg List.getLast? h.faces
  rw [hlast, hlast] at hsame
  exact Option.some.inj hsame

theorem Same.numbers : numbers b.generations = numbers a.generations := by
  have hmap := congrArg (List.map fun entry : PolicyStamp × PolicyDocument => entry.1.generation) h.faces
  rwa [List.map_map, List.map_map] at hmap

end PolicyRegistry

/-! ## Links -/

namespace LinkRegistry

/-- The same generations with the same marks, whatever was seen of them and whatever waits to be dropped. -/
structure Same (a b : LinkRegistry) : Prop where
  limits : b.limits = a.limits
  current : b.current = a.current
  generations : b.generations = a.generations
  marks : ∀ link, b.marked link = a.marked link

variable {a b : LinkRegistry}

theorem Same.refl (a : LinkRegistry) : Same a a := ⟨rfl, rfl, rfl, fun _ => rfl⟩

theorem Same.trans {c : LinkRegistry} (h : Same a b) (h' : Same b c) : Same a c :=
  ⟨h'.limits.trans h.limits, h'.current.trans h.current, h'.generations.trans h.generations,
    fun link => (h'.marks link).trans (h.marks link)⟩

theorem Same.symm (h : Same a b) : Same b a :=
  ⟨h.limits.symm, h.current.symm, h.generations.symm, fun link => (h.marks link).symm⟩

section Same
variable (h : Same a b) (link : LinkIdentity) (observedAt at_ : Timestamp) (received : ReceiveStamp)
include h

theorem Same.room (id : Text) : b.Room id ↔ a.Room id := by
  unfold Room
  rw [h.current, h.limits]

theorem Same.listed : b.listed link = a.listed link := by
  unfold LinkRegistry.listed
  rw [h.generations]

theorem Same.excess : b.excess link = a.excess link := by
  unfold LinkRegistry.excess
  rw [h.listed, h.limits]

theorem Same.noteEvidence :
    Same (a.noteEvidence link observedAt received) (b.noteEvidence link observedAt received) := by
  refine ⟨h.limits, h.current, h.generations, ?_⟩
  intro key
  have hlate : b.lateMark link = a.lateMark link := by
    unfold lateMark
    rw [h.current]
  rw [noteEvidence_marked, noteEvidence_marked, h.marks, h.marks, hlate]

theorem Same.enterGeneration : Same (a.enterGeneration link at_ received) (b.enterGeneration link at_ received) := by
  refine ⟨h.limits, ?_, ?_, ?_⟩
  · exact congrArg (·.insert link.id link.generation) h.current
  · show b.generations.insert link.id ((b.listed link).drop (b.excess link)) =
      a.generations.insert link.id ((a.listed link).drop (a.excess link))
    rw [h.generations, h.listed, h.excess]
  · intro key
    rw [enterGeneration_marked, enterGeneration_marked, h.marks, h.listed, h.excess]

theorem Same.addLink : Same (a.addLink link) (b.addLink link) := by
  refine ⟨h.limits, congrArg (·.insert link.id link.generation) h.current, ?_, h.marks⟩
  show b.generations.insert link.id (b.generations.getD link.id [] ++ [link]) =
    a.generations.insert link.id (a.generations.getD link.id [] ++ [link])
  rw [h.generations]

end Same

variable {link : LinkIdentity} {result registry : LinkRegistry} {key : LinkIdentity}

theorem same_noteEvidence (hmem : link ∈ a.links) (observedAt : Timestamp) (received : ReceiveStamp) :
    Same a (a.noteEvidence link observedAt received) :=
  ⟨rfl, rfl, rfl, noteEvidence_of_mem hmem observedAt received⟩

structure SamePending (a b : LinkRegistry) : Prop extends Same a b where
  evicted : b.evicted = a.evicted

section SamePending
variable (h : SamePending a b) (link : LinkIdentity) (observedAt at_ : Timestamp) (received : ReceiveStamp)
include h

theorem SamePending.enterGeneration :
    SamePending (a.enterGeneration link at_ received) (b.enterGeneration link at_ received) := by
  refine ⟨h.toSame.enterGeneration link at_ received, ?_⟩
  show b.evicted ++ (b.listed link).take (b.excess link) = a.evicted ++ (a.listed link).take (a.excess link)
  rw [h.evicted, h.listed, h.excess]

theorem SamePending.noteEvidence :
    SamePending (a.noteEvidence link observedAt received) (b.noteEvidence link observedAt received) :=
  ⟨h.toSame.noteEvidence link observedAt received, h.evicted⟩

theorem SamePending.reach : SamePending (a.reach link observedAt received) (b.reach link observedAt received) := by
  unfold LinkRegistry.reach
  rw [h.current]
  cases a.current[link.id]? with
  | none => exact ⟨h.addLink link, h.evicted⟩
  | some current =>
    by_cases hnewer : current < link.generation
    · simp only [hnewer, if_true]
      exact h.enterGeneration link observedAt received
    · simp only [hnewer, if_false]
      exact h

end SamePending

variable {observedAt at_ : Timestamp} {received : ReceiveStamp}

theorem SamePending.observe (h : SamePending a b) (hresult : a.observe link observedAt received = .ok result) :
    ∃ other, b.observe link observedAt received = .ok other ∧ SamePending result other := by
  obtain ⟨hvalid, hroom, rfl⟩ := observe_eq_ok.mp hresult
  exact ⟨_, observe_eq_ok.mpr ⟨hvalid, (h.room _).mpr hroom, rfl⟩,
    (h.reach link observedAt received).noteEvidence link observedAt received⟩

theorem SamePending.advanceGeneration (h : SamePending a b)
    (hresult : a.advanceGeneration link at_ received = .ok result) :
    ∃ other, b.advanceGeneration link at_ received = .ok other ∧ SamePending result other := by
  obtain ⟨hvalid, hroom, hcases⟩ := advanceGeneration_eq_ok.mp hresult
  have hroom' := (h.room link.id).mpr hroom
  rcases hcases with ⟨hcurrent, rfl⟩ | ⟨hnewer, rfl⟩
  · rw [← h.current] at hcurrent
    exact ⟨b, advanceGeneration_eq_ok.mpr ⟨hvalid, hroom', .inl ⟨hcurrent, rfl⟩⟩, h⟩
  · have hnewer' : b.Newer link := by
      intro current hcurrent
      rw [h.current] at hcurrent
      exact hnewer current hcurrent
    exact ⟨_, advanceGeneration_eq_ok.mpr ⟨hvalid, hroom', .inr ⟨hnewer', rfl⟩⟩, h.enterGeneration link at_ received⟩

/-! ### What is dropped -/

theorem WellFormed.entered_not_dropped (h : registry.WellFormed) (hnewer : registry.Newer link)
    (hbound : 1 ≤ registry.limits.maxGenerationsPerLink) :
    link ∉ (registry.listed link).take (registry.excess link) := by
  have hnew : link ∉ registry.generations.getD link.id [] := by
    intro hmem
    obtain ⟨-, current, hcurrent, hle⟩ := h.generations link.id link hmem
    exact absurd (hnewer current hcurrent) (UInt64.not_lt.mpr hle)
  have hlisted : registry.listed link = registry.generations.getD link.id [] ++ [link] := by
    unfold LinkRegistry.listed
    exact if_neg hnew
  have hshort : registry.excess link ≤ (registry.generations.getD link.id []).length := by
    unfold LinkRegistry.excess
    rw [hlisted, List.length_append, List.length_singleton]
    omega
  rw [hlisted, List.take_append_of_le_length hshort]
  exact fun hmem => hnew (List.mem_of_mem_take hmem)

theorem WellFormed.reach_evicted (h : registry.WellFormed) (link : LinkIdentity) (observedAt : Timestamp)
    (received : ReceiveStamp) (hbound : 1 ≤ registry.limits.maxGenerationsPerLink) (hevicted : registry.evicted = []) :
    link ∉ (registry.reach link observedAt received).evicted := by
  unfold LinkRegistry.reach
  cases hcurrent : registry.current[link.id]? with
  | none =>
    show link ∉ registry.evicted
    simp [hevicted]
  | some current =>
    by_cases hlt : current < link.generation
    · simp only [hlt, if_true]
      show link ∉ registry.evicted ++ (registry.listed link).take (registry.excess link)
      rw [hevicted, List.nil_append]
      exact h.entered_not_dropped (newer_of_lt hcurrent hlt) hbound
    · simp [hlt, hevicted]

theorem mem_enterGeneration (at_ : Timestamp) (received : ReceiveStamp) (hmem : key ∈ registry.links)
    (hkept : key ∉ (registry.enterGeneration link at_ received).evicted) :
    key ∈ (registry.enterGeneration link at_ received).links := by
  have hnot : key ∉ (registry.listed link).take (registry.excess link) :=
    fun h => hkept (List.mem_append_right _ h)
  rw [mem_links_iff] at hmem ⊢
  rw [enterGeneration_marked]
  simp only [hnot, if_false]
  split
  · exact Option.some_ne_none _
  · rwa [ne_eq, Option.map_eq_none_iff]

theorem mem_reach (observedAt : Timestamp) (received : ReceiveStamp) (hmem : key ∈ registry.links)
    (hkept : key ∉ (registry.reach link observedAt received).evicted) :
    key ∈ (registry.reach link observedAt received).links := by
  unfold LinkRegistry.reach at hkept ⊢
  cases hcurrent : registry.current[link.id]? with
  | none => exact hmem
  | some current =>
    by_cases hlt : current < link.generation
    · simp only [hcurrent, hlt, if_true] at hkept ⊢
      exact mem_enterGeneration observedAt received hmem hkept
    · simpa [hlt] using hmem

theorem mem_noteEvidence :
    key ∈ (registry.noteEvidence link observedAt received).links ↔ link = key ∨ key ∈ registry.links := by
  rw [mem_links_iff, mem_links_iff, noteEvidence_marked]
  by_cases hkey : link = key <;> simp [hkey]

theorem mem_of_observe (hresult : registry.observe link observedAt received = .ok result)
    (h : key ∈ registry.links ∧ key ∉ result.evicted ∨ key = link) : key ∈ result.links := by
  obtain ⟨-, -, rfl⟩ := observe_eq_ok.mp hresult
  rw [mem_noteEvidence]
  rcases h with ⟨hmem, hkept⟩ | rfl
  · exact .inr (mem_reach observedAt received hmem hkept)
  · exact .inl rfl

theorem mem_of_advanceGeneration
    (hresult : registry.advanceGeneration link at_ received = .ok result) (hmem : key ∈ registry.links)
    (hkept : key ∉ result.evicted) : key ∈ result.links := by
  obtain ⟨-, -, ⟨-, rfl⟩ | ⟨-, rfl⟩⟩ := advanceGeneration_eq_ok.mp hresult
  · exact hmem
  · exact mem_enterGeneration at_ received hmem hkept

theorem observe_limits
    (hresult : registry.observe link observedAt received = .ok result) : result.limits = registry.limits := by
  obtain ⟨-, -, rfl⟩ := observe_eq_ok.mp hresult
  show (registry.reach link observedAt received).limits = registry.limits
  unfold LinkRegistry.reach
  split
  · rfl
  · split <;> rfl

theorem advanceGeneration_limits
    (hresult : registry.advanceGeneration link at_ received = .ok result) : result.limits = registry.limits := by
  obtain ⟨-, -, ⟨-, rfl⟩ | ⟨-, rfl⟩⟩ := advanceGeneration_eq_ok.mp hresult <;> rfl

theorem WellFormed.observe_of_mem (h : registry.WellFormed) (hvalid : validateLinkIdentity link = .ok ())
    (hmem : link ∈ registry.links) (observedAt : Timestamp) (received : ReceiveStamp) :
    ∃ result, registry.observe link observedAt received = .ok result ∧ SamePending registry result := by
  obtain ⟨current, hcurrent, -⟩ := h.links link hmem
  refine ⟨_, observe_eq_ok.mpr ⟨hvalid, room_of_some hcurrent, rfl⟩, ?_⟩
  rw [h.reach_of_mem hmem]
  exact ⟨same_noteEvidence hmem observedAt received, rfl⟩

theorem Same.wellFormed (h : Same a b) (ha : a.WellFormed) : b.WellFormed := by
  have hbehind : ∀ link, b.Behind link ↔ a.Behind link := by
    intro link
    unfold Behind
    rw [h.current]
  constructor
  · intro link hmem
    rw [mem_links_iff, h.marks, ← mem_links_iff] at hmem
    exact (hbehind link).mpr (ha.links link hmem)
  · intro id link hmem
    rw [h.generations] at hmem
    obtain ⟨hid, hlink⟩ := ha.generations id link hmem
    exact ⟨hid, (hbehind link).mpr hlink⟩

end LinkRegistry

/-! ## Streams

Streams are compared through a view of their records. A view may forget the origin or the number of a record; it keeps
what a stream looks at. -/

def EvidenceRecord.bare (record : EvidenceRecord) : EvidenceRecord := { record with origin := .live }

structure Faithful (view : EvidenceRecord → EvidenceRecord) : Prop where
  observation : ∀ record, (view record).observation = record.observation
  received : ∀ record, (view record).received = record.received

variable {view : EvidenceRecord → EvidenceRecord} {record record' : EvidenceRecord}

theorem Faithful.observation_eq (hview : Faithful view) (h : view record' = view record) :
    record'.observation = record.observation := by
  rw [← hview.observation, h, hview.observation]

theorem Faithful.received_eq (hview : Faithful view) (h : view record' = view record) :
    record'.received = record.received := by
  rw [← hview.received, h, hview.received]

theorem faithful_bare : Faithful EvidenceRecord.bare := ⟨fun _ => rfl, fun _ => rfl⟩

namespace StreamState

def seen (view : EvidenceRecord → EvidenceRecord) (stream : StreamState) : StreamState :=
  { stream with
    recent := stream.recent.map view
    latestFed := stream.latestFed.map view
    stats := ⟨0, 0, 0, 0, 0, 0⟩ }

/-- A stream without the origins of its records and without its statistics. -/
def bare (stream : StreamState) : StreamState := stream.seen EvidenceRecord.bare

section Seen
variable {view : EvidenceRecord → EvidenceRecord} {stream other : StreamState} {record record' : EvidenceRecord}

/-- The configurations of the tracker agree where it is asked. -/
def SameTracking (observation : Observation) (config config' : CounterContinuityConfig) : Prop :=
  ∀ counter, observation.reading = .counter counter → config' = config

variable {config config' : CounterContinuityConfig}

theorem feedCounter_seen (hobservation : record'.observation = record.observation)
    (hreceived : record'.received = record.received) (h : other.seen view = stream.seen view)
    (hconfig : SameTracking record.observation config config') (outcome : IngestOutcome) :
    (other.feedCounter record' config' outcome).2 = (stream.feedCounter record config outcome).2 ∧
      (other.feedCounter record' config' outcome).1.seen view =
        (stream.feedCounter record config outcome).1.seen view := by
  simp only [seen, mk.injEq] at h
  obtain ⟨hrecent, hdedup, hwatermark, hfed, hcounter, hevent, hreason, hdelta, hrate, hlatest, -⟩ := h
  have hfeeds : ∀ sequence, other.feeds sequence = stream.feeds sequence := by
    intro sequence
    unfold feeds
    rw [hfed]
  unfold feedCounter
  rw [hobservation, hreceived]
  cases hreading : record.observation.reading with
  | gauge gauge => simp [seen, hrecent, hdedup, hwatermark, hfed, hcounter, hevent, hreason, hdelta, hrate, hlatest]
  | counter counter =>
    obtain rfl := hconfig counter hreading
    simp only [hfeeds, hcounter]
    split <;> simp [seen, hrecent, hdedup, hwatermark, hfed, hcounter, hevent, hreason, hdelta, hrate, hlatest]

theorem markFed_seen (hobservation : record'.observation = record.observation) (hrecord : view record' = view record)
    (h : other.seen view = stream.seen view) : (other.markFed record').seen view = (stream.markFed record).seen view := by
  have hone : ∀ (stream : StreamState) (record : EvidenceRecord), (stream.markFed record).seen view =
      if (stream.seen view).feeds record.observation.sequence then
        { stream.seen view with
          latestFed := some (view record), fedSequence := some record.observation.sequence }
      else stream.seen view := by
    intro stream record
    unfold markFed
    rw [show (stream.seen view).feeds record.observation.sequence = stream.feeds record.observation.sequence from rfl]
    split <;> rfl
  rw [hone, hone, h, hobservation, hrecord]

theorem pushRecent_seen (hrecord : view record' = view record) (h : other.seen view = stream.seen view)
    (maxHistory : ℕ) {outcome known : IngestOutcome} (hknown : known = outcome) :
    (other.pushRecent maxHistory record' known).2 = (stream.pushRecent maxHistory record outcome).2 ∧
      (other.pushRecent maxHistory record' known).1.seen view =
        (stream.pushRecent maxHistory record outcome).1.seen view := by
  subst hknown
  simp only [seen, mk.injEq] at h
  obtain ⟨hrecent, hdedup, hwatermark, hfed, hcounter, hevent, hreason, hdelta, hrate, hlatest, -⟩ := h
  have hlength := congrArg List.length hrecent
  rw [List.length_map, List.length_map] at hlength
  simp [pushRecent, seen, hrecent, hdedup, hwatermark, hfed, hcounter, hevent, hreason, hdelta, hrate, hlatest,
    hlength, hrecord, List.map_drop]

/-- The statistics that `accept` and `append` write first are not seen. -/
def countReordered (stream : StreamState) (reordered : Bool) : StreamState :=
  if reordered then { stream with stats := { stream.stats with reordered := stream.stats.reordered + 1 } } else stream

theorem admitted_seen (h : other.seen view = stream.seen view) (reordered : Bool) (window : ℕ)
    (sequence digest : UInt64) : ((other.countReordered reordered).admitSequence window sequence digest).seen view =
      ((stream.countReordered reordered).admitSequence window sequence digest).seen view := by
  have hone : ∀ stream : StreamState, ((stream.countReordered reordered).admitSequence window sequence digest).seen view =
      (stream.seen view).admitSequence window sequence digest := by
    intro stream
    cases reordered <;> rfl
  rw [hone, hone, h]

variable (hview : Faithful view) (hrecord : view record' = view record)
include hview hrecord

section
variable (h : other.seen view = stream.seen view) (hconfig : SameTracking record.observation config config')
  (limits : FabricLimits)
include h hconfig limits

theorem accept_seen (reordered : Bool) :
    (other.accept limits record' config' reordered).1 = (stream.accept limits record config reordered).1 ∧
      (other.accept limits record' config' reordered).2.seen view =
        (stream.accept limits record config reordered).2.seen view := by
  have hobservation := hview.observation_eq hrecord
  have hadmitted := admitted_seen h reordered limits.maxDedupWindow record.observation.sequence
    (evidenceDigest record.observation)
  obtain ⟨houtcome, hfed⟩ := feedCounter_seen hobservation (hview.received_eq hrecord) hadmitted hconfig
    { IngestOutcome.none with reordered := reordered }
  have hmarked := markFed_seen hobservation hrecord hfed
  obtain ⟨hpushed, hstate⟩ := pushRecent_seen hrecord hmarked limits.maxStreamHistory houtcome
  have hrate := congrArg StreamState.rateAdmissible hstate
  have hdepth := congrArg (List.length ∘ StreamState.recent) hstate
  simp only [Function.comp_apply, seen, List.length_map] at hdepth hrate
  have hanswer : ∀ p q : StreamState × IngestOutcome, p.2 = q.2 → p.1.rateAdmissible = q.1.rateAdmissible →
      p.1.recent.length = q.1.recent.length →
      { p.2 with accepted := true, rateAdmissible := p.1.rateAdmissible, streamDepth := p.1.recent.length } =
        { q.2 with accepted := true, rateAdmissible := q.1.rateAdmissible, streamDepth := q.1.recent.length } := by
    intro p q houtcome hrate hdepth
    rw [houtcome, hrate, hdepth]
  unfold accept
  rw [hobservation]
  exact ⟨hanswer _ _ hpushed hrate hdepth, hstate⟩

theorem append_seen : (other.append limits record' config').1 = (stream.append limits record config).1 ∧
      (other.append limits record' config').2.seen view = (stream.append limits record config).2.seen view := by
  have hverdict : ∀ digest, other.verdict limits.maxDedupWindow record.observation.sequence digest =
      stream.verdict limits.maxDedupWindow record.observation.sequence digest := by
    intro digest
    show (other.seen view).verdict limits.maxDedupWindow record.observation.sequence digest = _
    rw [h]
    rfl
  have hlength := congrArg (List.length ∘ StreamState.recent) h
  simp only [Function.comp_apply, seen, List.length_map] at hlength
  unfold append
  rw [hview.observation_eq hrecord]
  simp only [hverdict]
  cases stream.verdict limits.maxDedupWindow record.observation.sequence (evidenceDigest record.observation) with
  | duplicate => exact ⟨by rw [hlength], h⟩
  | idMismatch => exact ⟨rfl, h⟩
  | fenced => exact ⟨rfl, h⟩
  | accept reordered =>
    obtain ⟨houtcome, hstate⟩ := accept_seen hview hrecord h hconfig limits reordered
    exact ⟨congrArg Except.ok houtcome, hstate⟩

end

end Seen

end StreamState

namespace EvidenceStore
open StreamState (SameTracking)

/-! ### Stores that agree on some links -/

/-- As a view of the records shows them, the streams of some links are the same, and as many of them. -/
structure Agree (view : EvidenceRecord → EvidenceRecord) (links : LinkIdentity → Prop) (a b : EvidenceStore) :
    Prop where
  limits : b.limits = a.limits
  streams : ∀ key : StreamKey, links key.link →
    (b.streams[key]?).map (StreamState.seen view) = (a.streams[key]?).map (StreamState.seen view)
  counts : ∀ link, links link → b.streamsOf link = a.streamsOf link

section Agree
variable {view : EvidenceRecord → EvidenceRecord} {links : LinkIdentity → Prop} {a b : EvidenceStore}

theorem Agree.refl (view : EvidenceRecord → EvidenceRecord) (links : LinkIdentity → Prop) (a : EvidenceStore) :
    Agree view links a a :=
  ⟨rfl, fun _ _ => rfl, fun _ _ => rfl⟩

theorem Agree.symm (h : Agree view links a b) : Agree view links b a :=
  ⟨h.limits.symm, fun key hkey => (h.streams key hkey).symm, fun link hlink => (h.counts link hlink).symm⟩

theorem Agree.trans {c : EvidenceStore} (h : Agree view links a b) (h' : Agree view links b c) : Agree view links a c :=
  ⟨h'.limits.trans h.limits, fun key hkey => (h'.streams key hkey).trans (h.streams key hkey),
    fun link hlink => (h'.counts link hlink).trans (h.counts link hlink)⟩

theorem Agree.weaken {fewer : LinkIdentity → Prop} (h : Agree view links a b) (hfewer : ∀ link, fewer link → links link) :
    Agree view fewer a b :=
  ⟨h.limits, fun key hkey => h.streams key (hfewer _ hkey), fun link hlink => h.counts link (hfewer _ hlink)⟩

variable {key : StreamKey} {observation : Observation}

variable (h : Agree view links a b)
include h

theorem Agree.mem (hkey : links key.link) : key ∈ b.streams ↔ key ∈ a.streams := by
  have hsome := congrArg Option.isSome (h.streams key hkey)
  rw [Option.isSome_map, Option.isSome_map] at hsome
  rw [ExtTreeMap.mem_iff_isSome_getElem?, ExtTreeMap.mem_iff_isSome_getElem?, hsome]

theorem Agree.admits (hkey : links key.link) : b.Admits key ↔ a.Admits key := by
  unfold Admits
  rw [h.mem hkey, h.counts _ hkey, h.limits]

theorem Agree.streamAt (hkey : links key.link) : (b.streamAt key).seen view = (a.streamAt key).seen view := by
  have hget : ∀ stream : Option StreamState,
      (stream.getD .fresh).seen view = (stream.map (StreamState.seen view)).getD .fresh := by
    intro stream
    cases stream <;> rfl
  unfold EvidenceStore.streamAt
  rw [hget, hget, h.streams key hkey]

theorem Agree.dropLinks (dropped : List LinkIdentity) :
    Agree view links (dropped.foldl dropLink a) (dropped.foldl dropLink b) := by
  refine ⟨?_, ?_, ?_⟩
  · rw [dropLinks_limits, dropLinks_limits, h.limits]
  · intro key hkey
    rw [dropLinks_getElem?, dropLinks_getElem?]
    split
    · rfl
    · exact h.streams key hkey
  · intro link hlink
    rw [dropLinks_streamsOf, dropLinks_streamsOf, h.counts link hlink]

theorem Agree.dropOthers {dropped : List LinkIdentity} (hothers : ∀ link ∈ dropped, ¬ links link) :
    Agree view links (dropped.foldl dropLink a) b := by
  refine ⟨h.limits.trans (dropLinks_limits _ _).symm, ?_, ?_⟩
  · intro key hkey
    rw [dropLinks_getElem?, if_neg fun hmem => hothers _ hmem hkey]
    exact h.streams key hkey
  · intro link hlink
    rw [dropLinks_streamsOf, if_neg fun hmem => hothers _ hmem hlink]
    exact h.counts link hlink

theorem Agree.append (hview : Faithful view) (hlink : links observation.link)
    {received : ReceiveStamp} {ordinal ordinal' : UInt64} {origin origin' : EvidenceOrigin}
    (hrecord : view ⟨observation, received, ordinal', origin'⟩ = view ⟨observation, received, ordinal, origin⟩)
    {config config' : CounterContinuityConfig} (hconfig : SameTracking observation config config') :
    (b.append observation received ordinal' origin' config').1 = (a.append observation received ordinal origin config).1 ∧
      Agree view links (a.append observation received ordinal origin config).2
        (b.append observation received ordinal' origin' config').2 := by
  have hmem : observation.streamKey ∈ b.streams ↔ observation.streamKey ∈ a.streams := h.mem hlink
  have hcounts : ∀ link, links link → (b.append observation received ordinal' origin' config').2.streamsOf link =
      (a.append observation received ordinal origin config).2.streamsOf link := by
    intro link hknown
    simp only [append_streamsOf, openStream_streamsOf, hmem, h.counts _ hknown,
      h.counts observation.streamKey.link hlink, h.limits]
  have hlimits : (b.append observation received ordinal' origin' config').2.limits =
      (a.append observation received ordinal origin config).2.limits := by
    rw [append_limits, append_limits, h.limits]
  have hadmits_iff : b.Admits observation.streamKey ↔ a.Admits observation.streamKey := h.admits hlink
  by_cases hadmits : a.Admits observation.streamKey
  · obtain ⟨hone, hstream⟩ := a.append_of_admits observation received ordinal origin config hadmits
    obtain ⟨hone', hstream'⟩ := b.append_of_admits observation received ordinal' origin' config'
      (hadmits_iff.mpr hadmits)
    have hat : (b.streamAt observation.streamKey).seen view = (a.streamAt observation.streamKey).seen view :=
      h.streamAt hlink
    obtain ⟨hanswer, hstate⟩ := StreamState.append_seen hview hrecord hat hconfig b.limits
    refine ⟨?_, hlimits, ?_, hcounts⟩
    · rw [hone, hone', ← h.limits]
      exact hanswer
    · intro key hkey
      rw [hstream, hstream', ExtTreeMap.getElem?_insert, ExtTreeMap.getElem?_insert, ← h.limits]
      split
      · exact congrArg some hstate
      · exact h.streams key hkey
  · have hadmits' : ¬ b.Admits observation.streamKey := fun hb => hadmits (hadmits_iff.mp hb)
    refine ⟨?_, hlimits, ?_, hcounts⟩
    · rw [append_of_not_admits _ _ _ _ _ _ hadmits, append_of_not_admits _ _ _ _ _ _ hadmits', h.limits]
    · intro key hkey
      rw [append_of_not_admits _ _ _ _ _ _ hadmits, append_of_not_admits _ _ _ _ _ _ hadmits', admitStream_streams,
        admitStream_streams]
      exact h.streams key hkey

theorem Agree.appendOther (hlink : ¬ links observation.link) (received : ReceiveStamp)
    (ordinal : UInt64) (origin : EvidenceOrigin) (config : CounterContinuityConfig) :
    Agree view links (a.append observation received ordinal origin config).2 b := by
  refine ⟨h.limits.trans (append_limits ..).symm, ?_, ?_⟩
  · intro key hkey
    have hne : ¬ compare observation.streamKey key = .eq := by
      intro hsame
      obtain rfl := LawfulEqCmp.eq_of_compare hsame
      exact hlink hkey
    rw [h.streams key hkey]
    by_cases hadmits : a.Admits observation.streamKey
    · rw [(a.append_of_admits observation received ordinal origin config hadmits).2, ExtTreeMap.getElem?_insert,
        if_neg hne]
    · rw [append_of_not_admits _ _ _ _ _ _ hadmits, admitStream_streams]
  · intro link hknown
    rw [append_streamsOf, openStream_streamsOf, if_neg]
    · exact h.counts link hknown
    · rintro ⟨-, -, rfl⟩
      exact hlink hknown

end Agree

/-! ### Stores that agree up to the origin -/

/-- The same streams up to origins and statistics, and as many of them for each link. -/
structure Same (a b : EvidenceStore) : Prop where
  limits : b.limits = a.limits
  streams : ∀ key : StreamKey, (b.streams[key]?).map StreamState.bare = (a.streams[key]?).map StreamState.bare
  counts : ∀ link, b.streamsOf link = a.streamsOf link

variable {a b : EvidenceStore}

theorem Same.agree (h : Same a b) : Agree EvidenceRecord.bare (fun _ => True) a b :=
  ⟨h.limits, fun key _ => h.streams key, fun link _ => h.counts link⟩

theorem Agree.same (h : Agree EvidenceRecord.bare (fun _ => True) a b) : Same a b :=
  ⟨h.limits, fun key => h.streams key trivial, fun link => h.counts link trivial⟩

theorem Same.refl (a : EvidenceStore) : Same a a := (Agree.refl _ _ a).same

theorem Same.trans {c : EvidenceStore} (h : Same a b) (h' : Same b c) : Same a c := (h.agree.trans h'.agree).same

theorem Same.symm (h : Same a b) : Same b a := h.agree.symm.same

theorem Same.dropLinks (h : Same a b) (dropped : List LinkIdentity) :
    Same (dropped.foldl dropLink a) (dropped.foldl dropLink b) :=
  (h.agree.dropLinks dropped).same

theorem Same.append (h : Same a b) (observation : Observation) (received : ReceiveStamp) (ordinal : UInt64)
    (origin origin' : EvidenceOrigin) (config : CounterContinuityConfig) :
    (b.append observation received ordinal origin' config).1 = (a.append observation received ordinal origin config).1 ∧
      Same (a.append observation received ordinal origin config).2
        (b.append observation received ordinal origin' config).2 := by
  have hrecord : EvidenceRecord.bare ⟨observation, received, ordinal, origin'⟩ =
      EvidenceRecord.bare ⟨observation, received, ordinal, origin⟩ := rfl
  obtain ⟨hanswer, hagree⟩ := h.agree.append faithful_bare trivial hrecord (fun _ _ => rfl)
  exact ⟨hanswer, hagree.same⟩

variable {observation : Observation} {dropped : List LinkIdentity} {store : EvidenceStore} {link : LinkIdentity}

theorem append_dropLinks (store : EvidenceStore) (observation : Observation) (received : ReceiveStamp)
    (ordinal : UInt64) (origin : EvidenceOrigin) (config : CounterContinuityConfig)
    (hlink : observation.link ∉ dropped) :
    ((dropped.foldl dropLink store).append observation received ordinal origin config).1 =
        (store.append observation received ordinal origin config).1 ∧
      Same ((dropped.foldl dropLink store).append observation received ordinal origin config).2
        (dropped.foldl dropLink (store.append observation received ordinal origin config).2) := by
  have hothers : Agree EvidenceRecord.bare (· ∉ dropped) (dropped.foldl dropLink store) store :=
    (Agree.refl _ _ store).dropOthers fun link hmem hnot => hnot hmem
  have hsame : EvidenceRecord.bare ⟨observation, received, ordinal, origin⟩ =
      EvidenceRecord.bare ⟨observation, received, ordinal, origin⟩ := rfl
  obtain ⟨hanswer, hagree⟩ := hothers.append faithful_bare hlink hsame fun _ _ => @rfl _ config
  have hkept := (hagree.symm.dropOthers fun link hmem hnot => hnot hmem).symm
  -- Neither side has a stream of a dropped link, and the evidence is of another one.
  have hgone : Agree EvidenceRecord.bare (· ∈ dropped) (dropped.foldl dropLink store)
      (dropped.foldl dropLink (store.append observation received ordinal origin config).2) := by
    refine ⟨by simp, ?_, ?_⟩
    · intro key hkey
      rw [dropLinks_getElem?, dropLinks_getElem?, if_pos hkey, if_pos hkey]
    · intro link hmem
      rw [dropLinks_streamsOf, dropLinks_streamsOf, if_pos hmem, if_pos hmem]
  have hempty := hgone.appendOther hlink received ordinal origin config
  refine ⟨hanswer.symm, hkept.limits, ?_, ?_⟩
  · intro key
    by_cases hkey : key.link ∈ dropped
    · exact hempty.streams key hkey
    · exact hkept.streams key hkey
  · intro link
    by_cases hmem : link ∈ dropped
    · exact hempty.counts link hmem
    · exact hkept.counts link hmem

/-! ### Whose streams there are -/

def Knows (store : EvidenceStore) (link : LinkIdentity) : Prop :=
  store.streamsOf link ≠ 0 ∨ ∃ key ∈ store.streams, key.link = link

variable {received : ReceiveStamp} {ordinal : UInt64} {origin : EvidenceOrigin} {config : CounterContinuityConfig}

theorem knows_of_append (h : (store.append observation received ordinal origin config).2.Knows link) :
    store.Knows link ∨ link = observation.link := by
  by_cases hlink : link = observation.link
  · exact .inr hlink
  · left
    rcases h with hcount | ⟨key, hkey, hkeylink⟩
    · rw [append_streamsOf, openStream_streamsOf, if_neg fun hall => hlink hall.2.2.symm] at hcount
      exact .inl hcount
    · refine .inr ⟨key, ?_, hkeylink⟩
      by_cases hadmits : store.Admits observation.streamKey
      · rw [(store.append_of_admits observation received ordinal origin config hadmits).2, ExtTreeMap.mem_insert,
          LawfulEqCmp.compare_eq_iff_eq] at hkey
        rcases hkey with hsame | hold
        · exact absurd (by rw [← hkeylink, ← hsame]; rfl) hlink
        · exact hold
      · rwa [append_of_not_admits _ _ _ _ _ _ hadmits, admitStream_streams] at hkey

theorem knows_of_dropLinks (h : (dropped.foldl dropLink store).Knows link) : link ∉ dropped ∧ store.Knows link := by
  rcases h with hcount | ⟨key, hkey, rfl⟩
  · rw [dropLinks_streamsOf] at hcount
    split at hcount
    · exact absurd rfl hcount
    · next hlink => exact ⟨hlink, .inl hcount⟩
  · rw [ExtTreeMap.mem_iff_isSome_getElem?, dropLinks_getElem?] at hkey
    split at hkey
    · simp at hkey
    · next hlink => exact ⟨hlink, .inr ⟨key, ExtTreeMap.mem_iff_isSome_getElem?.mpr hkey, rfl⟩⟩

theorem answers_of_not_knows (h : ¬ store.Knows observation.link) (hbound : 1 ≤ store.limits.maxStreamsPerLink) :
    store.Admits observation.streamKey ∧ Answers store.limits (store.streamAt observation.streamKey) observation := by
  unfold Knows at h
  rw [not_or, not_not, not_exists] at h
  obtain ⟨hcount, hnone⟩ := h
  refine ⟨.inr ?_, ?_⟩
  · rw [show observation.streamKey.link = observation.link from rfl, hcount]
    exact hbound
  · have hfresh : store.streamAt observation.streamKey = .fresh := by
      unfold EvidenceStore.streamAt
      rw [ExtTreeMap.getElem?_eq_none fun hmem => hnone _ ⟨hmem, rfl⟩]
      rfl
    rw [hfresh]
    exact ⟨by simp [StreamState.verdict, StreamState.fresh], by simp [StreamState.verdict, StreamState.fresh]⟩

theorem same_of_append_error {status : Status}
    (h : (store.append observation received ordinal origin config).1 = .error status) :
    Same store (store.append observation received ordinal origin config).2 := by
  refine ⟨append_limits .., ?_, ?_⟩
  · intro key
    have hcontent := append_error_content h key
    have hbare : StreamState.bare ∘ content = StreamState.bare := rfl
    have hmap := congrArg (Option.map StreamState.bare) hcontent
    rwa [Option.map_map, Option.map_map, hbare] at hmap
  · intro link
    rw [append_streamsOf, openStream_streamsOf]
    refine if_neg ?_
    rintro ⟨hnew, hroom, -⟩
    have hfresh : store.streamAt observation.streamKey = .fresh := by
      unfold EvidenceStore.streamAt
      rw [ExtTreeMap.getElem?_eq_none hnew]
      rfl
    rw [(store.append_of_admits observation received ordinal origin config (.inr hroom)).1, hfresh] at h
    exact (stream_append_error h).1 rfl

end EvidenceStore

end Lqf
