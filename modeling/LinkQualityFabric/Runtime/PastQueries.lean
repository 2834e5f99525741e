import LinkQualityFabric.Classify.AsOf
import LinkQualityFabric.Runtime.Isolation

/-! Queries about an earlier instant.

A run is cut at an instant of the steady clock. The query asked then saw the streams as they were; the window query
asked at the end sees them grown, and cuts them at the instant again. It selects by arrival what was selected by
number, and runs the tracker over the ring again, under the policy of today. -/
namespace Lqf
open Foundations
open Std (ExtTreeMap LawfulEqCmp)
set_option autoImplicit false

namespace LinkRegistry
variable {registry links : LinkRegistry} {link : LinkIdentity} {call : LinkCall}

theorem WellFormed.not_evicted_of_current (h : registry.WellFormed) (happly : call.apply registry = .ok links)
    (hcurrent : links.current[link.id]? = registry.current[link.id]?) (hpending : link ∉ registry.evicted) :
    link ∉ links.evicted := by
  have hentered : ∀ (entered : LinkIdentity) (at_ : Timestamp) (received : ReceiveStamp), registry.Newer entered →
      (registry.enterGeneration entered at_ received).current[link.id]? = registry.current[link.id]? →
      link ∉ (registry.enterGeneration entered at_ received).evicted := by
    intro entered at_ received hnewer hsame
    show link ∉ registry.evicted ++ (registry.listed entered).take (registry.excess entered)
    rw [List.mem_append, not_or]
    refine ⟨hpending, fun hdropped => ?_⟩
    have hid := h.id_of_listed (List.mem_of_mem_take hdropped)
    rw [enterGeneration_current, if_pos hid.symm] at hsame
    exact absurd (hnewer _ (hid ▸ hsame.symm)) (UInt64.lt_irrefl _)
  cases change_of_apply happly with
  | first _ _ _ _ => exact hpending
  | noted _ _ _ _ => exact hpending
  | newer entered observedAt received hnewer => exact hentered entered observedAt received hnewer hcurrent
  | same _ _ _ _ => exact hpending
  | entered entered at_ received hnewer => exact hentered entered at_ received hnewer hcurrent

end LinkRegistry

namespace StreamState
variable {limits : FabricLimits} {stream : StreamState} {record : EvidenceRecord} {config : CounterContinuityConfig}

theorem room_of_unevicted (hbounded : stream.Bounded limits) (hbefore : stream.stats.evicted = 0)
    (hafter : (stream.append limits record config).2.stats.evicted = 0)
    (htakes : stream.takes limits record.observation = true) : stream.recent.length < limits.maxStreamHistory := by
  obtain ⟨reordered, haccept⟩ := append_of_takes htakes config
  have hring := hbounded.recent
  rw [haccept, accept_evicted, hbefore, UInt64.zero_add, List.length_append, List.length_singleton] at hafter
  by_contra hfull
  have hone : stream.recent.length + 1 - limits.maxStreamHistory = 1 := by omega
  rw [hone] at hafter
  cases hafter

end StreamState

namespace Fabric
open LinkRegistry

/-! ## What a response does to the evidence -/

def drainedBy (links : LinkRegistry) (fabric : Fabric) : EvidenceStore :=
  links.evicted.foldl EvidenceStore.dropLink fabric.evidence

/-- Nothing, or evictions, or evictions and one append. -/
inductive Effect (fabric : Fabric) (event : FabricCall × CallIo) (after : Fabric) : Prop
  | none (hlinks : after.links = fabric.links) (hevidence : after.evidence = fabric.evidence)
  | drained (call : LinkCall) (links : LinkRegistry) (happly : call.apply fabric.links = .ok links)
      (hlinks : after.links = links.takeEvicted.2) (hevidence : after.evidence = fabric.drainedBy links)
  | appended (call : LinkCall) (links : LinkRegistry) (happly : call.apply fabric.links = .ok links)
      (hlinks : after.links = links.takeEvicted.2) (observation : Observation) (hevent : event.1 = .ingest observation)
      (ordinal : UInt64)
      (hevidence : after.evidence = ((fabric.drainedBy links).append observation (fabric.receiveStamp event.2.now) ordinal
        .live (counterConfigFor fabric.policies.current.document observation.metric)).2)

section Effects
variable {fabric before after : Fabric} {event : FabricCall × CallIo}

theorem Effect.then_only (h : Effect fabric event before) (honly : JournalRuns before after) :
    Effect fabric event after := by
  have hlinks := congrArg FabricState.links honly.state
  have hevidence := congrArg FabricState.evidence honly.state
  cases h with
  | none hsame hkept => exact .none (hlinks.trans hsame) (hevidence.trans hkept)
  | drained call links happly hdrained hdropped =>
    exact .drained call links happly (hlinks.trans hdrained) (hevidence.trans hdropped)
  | appended call links happly hdrained observation hevent ordinal hstored =>
    exact .appended call links happly (hlinks.trans hdrained) observation hevent ordinal (hevidence.trans hstored)

variable {io : CallIo} {observation : Observation} {call : FabricCall}

theorem IngestEnds.effect {result : Outcome IngestOutcome × Fabric} (h : IngestEnds fabric io observation result) :
    Effect fabric (.ingest observation, io) result.2 := by
  cases h with
  | kept status stats => exact .none rfl rfl
  | @unlinked links _ hobserve _ =>
    have hdrained : Effect fabric (.ingest observation, io) (fabric.observed links) :=
      .drained (.observe _ _ _) links hobserve rfl rfl
    exact hdrained.then_only ((entered_only _ _ _ _).trans (.same ⟨rfl, rfl, rfl, rfl, rfl, rfl⟩ rfl))
  | @stored links _ hobserve =>
    have honly := (fabric.entered_only io observation links).state
    have hstored := ((fabric.entered io observation links).storeEvidence_only io observation (fabric.receiveStamp io.now)
      (fabric.fences observation.link)).state
    rw [honly] at hstored
    exact .appended (.observe _ _ _) links hobserve (congrArg FabricState.links hstored) observation rfl _
      (congrArg FabricState.evidence hstored)

theorem Plans.effect {kind : JournalRecordKind} {encoded : Outcome Bytes}
    (h : Plans fabric io call after kind encoded) : Effect fabric (call, io) after := by
  cases h with
  | declare _ _ => exact .none rfl rfl
  | register hplan => exact .drained (.observe _ _ _) _ (planRegistration_eq_ok.mp hplan).2 rfl rfl
  | advance hplan => exact .drained (.advance _ _ _) _ (planAdvance_eq_ok.mp hplan).2 rfl rfl
  | publish _ _ => exact .none rfl rfl

theorem Ends.effect {result : Outcome FabricReply × Fabric} (h : Ends fabric io call result) :
    Effect fabric (call, io) result.2 := by
  cases h with
  | kept stats degraded _ => exact .none rfl rfl
  | unencoded _ hplan => exact hplan.effect
  | appended _ hplan _ _ =>
    exact hplan.effect.then_only ((journalAppend_only _ _ _ _).trans (.same ⟨rfl, rfl, rfl, rfl, rfl, rfl⟩ rfl))

theorem respondLocked_effect (fabric : Fabric) (event : FabricCall × CallIo) :
    Effect fabric event (fabric.respondLocked event).2 := by
  obtain ⟨call, io⟩ := event
  cases call with
  | ingest observation => exact (fabric.ingestLocked_ends io observation).effect
  | _ => exact (fabric.respondLocked_ends _ io (by simp)).effect

theorem respond_effect (fabric : Fabric) (event : FabricCall × CallIo) : Effect fabric event (fabric.respond event).2 := by
  rw [respond_eq]
  split
  · exact .none rfl rfl
  · cases respondLocked_effect (fabric.letWriterRun event.2.writer) event with
    | none hsame hkept => exact .none hsame hkept
    | drained call links happly hafter hdropped => exact .drained call links happly hafter hdropped
    | appended call links happly hafter observation hevent ordinal hstored =>
      exact .appended call links happly hafter observation hevent ordinal hstored

/-! ## One stream -/

inductive Leaves (fabric : Fabric) (event : FabricCall × CallIo) (key : StreamKey) (stream after : StreamState) : Prop
  | same (h : after = stream)
  | appended (observation : Observation) (hevent : event.1 = .ingest observation) (hkey : observation.streamKey = key)
      (ordinal : UInt64)
      (h : after = (stream.append fabric.evidence.limits ⟨observation, fabric.receiveStamp event.2.now, ordinal, .live⟩
        (counterConfigFor fabric.policies.current.document observation.metric)).2)

theorem streamAt_drainedBy (fabric : Fabric) (links : LinkRegistry) (key : StreamKey) :
    (fabric.drainedBy links).streamAt key =
      if key.link ∈ links.evicted then .fresh else fabric.evidence.streamAt key := by
  unfold EvidenceStore.streamAt drainedBy
  rw [EvidenceStore.dropLinks_getElem?]
  split <;> rfl

theorem leaves_of_append {store : EvidenceStore} (hlimits : store.limits = fabric.evidence.limits)
    (hevent : event.1 = .ingest observation) (ordinal : UInt64) (key : StreamKey) :
    Leaves fabric event key (store.streamAt key)
      ((store.append observation (fabric.receiveStamp event.2.now) ordinal .live
        (counterConfigFor fabric.policies.current.document observation.metric)).2.streamAt key) := by
  rcases EvidenceStore.step_cases store ⟨observation, fabric.receiveStamp event.2.now, ordinal, .live,
    counterConfigFor fabric.policies.current.document observation.metric⟩ key with ⟨hkey, -, hstream⟩ | ⟨-, hstream⟩
  · refine .appended observation hevent hkey ordinal ?_
    rw [← hlimits]
    exact EvidenceStore.streamAt_of_some hstream
  · exact .same (EvidenceStore.streamAt_of_getElem? hstream)

theorem Effect.leaves_some (h : Effect fabric event after) (key : StreamKey) :
    ∃ stream, (stream = fabric.evidence.streamAt key ∨ stream = .fresh) ∧
      Leaves fabric event key stream (after.evidence.streamAt key) := by
  have hdrained : ∀ links : LinkRegistry, (fabric.drainedBy links).streamAt key = fabric.evidence.streamAt key ∨
      (fabric.drainedBy links).streamAt key = .fresh := by
    intro links
    rw [streamAt_drainedBy]
    split
    · exact .inr rfl
    · exact .inl rfl
  cases h with
  | none _ hevidence => exact ⟨_, .inl rfl, .same (by rw [hevidence])⟩
  | drained call links _ _ hevidence => exact ⟨_, hdrained links, .same (by rw [hevidence])⟩
  | appended call links _ _ observation hevent ordinal hevidence =>
    refine ⟨_, hdrained links, ?_⟩
    rw [hevidence]
    exact leaves_of_append (EvidenceStore.dropLinks_limits _ _) hevent ordinal key

theorem Effect.leaves (h : Effect fabric event after) (hlinks : fabric.links.WellFormed) {key : StreamKey}
    (hcurrent : after.links.current[key.link.id]? = fabric.links.current[key.link.id]?)
    (hpending : key.link ∉ fabric.links.evicted) :
    Leaves fabric event key (fabric.evidence.streamAt key) (after.evidence.streamAt key) ∧
      key.link ∉ after.links.evicted := by
  have hkept : ∀ (call : LinkCall) (links : LinkRegistry), call.apply fabric.links = .ok links →
      after.links = links.takeEvicted.2 →
        (fabric.drainedBy links).streamAt key = fabric.evidence.streamAt key ∧ key.link ∉ after.links.evicted := by
    intro call links happly hafter
    rw [hafter] at hcurrent ⊢
    rw [streamAt_drainedBy, if_neg (hlinks.not_evicted_of_current happly hcurrent hpending)]
    exact ⟨rfl, List.not_mem_nil⟩
  cases h with
  | none hsame hevidence => exact ⟨.same (by rw [hevidence]), by rw [hsame]; exact hpending⟩
  | drained call links happly hafter hevidence =>
    obtain ⟨hstream, hnone⟩ := hkept call links happly hafter
    exact ⟨.same (by rw [hevidence, hstream]), hnone⟩
  | appended call links happly hafter observation hevent ordinal hevidence =>
    obtain ⟨hstream, hnone⟩ := hkept call links happly hafter
    refine ⟨?_, hnone⟩
    rw [hevidence, ← hstream]
    exact leaves_of_append (EvidenceStore.dropLinks_limits _ _) hevent ordinal key

end Effects

/-! ## What a run leaves of a stream -/

/-- What reaches the tracker of the stream reaches it in its order, under the counter settings of the document. -/
def InOrder (key : StreamKey) (document : PolicyDocument) (fabric : Fabric) (event : FabricCall × CallIo) : Prop :=
  ∀ observation, event.1 = .ingest observation → observation.streamKey = key →
    ((fabric.evidence.streamAt key).takes fabric.evidence.limits observation = true →
        (fabric.evidence.streamAt key).feeds observation.sequence = true) ∧
      ∀ counter, observation.reading = .counter counter →
        counterConfigFor fabric.policies.current.document key.metric = counterConfigFor document key.metric

def Unfed (key : StreamKey) (fabric : Fabric) (event : FabricCall × CallIo) : Prop :=
  ∀ observation, event.1 = .ingest observation → observation.streamKey = key →
    (fabric.evidence.streamAt key).takes fabric.evidence.limits observation = true →
      (fabric.evidence.streamAt key).feeds observation.sequence = false

def Unevicted (link : LinkIdentity) (fabric : Fabric) : Prop :=
  ∀ key : StreamKey, key.link = link → (fabric.evidence.streamAt key).stats.evicted = 0

def KeepsCurrent (id : Text) (fabric : Fabric) (event : FabricCall × CallIo) : Prop :=
  (machine.step fabric event).2.links.current[id]? = fabric.links.current[id]?

section Runs
variable {fabric : Fabric} {events : List (FabricCall × CallIo)} {key : StreamKey} {now : ClockReading}

theorem Reachable.final (h : Reachable fabric) (events : List (FabricCall × CallIo)) :
    Reachable (machine.final fabric events) := by
  induction events generalizing fabric with
  | nil => exact h
  | cons event rest ih => exact ih (.called event.1 event.2 h)

theorem final_epoch (fabric : Fabric) (events : List (FabricCall × CallIo)) :
    (machine.final fabric events).epoch = fabric.epoch := by
  induction events generalizing fabric with
  | nil => rfl
  | cons event rest ih =>
    exact (ih (fabric.respond event).2).trans (RunsBy.anyCall fabric event.1 event.2).epoch

theorem final_current_le {id : Text} {current : UInt64} (h : fabric.links.current[id]? = some current)
    (events : List (FabricCall × CallIo)) :
    ∃ later, (machine.final fabric events).links.current[id]? = some later ∧ current ≤ later := by
  induction events generalizing fabric current with
  | nil => exact ⟨current, h, UInt64.le_refl _⟩
  | cons event rest ih =>
    obtain ⟨middle, hmiddle, hle⟩ := respond_current_le fabric event h
    obtain ⟨later, hlater, hle'⟩ := ih hmiddle
    exact ⟨later, hlater, UInt64.le_trans hle hle'⟩

theorem meets_keepsCurrent {id : Text}
    (h : (machine.final fabric events).links.current[id]? = fabric.links.current[id]?) :
    machine.Meets (KeepsCurrent id) fabric events := by
  induction events generalizing fabric with
  | nil => trivial
  | cons event rest ih =>
    have hstep : KeepsCurrent id fabric event := by
      unfold KeepsCurrent
      cases hnext : (machine.step fabric event).2.links.current[id]? with
      | none =>
        cases hfirst : fabric.links.current[id]? with
        | none => rfl
        | some current =>
          obtain ⟨later, hlater, -⟩ := respond_current_le fabric event hfirst
          rw [hnext] at hlater
          cases hlater
      | some next =>
        obtain ⟨last, hlast, hle⟩ := final_current_le hnext rest
        rw [← h, Machine.final_cons, hlast]
        obtain ⟨later, hlater, hle'⟩ := respond_current_le fabric event (h.symm.trans hlast)
        rw [hnext] at hlater
        cases hlater
        rw [UInt64.le_antisymm hle hle']
    refine ⟨hstep, ih ?_⟩
    rw [hstep]
    exact h

theorem early_of_allRecovered (h : FabricState.AllRecovered fabric.toFabricState) (key : StreamKey) (now : ClockReading)
    (epoch : UInt64) : (fabric.evidence.streamAt key).Early now epoch := by
  rcases EvidenceStore.Each.streamAt h key with hfresh | horigin
  · rw [hfresh]
    exact StreamState.early_fresh now epoch
  · intro record hrecord
    simp [receivedAfter, horigin record hrecord]

theorem early_final (hsteady : ∀ event ∈ events, event.2.now.steadyNanos ≤ now.steadyNanos) {epoch : UInt64}
    (hstart : (fabric.evidence.streamAt key).Early now epoch) :
    ((machine.final fabric events).evidence.streamAt key).Early now epoch := by
  refine machine.invariant (P := fun state => (state.evidence.streamAt key).Early now epoch)
    (fun state event hstate hevent => ?_) hstart (machine.meets_of_forall fabric hsteady)
  obtain ⟨stream, hstream, hleaves⟩ := (respond_effect state event).leaves_some key
  have hearly : stream.Early now epoch := by
    rcases hstream with rfl | rfl
    · exact hstate
    · exact StreamState.early_fresh now epoch
  show ((state.respond event).2.evidence.streamAt key).Early now epoch
  cases hleaves with
  | same h => rw [h]; exact hearly
  | appended observation _ _ ordinal h =>
    rw [h]
    refine hearly.append ?_ _ _
    have hnever : ¬ now.steadyNanos < event.2.now.steadyNanos := Int64.not_lt.mpr hevent
    simp [receivedAfter, receiveStamp, hnever]

theorem inStep_final {document : PolicyDocument} (hreachable : Reachable fabric)
    (horder : machine.Meets (InOrder key document) fabric events)
    (hroom : machine.Meets (fun state event => Unevicted key.link state ∧ Unevicted key.link (machine.step state event).2)
      fabric events) (hstart : (fabric.evidence.streamAt key).InStep (counterConfigFor document key.metric)) :
    ((machine.final fabric events).evidence.streamAt key).InStep (counterConfigFor document key.metric) := by
  refine (machine.invariant (P := fun state => Reachable state ∧
    (state.evidence.streamAt key).InStep (counterConfigFor document key.metric))
    (fun state event hstate hevent => ⟨.called event.1 event.2 hstate.1, ?_⟩) ⟨hreachable, hstart⟩
    (machine.meets_and horder hroom)).2
  obtain ⟨horder, hbefore, hafter⟩ := hevent
  obtain ⟨stream, hstream, hleaves⟩ := (respond_effect state event).leaves_some key
  have hfresh := StreamState.bounded_fresh state.evidence.limits
  have hbounded : stream.Bounded state.evidence.limits ∧ stream.stats.evicted = 0 ∧
      stream.InStep (counterConfigFor document key.metric) := by
    rcases hstream with rfl | rfl
    · exact ⟨EvidenceStore.bounded_streamAt hstate.1.vetted.evidence key, hbefore key rfl, hstate.2⟩
    · exact ⟨hfresh, rfl, StreamState.inStep_fresh _⟩
  obtain ⟨hring, hnone, hstep⟩ := hbounded
  have hkept := hafter key rfl
  show ((state.respond event).2.evidence.streamAt key).InStep _
  change ((state.respond event).2.evidence.streamAt key).stats.evicted = 0 at hkept
  cases hleaves with
  | same h => rw [h]; exact hstep
  | appended observation hevent hkey ordinal h =>
    rw [h] at hkept ⊢
    have hmetric : observation.metric = key.metric := congrArg StreamKey.metric hkey
    obtain ⟨hfeeds, hconfig⟩ := horder observation hevent hkey
    refine hstep.append (fun htakes => ?_) (StreamState.room_of_unevicted hring hnone hkept) (fun hcounter => ?_)
    · rcases hstream with rfl | rfl
      · exact hfeeds htakes
      · rfl
    · rw [hmetric]
      cases hreading : observation.reading with
      | gauge reading => simp [EvidenceRecord.counterReading?, hreading] at hcounter
      | counter counter => exact hconfig counter hreading

theorem grown_final (now : ClockReading) (hreachable : Reachable fabric) (hpending : key.link ∉ fabric.links.evicted)
    (hsteady : ∀ event ∈ events, now.steadyNanos < event.2.now.steadyNanos)
    (hcurrent : machine.Meets (KeepsCurrent key.link.id) fabric events)
    (hroom : machine.Meets (fun state event => Unevicted key.link state ∧ Unevicted key.link (machine.step state event).2)
      fabric events) :
    (fabric.evidence.streamAt key).Grown now fabric.epoch ((machine.final fabric events).evidence.streamAt key) := by
  have hfirst : (fabric.evidence.streamAt key).Grown now fabric.epoch (fabric.evidence.streamAt key) :=
    ⟨⟨[], (List.append_nil _).symm, fun _ h => absurd h List.not_mem_nil⟩, .inl ⟨rfl, rfl⟩⟩
  refine (machine.invariant (P := fun state => Reachable state ∧ state.epoch = fabric.epoch ∧
    key.link ∉ state.links.evicted ∧
    (fabric.evidence.streamAt key).Grown now fabric.epoch (state.evidence.streamAt key))
    (fun state event hstate hevent => ?_) ⟨hreachable, rfl, hpending, hfirst⟩
    (machine.meets_and (machine.meets_of_forall fabric hsteady) (machine.meets_and hcurrent hroom))).2.2.2
  obtain ⟨hreached, hepoch, hnone, hgrown⟩ := hstate
  obtain ⟨hlate, hkeeps, hbefore, hafter⟩ := hevent
  obtain ⟨hleaves, hdrained⟩ := (respond_effect state event).leaves hreached.sound.links hkeeps hnone
  refine ⟨.called event.1 event.2 hreached, (final_epoch state [event]).trans hepoch, hdrained, ?_⟩
  have hkept := hafter key rfl
  show (fabric.evidence.streamAt key).Grown now fabric.epoch ((state.respond event).2.evidence.streamAt key)
  change ((state.respond event).2.evidence.streamAt key).stats.evicted = 0 at hkept
  cases hleaves with
  | same h => rw [h]; exact hgrown
  | appended observation hevent hkey ordinal h =>
    rw [h] at hkept ⊢
    refine hgrown.append ?_ (StreamState.room_of_unevicted
      (EvidenceStore.bounded_streamAt hreached.vetted.evidence key) (hbefore key rfl) hkept) _
    simp [receivedAfter, receiveStamp, hepoch, hlate]

theorem rested_final (hreachable : Reachable fabric) (hpending : key.link ∉ fabric.links.evicted)
    (hcurrent : machine.Meets (KeepsCurrent key.link.id) fabric events)
    (hunfed : machine.Meets (Unfed key) fabric events) :
    (fabric.evidence.streamAt key).Rested ((machine.final fabric events).evidence.streamAt key) := by
  refine (machine.invariant (P := fun state => Reachable state ∧ key.link ∉ state.links.evicted ∧
    (fabric.evidence.streamAt key).Rested (state.evidence.streamAt key))
    (fun state event hstate hevent => ?_) ⟨hreachable, hpending, rfl, rfl⟩ (machine.meets_and hcurrent hunfed)).2.2
  obtain ⟨hreached, hnone, hrested⟩ := hstate
  obtain ⟨hkeeps, hunfed⟩ := hevent
  obtain ⟨hleaves, hdrained⟩ := (respond_effect state event).leaves hreached.sound.links hkeeps hnone
  refine ⟨.called event.1 event.2 hreached, hdrained, ?_⟩
  show (fabric.evidence.streamAt key).Rested ((state.respond event).2.evidence.streamAt key)
  cases hleaves with
  | same h => rw [h]; exact hrested
  | appended observation hevent hkey ordinal h =>
    rw [h]
    exact hrested.append (hunfed observation hevent hkey) _

end Runs

/-! ## The report of the instant -/

/-- A run cut at an instant of the steady clock. Since then the policy, what is declared for the link and its current
generation have stayed, and at no time has a stream of the link lost a record of its ring. -/
structure CutAt (instant : Int64) (link : LinkIdentity) (start : Fabric) (earlier later : List (FabricCall × CallIo)) :
    Prop where
  positive : 0 < instant
  before : ∀ event ∈ earlier, event.2.now.steadyNanos ≤ instant
  behind : ∀ event ∈ later, instant < event.2.now.steadyNanos
  policy : (machine.final start (earlier ++ later)).policies.current = (machine.final start earlier).policies.current
  views : (machine.final start (earlier ++ later)).capabilities.viewForLink link =
    (machine.final start earlier).capabilities.viewForLink link
  current : (machine.final start (earlier ++ later)).links.current[link.id]? =
    (machine.final start earlier).links.current[link.id]?
  unevicted : ∀ past, past <+: earlier ++ later → Unevicted link (machine.final start past)

/-- Everything fed to a stream up to the instant came in its order and under the counter settings of the instant, or
nothing was fed to it since. -/
def Retraced (key : StreamKey) (start : Fabric) (earlier later : List (FabricCall × CallIo)) : Prop :=
  let document := (machine.final start earlier).policies.current.document
  (start.evidence.streamAt key).InStep (counterConfigFor document key.metric) ∧
      machine.Meets (InOrder key document) start earlier ∨
    machine.Meets (Unfed key) (machine.final start earlier) later

variable {link : LinkIdentity} {start : Fabric} {earlier later : List (FabricCall × CallIo)} {fabric : Fabric}
  {key : StreamKey} {document : PolicyDocument} {value : Double}

theorem CutAt.agreesAt {instant : Int64} (h : CutAt instant link start earlier later) (hreachable : Reachable start)
    (hrecovered : FabricState.AllRecovered start.toFabricState)
    (hpending : link ∉ (machine.final start earlier).links.evicted)
    (hstreams : ∀ key : StreamKey, key.link = link → Retraced key start earlier later) (wall wall' : Int64) :
    AgreesAt link ((machine.final start earlier).contextAt ⟨wall, instant⟩)
      ((machine.final start (earlier ++ later)).contextAt ⟨wall', instant⟩) := by
  have hepoch : (machine.final start (earlier ++ later)).epoch = (machine.final start earlier).epoch := by
    rw [final_epoch, final_epoch]
  have hcontribution : ∀ key : StreamKey, key.link = link → ∀ (metric : MetricId) (lane : LaneDimension)
      (declared : List DeclaredSource),
      contribution ((machine.final start (earlier ++ later)).contextAt ⟨wall', instant⟩) link metric lane declared key
          ((machine.final start (earlier ++ later)).evidence.streamAt key) =
        contribution ((machine.final start earlier).contextAt ⟨wall, instant⟩) link metric lane declared key
          ((machine.final start earlier).evidence.streamAt key) := by
    intro key hkey metric lane declared
    have hroom := machine.meets_of_states h.unevicted
    rw [machine.meets_append, ← hkey] at hroom
    have hcurrent := h.current
    rw [machine.final_append, ← hkey] at hcurrent
    rw [← hkey] at hpending
    have hearly : ((machine.final start earlier).evidence.streamAt key).Early ⟨wall, instant⟩
        (machine.final start earlier).epoch :=
      early_final h.before (early_of_allRecovered hrecovered key _ _)
    have hgrown := grown_final ⟨wall, instant⟩ (hreachable.final earlier) hpending h.behind
      (meets_keepsCurrent hcurrent) hroom.2
    have hstep := (hstreams key hkey).imp (fun hinStep => inStep_final hreachable hinStep.2 hroom.1 hinStep.1)
      (rested_final (hreachable.final earlier) hpending (meets_keepsCurrent hcurrent))
    have hsame : contribution ((machine.final start (earlier ++ later)).contextAt ⟨wall', instant⟩) link metric lane
          declared key ((machine.final start (earlier ++ later)).evidence.streamAt key) =
        contribution ((machine.final start earlier).contextAt ⟨wall, instant⟩) link metric lane declared key
          ((machine.final start (earlier ++ later)).evidence.streamAt key) := by
      refine contribution_steady h.policy ?_ hepoch link metric lane declared key _
      rfl
    rw [hsame, machine.final_append]
    exact contribution_of_grown hearly hgrown hstep link metric lane declared
  exact {
    views := h.views
    document := congrArg PolicyGenerationRecord.document h.policy
    steady := rfl
    epoch := hepoch
    contributions := contributions_of_streamAt hcontribution }

/-- **A window query about an earlier instant finds what a query asked then had found**, in a run that retraces every
stream of the link and has no eviction of the link pending at the instant. -/
theorem as_of_finds_as_then {config : FabricConfig} {derived : UInt64} {publishedAt : Int64} {io : InitializeIo}
    {disk : Disk} (hopened : ((new config derived publishedAt).initializeFabric io disk).1 = .ok ())
    {earlier later : List (FabricCall × CallIo)} {link : LinkIdentity} {request : WindowQuery}
    (hlink : request.link = some link) (hassess : request.assessAsOf = true)
    (hcut : CutAt request.asOfSteadyNanos link ((new config derived publishedAt).initializeFabric io disk).2 earlier later)
    (hpending : link ∉ (machine.final ((new config derived publishedAt).initializeFabric io disk).2 earlier).links.evicted)
    (hstreams : ∀ key : StreamKey, key.link = link →
      Retraced key ((new config derived publishedAt).initializeFabric io disk).2 earlier later)
    {now : ClockReading} {result : WindowResult}
    (hwindow : (machine.final ((new config derived publishedAt).initializeFabric io disk).2 (earlier ++ later)).window now
      request = .ok result) (wall : Int64) :
    ∃ report, result.asOfReport = some report ∧ report.findings.unlisted =
      (classifyLink ((machine.final ((new config derived publishedAt).initializeFabric io disk).2 earlier).contextAt
        ⟨wall, request.asOfSteadyNanos⟩) (asOfQuery request link)).findings.unlisted := by
  have hreachable : Reachable ((new config derived publishedAt).initializeFabric io disk).2 := .opened _ _ _ _ _ hopened
  have hrecovered := allRecovered_initializeFabric config derived publishedAt io disk
  generalize ((new config derived publishedAt).initializeFabric io disk).2 = start at *
  have hinstant : asOfInstant now request.asOfSteadyNanos =
      ⟨now.wallNanos - (now.steadyNanos - request.asOfSteadyNanos), request.asOfSteadyNanos⟩ := if_pos hcut.positive
  refine ⟨_, (asOfReport_of_window hwindow).trans
    (by rw [asOfReport, hassess, if_pos rfl, hlink, Option.map_some, hinstant]), ?_⟩
  have hagrees := hcut.agreesAt hreachable hrecovered hpending hstreams wall
    (now.wallNanos - (now.steadyNanos - request.asOfSteadyNanos))
  have hsame : (asOfQuery request link).link = link := rfl
  rw [← hsame] at hagrees
  exact hagrees.findings

/-! ## A gauge that is read again -/

theorem unevicted_of_toList (h : ∀ entry ∈ fabric.evidence.streams.toList, entry.2.stats.evicted = 0) :
    Unevicted link fabric := by
  intro key _
  unfold EvidenceStore.streamAt
  cases hstream : fabric.evidence.streams[key]? with
  | none => rfl
  | some stream => exact h (key, stream) (ExtTreeMap.mem_toList_iff_getElem?_eq_some.mpr hstream)

def reads (sequence : UInt64) (value : Double) (steadyNanos : Int64) : FabricCall × CallIo :=
  (.ingest (degrees sequence value), { now := instant steadyNanos })

def declares : FabricCall × CallIo := (.declareCapability thermometer, { now := instant 1 })

def asOfFour : WindowQuery where
  link := some ⟨text "a", 1⟩
  fromNanos := 0
  toNanos := 10
  limit := 1
  assessAsOf := true
  asOfSteadyNanos := 4

theorem cutAt_of_checked
    (htimes : (∀ event ∈ earlier, event.2.now.steadyNanos ≤ 4) ∧ ∀ event ∈ later, 4 < event.2.now.steadyNanos)
    (hpolicy : (machine.final gaugeStart (earlier ++ later)).policies.current =
      (machine.final gaugeStart earlier).policies.current)
    (hviews : (machine.final gaugeStart (earlier ++ later)).capabilities.viewForLink ⟨text "a", 1⟩ =
      (machine.final gaugeStart earlier).capabilities.viewForLink ⟨text "a", 1⟩)
    (hcurrent : (machine.final gaugeStart (earlier ++ later)).links.current[text "a"]? =
      (machine.final gaugeStart earlier).links.current[text "a"]?)
    (hunevicted : ∀ past ∈ (earlier ++ later).inits, ∀ entry ∈ (machine.final gaugeStart past).evidence.streams.toList,
      entry.2.stats.evicted = 0) : CutAt 4 ⟨text "a", 1⟩ gaugeStart earlier later where
  positive := by decide
  before := htimes.1
  behind := htimes.2
  policy := hpolicy
  views := hviews
  current := hcurrent
  unevicted := fun past hpast => unevicted_of_toList (hunevicted past (List.mem_inits _ _ |>.mpr hpast))

/-- The second reading to arrive was the first to be taken. The query asked at 4 goes by the number, the window query
that looks back by the arrival. -/
theorem as_of_prefers_late_arrival :
    ((new gaugeConfig 1 0).initializeFabric {} ⟨none, none⟩).1 = .ok () ∧
    CutAt 4 ⟨text "a", 1⟩ gaugeStart [declares, reads 2 .one 2, reads 1 .zero 3] [reads 3 .quarter 5] ∧
      ((machine.final gaugeStart ([declares, reads 2 .one 2, reads 1 .zero 3] ++ [reads 3 .quarter 5])).window (instant 6)
        asOfFour).toOption.bind (fun result => result.asOfReport.map fun report =>
          report.metrics.map MetricAssessment.value) = some [some .zero] ∧
      (classifyLink ((machine.final gaugeStart [declares, reads 2 .one 2, reads 1 .zero 3]).contextAt (instant 4))
        (asOfQuery asOfFour ⟨text "a", 1⟩)).metrics.map MetricAssessment.value = [some .one] := by
  refine ⟨?_, cutAt_of_checked ?_ ?_ ?_ ?_ ?_, ?_, ?_⟩ <;> decide +kernel

theorem inOrder_reads {sequence : UInt64} {steadyNanos : Int64}
    (h : (fabric.evidence.streamAt (degrees sequence value).streamKey).feeds sequence = true) :
    InOrder key document fabric (reads sequence value steadyNanos) := by
  intro observation hevent hkey
  cases FabricCall.ingest.inj hevent
  subst hkey
  exact ⟨fun _ => h, fun counter hcounter => by cases hcounter⟩

theorem meets_reads {value' : Double}
    (hfirst : ((machine.final start [declares]).evidence.streamAt (degrees 1 value).streamKey).feeds 1 = true)
    (hsecond : ((machine.final start [declares, reads 1 value 2]).evidence.streamAt
      (degrees 2 value').streamKey).feeds 2 = true) :
    machine.Meets (InOrder key document) start [declares, reads 1 value 2, reads 2 value' 3] :=
  ⟨fun _ hevent => FabricCall.noConfusion hevent, inOrder_reads hfirst, inOrder_reads hsecond, trivial⟩

theorem as_of_in_order :
    ∃ result report, (machine.final gaugeStart ([declares, reads 1 .one 2, reads 2 .zero 3] ++
        [reads 3 .quarter 5])).window (instant 6) asOfFour = .ok result ∧
      result.asOfReport = some report ∧ report.findings.unlisted =
      (classifyLink ((machine.final gaugeStart [declares, reads 1 .one 2, reads 2 .zero 3]).contextAt (instant 4))
        (asOfQuery asOfFour ⟨text "a", 1⟩)).findings.unlisted := by
  have hopened : ((new gaugeConfig 1 0).initializeFabric {} ⟨none, none⟩).1 = .ok () := by decide +kernel
  have hempty : gaugeStart.evidence.streams.isEmpty = true := by decide +kernel
  have hfresh : ∀ key : StreamKey, gaugeStart.evidence.streamAt key = .fresh := by
    intro key
    rw [EvidenceStore.streamAt, ExtTreeMap.isEmpty_iff.mp hempty, ExtTreeMap.getElem?_empty]
    rfl
  have hcut : CutAt 4 ⟨text "a", 1⟩ gaugeStart [declares, reads 1 .one 2, reads 2 .zero 3] [reads 3 .quarter 5] := by
    refine cutAt_of_checked ?_ ?_ ?_ ?_ ?_ <;> decide +kernel
  have hfirst : ((machine.final gaugeStart [declares]).evidence.streamAt (degrees 1 .one).streamKey).feeds 1 = true := by
    decide +kernel
  have hsecond : ((machine.final gaugeStart [declares, reads 1 .one 2]).evidence.streamAt
      (degrees 2 .zero).streamKey).feeds 2 = true := by
    decide +kernel
  have hpending :
      ⟨text "a", 1⟩ ∉ (machine.final gaugeStart [declares, reads 1 .one 2, reads 2 .zero 3]).links.evicted := by
    decide +kernel
  have hstreams : ∀ key : StreamKey, key.link = ⟨text "a", 1⟩ →
      Retraced key gaugeStart [declares, reads 1 .one 2, reads 2 .zero 3] [reads 3 .quarter 5] := by
    intro key _
    refine .inl ⟨?_, ?_⟩
    · rw [hfresh]
      exact StreamState.inStep_fresh _
    · exact meets_reads hfirst hsecond
  have hanswered : ((machine.final gaugeStart ([declares, reads 1 .one 2, reads 2 .zero 3] ++
      [reads 3 .quarter 5])).window (instant 6) asOfFour).isOk = true := by
    decide +kernel
  cases hresult : (machine.final gaugeStart ([declares, reads 1 .one 2, reads 2 .zero 3] ++
      [reads 3 .quarter 5])).window (instant 6) asOfFour with
  | error status =>
    rw [hresult] at hanswered
    cases hanswered
  | ok result =>
    unfold gaugeStart at hcut hpending hstreams hresult ⊢
    obtain ⟨report, hreport, hsame⟩ := @as_of_finds_as_then gaugeConfig 1 0 {} ⟨none, none⟩ hopened
      [declares, reads 1 .one 2, reads 2 .zero 3] [reads 3 .quarter 5] ⟨text "a", 1⟩ asOfFour rfl rfl hcut hpending
      hstreams (instant 6) result hresult 4
    exact ⟨result, report, rfl, hreport, hsame⟩

end Fabric

end Lqf
