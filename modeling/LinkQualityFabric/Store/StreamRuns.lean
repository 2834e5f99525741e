import LinkQualityFabric.Store.StoreInvariant

/-! A stream in a run of the store.

The appends of other streams share the maps, the counts and the history with it, and nothing else: the stream of
a key goes through the appends for that key as it would alone. -/
namespace Lqf.EvidenceStore
open Foundations
open Std (ExtTreeMap)
set_option autoImplicit false

open StreamState
variable {store : EvidenceStore} {key : StreamKey}

def callsFor (key : StreamKey) (calls : List AppendCall) : List AppendCall :=
  calls.filter fun call => AppendCall.For key call

def answersFor (key : StreamKey) (trace : List (AppendCall × Outcome IngestOutcome)) :
    List (AppendCall × Outcome IngestOutcome) :=
  trace.filter fun entry => AppendCall.For key entry.1

def HasRoom (key : StreamKey) (store : EvidenceStore) (call : AppendCall) : Prop :=
  AppendCall.For key call → store.Admits key

variable {call : AppendCall} {calls : List AppendCall}

theorem run_stream (hroom : appendMachine.Meets (HasRoom key) store calls) :
    answersFor key (appendMachine.trace store calls) =
        (streamMachine store.limits).trace (store.streamAt key) (callsFor key calls) ∧
      (appendMachine.final store calls).streams[key]? = if callsFor key calls = [] then store.streams[key]?
        else some ((streamMachine store.limits).final (store.streamAt key) (callsFor key calls)) := by
  induction calls generalizing store with
  | nil => exact ⟨rfl, rfl⟩
  | cons call rest ih =>
    obtain ⟨hcall, hrest⟩ := hroom
    obtain ⟨htrace, hfinal⟩ := ih hrest
    have hlimits : (appendMachine.step store call).2.limits = store.limits := append_limits ..
    rw [hlimits] at htrace hfinal
    by_cases hown : AppendCall.For key call
    · obtain ⟨hanswer, hstream⟩ := step_own hown (hcall hown)
      have hcalls : callsFor key (call :: rest) = call :: callsFor key rest := by simp [callsFor, hown]
      rw [streamAt_of_some hstream] at htrace hfinal
      refine ⟨?_, ?_⟩
      · rw [hcalls, Machine.trace_cons, Machine.trace_cons, ← htrace, ← hanswer]
        simp [answersFor, hown]
      · rw [hcalls, if_neg (List.cons_ne_nil _ _), Machine.final_cons, Machine.final_cons, hfinal]
        split
        · next hnone => rw [hstream, hnone, Machine.final_nil]
        · rfl
    · have hcalls : callsFor key (call :: rest) = callsFor key rest := by simp [callsFor, hown]
      rw [streamAt_of_getElem? (step_other hown)] at htrace hfinal
      refine ⟨?_, ?_⟩
      · rw [hcalls, ← htrace, Machine.trace_cons]
        simp [answersFor, hown]
      · rw [hcalls, Machine.final_cons, hfinal, step_other hown]

theorem streams_invariant {limits : FabricLimits} (condition : StreamState → AppendCall → Prop)
    {Q : StreamKey → StreamState → Prop} (hstep : ∀ (stream : StreamState) (call : AppendCall),
      stream = .fresh ∨ Q call.observation.streamKey stream → condition stream call →
      Q call.observation.streamKey (stream.append limits call.record call.config).2) (hmeets : appendMachine.Meets
      (fun store call => condition (store.streamAt call.observation.streamKey) call) (empty limits) calls) :
    ∀ (key : StreamKey) (stream : StreamState),
      (appendMachine.final (empty limits) calls).streams[key]? = some stream → Q key stream := by
  refine (appendMachine.invariant (P := fun store => store.limits = limits ∧ ∀ (key : StreamKey) (stream : StreamState),
    store.streams[key]? = some stream → Q key stream) ?_ ⟨rfl, ?_⟩ hmeets).2
  · rintro store call ⟨hlimits, hstreams⟩ hcondition
    subst hlimits
    refine ⟨append_limits .., fun key stream hstream => ?_⟩
    rcases step_cases store call key with ⟨rfl, -, hafter⟩ | ⟨-, hsame⟩
    · obtain rfl := Option.some.inj (hafter.symm.trans hstream)
      exact hstep _ call (Each.streamAt hstreams _) hcondition
    · exact hstreams key stream (hsame.symm.trans hstream)
  · intro key stream hstream
    simp [empty] at hstream

/-! ## Capacity -/

/-- The answer of a store that has no room for another stream of the link. -/
def RefusedForCapacity : Outcome IngestOutcome → Prop
  | .ok _ => False
  | .error status => status.code = .limitExceeded

instance : DecidablePred RefusedForCapacity
  | .ok _ => .isFalse id
  | .error status => inferInstanceAs (Decidable (status.code = .limitExceeded))

theorem not_refusedForCapacity (limits : FabricLimits) (stream : StreamState) (record : EvidenceRecord)
    (config : CounterContinuityConfig) : ¬ RefusedForCapacity (stream.append limits record config).1 := by
  unfold StreamState.append
  dsimp only
  split
  · exact id
  · exact fun hcode => nomatch hcode
  · exact fun hcode => nomatch hcode
  · exact id

theorem refusedForCapacity_iff (store : EvidenceStore) (call : AppendCall) :
    RefusedForCapacity (appendMachine.step store call).1 ↔ ¬ store.Admits call.observation.streamKey := by
  rw [appendMachine_step]
  by_cases hadmits : store.Admits call.observation.streamKey
  · rw [(store.append_of_admits _ call.received call.ordinal call.origin call.config hadmits).1]
    exact iff_of_false (not_refusedForCapacity _ _ _ _) (not_not_intro hadmits)
  · rw [store.append_of_not_admits _ call.received call.ordinal call.origin call.config hadmits]
    exact iff_of_true rfl hadmits

theorem hasRoom_of_trace
    (h : ∀ entry ∈ answersFor key (appendMachine.trace store calls), ¬ RefusedForCapacity entry.2) :
    appendMachine.Meets (HasRoom key) store calls := by
  induction calls generalizing store with
  | nil => trivial
  | cons call rest ih =>
    rw [Machine.trace_cons] at h
    refine ⟨?_, ih fun entry hentry => h entry ?_⟩
    · intro hown
      have hcall := h (call, (appendMachine.step store call).1) (by simp [answersFor, hown])
      rw [refusedForCapacity_iff, not_not] at hcall
      exact hown ▸ hcall
    · unfold answersFor at hentry ⊢
      rw [List.filter_cons]
      split
      · exact List.mem_cons_of_mem _ hentry
      · exact hentry

theorem Counted.positive (h : Counted store) (hadmits : store.Admits key) : 0 < store.limits.maxStreamsPerLink := by
  rcases hadmits with hmem | hroom
  · have hin : key ∈ store.linkStreams key.link := by simp [linkStreams, streamKeys, hmem]
    have hlength := List.length_pos_of_mem hin
    have hbound := h.room key.link
    rw [h.counted] at hbound
    omega
  · omega

theorem Counted.positive_of_calls (h : Counted store) (hroom : appendMachine.Meets (HasRoom key) store calls)
    (hcalls : callsFor key calls ≠ []) : 0 < store.limits.maxStreamsPerLink := by
  induction calls generalizing store with
  | nil => exact absurd rfl hcalls
  | cons call rest ih =>
    by_cases hown : AppendCall.For key call
    · exact h.positive (hroom.1 hown)
    · have hrest : callsFor key rest ≠ [] := by
        simpa [callsFor, hown] using hcalls
      have hlimits : (appendMachine.step store call).2.limits = store.limits := append_limits ..
      exact hlimits ▸ ih (h.append ..) hroom.2 hrest

theorem hasRoom_alone (hadmits : store.Admits key) (hcalls : ∀ call ∈ calls, AppendCall.For key call) :
    appendMachine.Meets (HasRoom key) store calls := by
  induction calls generalizing store with
  | nil => trivial
  | cons call rest ih =>
    refine ⟨fun _ => hadmits, ih (.inl ?_) fun other hother => hcalls other (List.mem_cons_of_mem _ hother)⟩
    rw [← ExtTreeMap.isSome_getElem?_iff_mem, (step_own (hcalls call List.mem_cons_self) hadmits).2]
    rfl

/-! ## Isolation -/

/-- **Streams never influence each other.** The appends for a stream get the answers, and leave the stream in the
state, that they would alone on an empty store. -/
theorem streams_isolated (limits : FabricLimits) (calls : List AppendCall) (key : StreamKey)
    (hroom : ∀ entry ∈ answersFor key (appendMachine.trace (empty limits) calls), ¬ RefusedForCapacity entry.2) :
    answersFor key (appendMachine.trace (empty limits) calls) =
        appendMachine.trace (empty limits) (callsFor key calls) ∧
      (appendMachine.final (empty limits) calls).find key =
        (appendMachine.final (empty limits) (callsFor key calls)).find key := by
  have hmeets := hasRoom_of_trace hroom
  obtain ⟨htrace, hfinal⟩ := run_stream hmeets
  by_cases hnone : callsFor key calls = []
  · rw [hnone] at htrace hfinal ⊢
    exact ⟨htrace, hfinal⟩
  have hpositive : 0 < limits.maxStreamsPerLink := (counted_empty limits).positive_of_calls hmeets hnone
  have hadmits : (empty limits).Admits key := .inr (by
    rw [show (empty limits).streamsOf key.link = 0 from ExtTreeMap.getD_empty]
    exact hpositive)
  have hown : ∀ call ∈ callsFor key calls, AppendCall.For key call := fun call hcall =>
    of_decide_eq_true (List.mem_filter.mp hcall).2
  have halone := run_stream (hasRoom_alone hadmits hown)
  have hself : callsFor key (callsFor key calls) = callsFor key calls :=
    List.filter_eq_self.mpr fun call hcall => decide_eq_true (hown call hcall)
  have htraces : answersFor key (appendMachine.trace (empty limits) (callsFor key calls)) =
      appendMachine.trace (empty limits) (callsFor key calls) := by
    refine List.filter_eq_self.mpr fun entry hentry => decide_eq_true (hown entry.1 ?_)
    have hmem := List.mem_map_of_mem (f := Prod.fst) hentry
    rwa [Machine.map_fst_trace] at hmem
  rw [hself] at halone
  refine ⟨?_, ?_⟩
  · rw [htrace, ← halone.1, htraces]
  · exact hfinal.trans halone.2.symm

def otherCall : AppendCall :=
  { gaugeCall 1 with observation := { (gaugeCall 1).observation with source := ⟨text "other", 1⟩ } }

theorem two_streams_isolated :
    (∀ entry ∈ answersFor (gaugeCall 1).observation.streamKey
        (appendMachine.trace (empty smallWindow) [gaugeCall 1, otherCall, gaugeCall 2]), ¬ RefusedForCapacity entry.2) ∧
      answersFor (gaugeCall 1).observation.streamKey
          (appendMachine.trace (empty smallWindow) [gaugeCall 1, otherCall, gaugeCall 2]) =
        appendMachine.trace (empty smallWindow)
          (callsFor (gaugeCall 1).observation.streamKey [gaugeCall 1, otherCall, gaugeCall 2]) := by
  have hroom : ∀ entry ∈ answersFor (gaugeCall 1).observation.streamKey
      (appendMachine.trace (empty smallWindow) [gaugeCall 1, otherCall, gaugeCall 2]),
      ¬ RefusedForCapacity entry.2 := by decide +kernel
  exact ⟨hroom, (streams_isolated smallWindow [gaugeCall 1, otherCall, gaugeCall 2] _ hroom).1⟩

end Lqf.EvidenceStore
