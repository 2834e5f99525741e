import LinkQualityFabric.Foundations.Run
import LinkQualityFabric.Store.EvidenceStore

/-! Replay fencing of the evidence store.

Two tests of `append` share the boundary of the dedup window. An accepted sequence number leaves the
window as soon as it is a whole window below the watermark, and a sequence number is fenced when it is
more than a window below. In between lies one number, exactly a window below the watermark, that is
neither remembered nor fenced. As long as no call offers that number, no sequence number of a stream is
accepted twice. -/
namespace Lqf
open Foundations
open Std (ExtTreeMap)
set_option autoImplicit false

/-! ## Pruning -/

variable {watermark : UInt64} {window : ℕ} {dedup : ExtTreeMap UInt64 UInt64}

theorem outOfWindow_iff {sequence : UInt64} (hwindow : window < 2 ^ 64) :
    outOfWindow watermark window sequence = true ↔ sequence.toNat + window ≤ watermark.toNat := by
  unfold outOfWindow
  rw [Bool.and_eq_true, decide_eq_true_eq, decide_eq_true_eq, UInt64.le_iff_toNat_le, UInt64.le_iff_toNat_le]
  constructor
  · rintro ⟨hle, hdistance⟩
    rw [UInt64.toNat_sub_of_le _ _ (UInt64.le_iff_toNat_le.mpr hle), UInt64.toNat_ofNat',
      Nat.mod_eq_of_lt hwindow] at hdistance
    omega
  · intro h
    have hle : sequence.toNat ≤ watermark.toNat := by omega
    refine ⟨hle, ?_⟩
    rw [UInt64.toNat_sub_of_le _ _ (UInt64.le_iff_toNat_le.mpr hle), UInt64.toNat_ofNat', Nat.mod_eq_of_lt hwindow]
    omega

theorem getElem?_of_all_kept (hkept : ∀ key, key ∈ dedup → outOfWindow watermark window key ≠ true)
    (sequence : UInt64) :
    dedup[sequence]? = if outOfWindow watermark window sequence then none else dedup[sequence]? := by
  split
  · next hout => exact ExtTreeMap.getElem?_eq_none fun hmem => hkept sequence hmem hout
  · rfl

/-- The loop removes every number that is out of the window, because those come first in map order. -/
theorem pruneLoop_getElem? (hwindow : window < 2 ^ 64) (keys : List UInt64) (dedup : ExtTreeMap UInt64 UInt64)
    (hsorted : keys.Pairwise (· < ·))
    (hkeys : ∀ key, key ∈ dedup → outOfWindow watermark window key = true → key ∈ keys) (sequence : UInt64) :
    (pruneLoop watermark window keys dedup)[sequence]? =
      if outOfWindow watermark window sequence then none else dedup[sequence]? := by
  induction keys generalizing dedup with
  | nil => exact getElem?_of_all_kept (fun key hmem hout => by simpa using hkeys key hmem hout) sequence
  | cons oldest rest ih =>
    rw [List.pairwise_cons] at hsorted
    by_cases hout : outOfWindow watermark window oldest = true
    · rw [pruneLoop, if_pos hout]
      have herase : ∀ key, key ∈ dedup.erase oldest → outOfWindow watermark window key = true → key ∈ rest := by
        intro key hmem hkey
        rw [ExtTreeMap.mem_erase] at hmem
        rcases List.mem_cons.mp (hkeys key hmem.2 hkey) with heq | hrest
        · exact absurd (by simp [heq]) hmem.1
        · exact hrest
      rw [ih (dedup.erase oldest) hsorted.2 herase]
      split
      · rfl
      · next hkeep =>
        rw [ExtTreeMap.getElem?_erase, if_neg]
        intro heq
        exact hkeep (Std.compare_eq_iff_eq.mp heq ▸ hout)
    · rw [pruneLoop, if_neg hout]
      refine getElem?_of_all_kept (fun key hmem hkey => ?_) sequence
      rcases List.mem_cons.mp (hkeys key hmem hkey) with rfl | hrest
      · exact hout hkey
      · rw [outOfWindow_iff hwindow] at hkey hout
        have hlt := UInt64.lt_iff_toNat_lt.mp (hsorted.1 key hrest)
        omega

theorem pruneDedup_getElem? (hwindow : window < 2 ^ 64) (dedup : ExtTreeMap UInt64 UInt64) (sequence : UInt64) :
    (pruneDedup watermark window dedup)[sequence]? =
      if outOfWindow watermark window sequence then none else dedup[sequence]? := by
  refine pruneLoop_getElem? hwindow _ _ ?_ (fun key hmem _ => ExtTreeMap.mem_keys.mpr hmem) sequence
  refine (ExtTreeMap.ordered_keys (t := dedup)).imp ?_
  intro a b hab
  exact Std.compare_eq_lt.mp hab

theorem mem_pruneDedup (hwindow : window < 2 ^ 64) {sequence : UInt64} :
    sequence ∈ pruneDedup watermark window dedup ↔ sequence ∈ dedup ∧ watermark.toNat < sequence.toNat + window := by
  rw [← ExtTreeMap.isSome_getElem?_iff_mem, pruneDedup_getElem? hwindow, ← ExtTreeMap.isSome_getElem?_iff_mem]
  split
  · next hout =>
    rw [outOfWindow_iff hwindow] at hout
    simp only [Option.isSome_none, Bool.false_eq_true, false_iff, not_and, not_lt]
    exact fun _ => hout
  · next hkeep =>
    rw [outOfWindow_iff hwindow] at hkeep
    exact (and_iff_left (by omega)).symm

/-! ## One stream -/

namespace StreamState

/-- How the window, the watermark and the sequence numbers accepted so far hang together. -/
structure Fence (window : ℕ) (accepted : List UInt64) (stream : StreamState) : Prop where
  nodup : accepted.Nodup
  unmarked : stream.watermark = none → accepted = [] ∧ ∀ sequence, sequence ∉ stream.dedup
  bounded : ∀ watermark, stream.watermark = some watermark →
    ∀ sequence ∈ accepted, sequence.toNat ≤ watermark.toNat
  remembered : ∀ watermark, stream.watermark = some watermark →
    ∀ sequence ∈ accepted, watermark.toNat < sequence.toNat + window → sequence ∈ stream.dedup
  within : ∀ watermark, stream.watermark = some watermark →
    ∀ sequence, sequence ∈ stream.dedup → sequence.toNat ≤ watermark.toNat

theorem fence_fresh (window : ℕ) : Fence window [] StreamState.fresh where
  nodup := List.nodup_nil
  unmarked := fun _ => ⟨rfl, fun _ => ExtTreeMap.not_mem_empty⟩
  bounded := fun _ h => by cases h
  remembered := fun _ h => by cases h
  within := fun _ h => by cases h

/-- The number the two tests disagree on: exactly a window below the watermark. -/
def AtWindowEdge (window : ℕ) (stream : StreamState) (sequence : UInt64) : Prop :=
  ∃ watermark ∈ stream.watermark, sequence.toNat + window = watermark.toNat

instance (window : ℕ) (stream : StreamState) (sequence : UInt64) :
    Decidable (stream.AtWindowEdge window sequence) := by
  unfold AtWindowEdge
  infer_instance

variable {window : ℕ} {accepted : List UInt64} {stream : StreamState}
variable {sequence digest : UInt64}

theorem Fence.edge_of_accept_again (h : Fence window accepted stream) (hwindow : window < 2 ^ 64) {reordered : Bool}
    (hmem : sequence ∈ accepted) (hverdict : stream.verdict window sequence digest = .accept reordered) :
    stream.AtWindowEdge window sequence := by
  unfold verdict at hverdict
  cases hmark : stream.watermark with
  | none =>
    rw [(h.unmarked hmark).1] at hmem
    cases hmem
  | some watermark =>
    refine ⟨watermark, hmark, ?_⟩
    simp only [hmark] at hverdict
    have hle := h.bounded watermark hmark sequence hmem
    cases hknown : stream.dedup[sequence]? with
    | some known =>
      simp only [hknown] at hverdict
      split at hverdict <;> cases hverdict
    | none =>
      have hforgotten : ¬ watermark.toNat < sequence.toNat + window := by
        intro hinside
        have hdedup := h.remembered watermark hmark sequence hmem hinside
        rw [ExtTreeMap.mem_iff_isSome_getElem?, hknown] at hdedup
        cases hdedup
      simp only [hknown] at hverdict
      split at hverdict
      · split at hverdict
        · cases hverdict
        · next hlt hnear =>
          rw [UInt64.lt_iff_toNat_lt, UInt64.toNat_sub_of_le _ _ (UInt64.le_iff_toNat_le.mpr hle),
            UInt64.toNat_ofNat', Nat.mod_eq_of_lt hwindow] at hnear
          omega
      · next hlt =>
        rw [UInt64.lt_iff_toNat_lt] at hlt
        omega

theorem admitSequence_watermark (window : ℕ) (stream : StreamState) (sequence digest : UInt64) :
    ∃ watermark, (stream.admitSequence window sequence digest).watermark = some watermark ∧
      sequence.toNat ≤ watermark.toNat ∧ (∀ old, stream.watermark = some old → old.toNat ≤ watermark.toNat) ∧
      (stream.admitSequence window sequence digest).dedup =
        pruneDedup watermark window (stream.dedup.insertIfNew sequence digest) := by
  unfold admitSequence
  cases hmark : stream.watermark with
  | none => exact ⟨sequence, rfl, le_refl _, by simp, rfl⟩
  | some watermark =>
    by_cases hlt : watermark < sequence
    · refine ⟨sequence, by simp [hlt], le_refl _, ?_, by simp [hlt]⟩
      intro old hold
      obtain rfl := Option.some.inj hold
      exact (UInt64.lt_iff_toNat_lt.mp hlt).le
    · refine ⟨watermark, by simp [hlt], ?_, ?_, by simp [hlt]⟩
      · rw [UInt64.lt_iff_toNat_lt] at hlt
        omega
      · intro old hold
        obtain rfl := Option.some.inj hold
        exact le_refl _

theorem mem_admitSequence (stream : StreamState) (hwindow : window < 2 ^ 64) (sequence digest : UInt64) :
    ∃ watermark, (stream.admitSequence window sequence digest).watermark = some watermark ∧
      sequence.toNat ≤ watermark.toNat ∧ (∀ old, stream.watermark = some old → old.toNat ≤ watermark.toNat) ∧
      ∀ other, other ∈ (stream.admitSequence window sequence digest).dedup ↔
        (other = sequence ∨ other ∈ stream.dedup) ∧ watermark.toNat < other.toNat + window := by
  obtain ⟨watermark, hmark, hself, hold, hdedup⟩ := admitSequence_watermark window stream sequence digest
  refine ⟨watermark, hmark, hself, hold, ?_⟩
  intro other
  rw [hdedup, mem_pruneDedup hwindow, ExtTreeMap.mem_insertIfNew, Std.compare_eq_iff_eq]
  simp only [eq_comm]

theorem Fence.enter (h : Fence window accepted stream) (hwindow : window < 2 ^ 64) (hnew : sequence ∉ accepted) :
    Fence window (accepted ++ [sequence]) (stream.admitSequence window sequence digest) := by
  obtain ⟨watermark, hmark, hself, hold, hmem⟩ := mem_admitSequence stream hwindow sequence digest
  have hbounded : ∀ other ∈ accepted, other.toNat ≤ watermark.toNat := by
    intro other hother
    cases hprevious : stream.watermark with
    | none =>
      rw [(h.unmarked hprevious).1] at hother
      cases hother
    | some old => exact (h.bounded old hprevious other hother).trans (hold old hprevious)
  refine ⟨?_, ?_, ?_, ?_, ?_⟩
  · exact List.nodup_append.mpr ⟨h.nodup, by simp, by
      intro a ha b hb hab
      rw [List.mem_singleton] at hb
      exact hnew (hb ▸ hab ▸ ha)⟩
  · intro hnone
    rw [hmark] at hnone
    cases hnone
  · intro mark hmark' other hother
    obtain rfl := Option.some.inj (hmark.symm.trans hmark')
    rcases List.mem_append.mp hother with hold' | hlast
    · exact hbounded other hold'
    · rw [List.mem_singleton.mp hlast]
      exact hself
  · intro mark hmark' other hother hinside
    obtain rfl := Option.some.inj (hmark.symm.trans hmark')
    refine (hmem other).mpr ⟨?_, hinside⟩
    rcases List.mem_append.mp hother with hold' | hlast
    · cases hprevious : stream.watermark with
      | none =>
        rw [(h.unmarked hprevious).1] at hold'
        cases hold'
      | some old =>
        have hle := hold old hprevious
        exact Or.inr (h.remembered old hprevious other hold' (by omega))
    · exact Or.inl (List.mem_singleton.mp hlast)
  · intro mark hmark' other hother
    obtain rfl := Option.some.inj (hmark.symm.trans hmark')
    rcases ((hmem other).mp hother).1 with rfl | hdedup'
    · exact hself
    · cases hprevious : stream.watermark with
      | none => exact absurd hdedup' ((h.unmarked hprevious).2 other)
      | some old => exact (h.within old hprevious other hdedup').trans (hold old hprevious)

theorem Fence.congr {other : StreamState} (h : Fence window accepted stream)
    (hmark : other.watermark = stream.watermark) (hdedup : other.dedup = stream.dedup) :
    Fence window accepted other where
  nodup := h.nodup
  unmarked := by rw [hmark, hdedup]; exact h.unmarked
  bounded := by rw [hmark]; exact h.bounded
  remembered := by rw [hmark, hdedup]; exact h.remembered
  within := by rw [hmark, hdedup]; exact h.within

theorem Fence.append {limits : FabricLimits} (h : Fence limits.maxDedupWindow accepted stream)
    (hwindow : limits.maxDedupWindow < 2 ^ 64) (record : EvidenceRecord) (config : CounterContinuityConfig)
    (hedge : ¬ (stream.AtWindowEdge limits.maxDedupWindow record.observation.sequence ∧
      record.observation.sequence ∈ accepted)) : Fence limits.maxDedupWindow
      (accepted ++ if EvidenceStore.isAccepted (stream.append limits record config).1 then
        [record.observation.sequence] else []) (stream.append limits record config).2 := by
  rcases append_cases limits stream record config with ⟨reordered, hverdict, hresult⟩ | ⟨hrefused, stats, hresult⟩
  · have hnew : record.observation.sequence ∉ accepted := fun hmem =>
      hedge ⟨h.edge_of_accept_again hwindow hmem hverdict, hmem⟩
    rw [hresult]
    exact (h.enter hwindow hnew).congr (accept_watermark limits stream record config reordered)
      (accept_dedup limits stream record config reordered)
  · rw [hrefused, hresult, if_neg Bool.false_ne_true, List.append_nil]
    exact h.congr rfl rfl

end StreamState

/-! ## Runs of appends -/

/-- The arguments of one call of `append`. -/
structure AppendCall where
  observation : Observation
  received : ReceiveStamp
  ordinal : UInt64
  origin : EvidenceOrigin
  config : CounterContinuityConfig

def AppendCall.record (call : AppendCall) : EvidenceRecord :=
  ⟨call.observation, call.received, call.ordinal, call.origin⟩

def AppendCall.For (key : StreamKey) (call : AppendCall) : Prop := call.observation.streamKey = key

instance (key : StreamKey) : DecidablePred (AppendCall.For key) :=
  fun call => inferInstanceAs (Decidable (call.observation.streamKey = key))

def StreamState.streamMachine (limits : FabricLimits) : Machine StreamState AppendCall (Outcome IngestOutcome) where
  step stream call := stream.append limits call.record call.config

namespace EvidenceStore

def appendMachine : Machine EvidenceStore AppendCall (Outcome IngestOutcome) where
  step store call := store.append call.observation call.received call.ordinal call.origin call.config

theorem appendMachine_step (store : EvidenceStore) (call : AppendCall) : appendMachine.step store call =
      store.append call.observation call.received call.ordinal call.origin call.config := rfl

def acceptedSequences (key : StreamKey) (trace : List (AppendCall × Outcome IngestOutcome)) : List UInt64 :=
  trace.filterMap fun entry =>
    if entry.1.observation.streamKey = key ∧ isAccepted entry.2 then some entry.1.observation.sequence else none

/-- The call repeats a number that its stream has accepted, exactly a window below the watermark. -/
def RepeatsAtEdge (store : EvidenceStore) (past : List (AppendCall × Outcome IngestOutcome)) (call : AppendCall) :
    Prop :=
  (store.streamAt call.observation.streamKey).AtWindowEdge store.limits.maxDedupWindow call.observation.sequence ∧
    call.observation.sequence ∈ acceptedSequences call.observation.streamKey past

instance (store : EvidenceStore) (past : List (AppendCall × Outcome IngestOutcome)) (call : AppendCall) :
    Decidable (store.RepeatsAtEdge past call) := inferInstanceAs (Decidable (_ ∧ _))

variable {store : EvidenceStore} {key : StreamKey} {call : AppendCall}

theorem streamAt_of_getElem? {other : EvidenceStore} (h : other.streams[key]? = store.streams[key]?) :
    other.streamAt key = store.streamAt key := by
  unfold streamAt
  rw [h]

theorem streamAt_of_some {stream : StreamState} (h : store.streams[key]? = some stream) :
    store.streamAt key = stream := by
  unfold streamAt
  rw [h, Option.getD_some]

theorem step_own (h : AppendCall.For key call) (hadmits : store.Admits key) :
    (appendMachine.step store call).1 = ((StreamState.streamMachine store.limits).step (store.streamAt key) call).1 ∧
      (appendMachine.step store call).2.streams[key]? =
        some ((StreamState.streamMachine store.limits).step (store.streamAt key) call).2 := by
  obtain rfl := h
  obtain ⟨hanswer, hstreams⟩ := store.append_of_admits _ call.received call.ordinal call.origin call.config hadmits
  refine ⟨hanswer, ?_⟩
  rw [appendMachine_step, hstreams, ExtTreeMap.getElem?_insert, if_pos Std.compare_self]
  rfl

theorem step_other (h : ¬ AppendCall.For key call) :
    (appendMachine.step store call).2.streams[key]? = store.streams[key]? := by
  rw [appendMachine_step]
  by_cases hadmits : store.Admits call.observation.streamKey
  · rw [(store.append_of_admits _ call.received call.ordinal call.origin call.config hadmits).2,
      ExtTreeMap.getElem?_insert, if_neg (fun heq => h (Std.compare_eq_iff_eq.mp heq))]
  · rw [store.append_of_not_admits _ call.received call.ordinal call.origin call.config hadmits, admitStream_streams]

theorem step_cases (store : EvidenceStore) (call : AppendCall) (key : StreamKey) : (AppendCall.For key call ∧
      (appendMachine.step store call).1 = ((StreamState.streamMachine store.limits).step (store.streamAt key) call).1 ∧
      (appendMachine.step store call).2.streams[key]? =
        some ((StreamState.streamMachine store.limits).step (store.streamAt key) call).2) ∨
    ((AppendCall.For key call → isAccepted (appendMachine.step store call).1 = false) ∧
      (appendMachine.step store call).2.streams[key]? = store.streams[key]?) := by
  by_cases hown : AppendCall.For key call
  · by_cases hadmits : store.Admits key
    · exact .inl ⟨hown, step_own hown hadmits⟩
    · obtain rfl := hown
      rw [appendMachine_step,
        store.append_of_not_admits _ call.received call.ordinal call.origin call.config hadmits, admitStream_streams]
      exact .inr ⟨fun _ => rfl, rfl⟩
  · exact .inr ⟨fun h => absurd h hown, step_other hown⟩

theorem fence_step (window : ℕ) (hwindow : window < 2 ^ 64) (past : List (AppendCall × Outcome IngestOutcome))
    (store : EvidenceStore) (call : AppendCall) (h : store.limits.maxDedupWindow = window ∧
      ∀ key, StreamState.Fence window (acceptedSequences key past) (store.streamAt key))
    (hedge : ¬ store.RepeatsAtEdge past call) : (appendMachine.step store call).2.limits.maxDedupWindow = window ∧
      ∀ key, StreamState.Fence window (acceptedSequences key (past ++ [(call, (appendMachine.step store call).1)]))
        ((appendMachine.step store call).2.streamAt key) := by
  obtain ⟨rfl, hfence⟩ := h
  refine ⟨by rw [appendMachine_step, append_limits], ?_⟩
  intro key
  have hpast : acceptedSequences key (past ++ [(call, (appendMachine.step store call).1)]) =
      acceptedSequences key past ++
        if call.observation.streamKey = key ∧ isAccepted (appendMachine.step store call).1 then
          [call.observation.sequence] else [] := by
    unfold acceptedSequences
    rw [List.filterMap_append]
    split <;> simp_all
  rw [hpast]
  rcases step_cases store call key with ⟨rfl, hanswer, hstream⟩ | ⟨hrefused, hstream⟩
  · rw [streamAt_of_some hstream, hanswer]
    simp only [true_and]
    exact (hfence call.observation.streamKey).append hwindow call.record call.config hedge
  · have hnone : ¬ (call.observation.streamKey = key ∧ isAccepted (appendMachine.step store call).1 = true) :=
      fun hboth => Bool.false_ne_true ((hrefused hboth.1).symm.trans hboth.2)
    rw [streamAt_of_getElem? hstream, if_neg hnone, List.append_nil]
    exact hfence key

/-- **No evidence is accepted twice** in a run of appends on an empty store, whatever numbers are
offered, as long as no call repeats one exactly a dedup window below the watermark of its stream. -/
theorem accepted_sequences_distinct (limits : FabricLimits) (hlimits : limits.validate = .ok ())
    (calls : List AppendCall)
    (hedge : ∀ n : Fin calls.length, ¬ (appendMachine.final (empty limits) (calls.take n)).RepeatsAtEdge
      (appendMachine.trace (empty limits) (calls.take n)) (calls.get n))
    (key : StreamKey) :
    (acceptedSequences key (appendMachine.trace (empty limits) calls)).Nodup := by
  have hvalid := FabricLimits.valid_of_validate hlimits
  have hwindow : limits.maxDedupWindow < 2 ^ 64 := by
    have hle := hvalid.dedupWindowLe
    omega
  have hrun : ∀ n ≤ calls.length, (appendMachine.final (empty limits) (calls.take n)).limits.maxDedupWindow =
      limits.maxDedupWindow ∧ ∀ key, StreamState.Fence limits.maxDedupWindow
        (acceptedSequences key (appendMachine.trace (empty limits) (calls.take n)))
        ((appendMachine.final (empty limits) (calls.take n)).streamAt key) := by
    intro n
    induction n with
    | zero => exact fun _ => ⟨rfl, fun _ => StreamState.fence_fresh _⟩
    | succ n ih =>
      intro hn
      rw [List.take_succ_eq_append_getElem hn, Machine.trace_append, Machine.final_append]
      exact fence_step limits.maxDedupWindow hwindow _ _ calls[n] (ih (by omega)) (hedge ⟨n, hn⟩)
  have hend := (hrun calls.length le_rfl).2 key
  rw [List.take_length] at hend
  exact hend.nodup

/-! A window of one and a gauge stream that offers 1, 2 and then 1 again. -/

def smallWindow : FabricLimits := { FabricLimits.defaults with maxDedupWindow := 1, maxStreamHistory := 1 }

def gaugeCall (sequence : UInt64) : AppendCall where
  observation :=
    { link := ⟨text "link", 1⟩
      source := ⟨text "source", 1⟩
      sequence := sequence
      metric := ⟨.signalRatio, text "snr"⟩
      lane := ⟨true, 0⟩
      unit := .decibel
      reading := .gauge ⟨Double.zero, 0⟩
      observedAt := ⟨0, false⟩
      intervalNanos := none
      authority := 1
      provenance := ⟨.synthetic, .synthetic, [], [], false, 0⟩ }
  received := ⟨0, 0, 1⟩
  ordinal := sequence
  origin := .live
  config := .defaults

/-- The number 1 is exactly one window below the watermark 2, and is accepted a second time. -/
theorem window_edge_accepted_twice : smallWindow.validate = .ok () ∧
    ¬ (acceptedSequences (gaugeCall 1).observation.streamKey
      (appendMachine.trace (empty smallWindow) [gaugeCall 1, gaugeCall 2, gaugeCall 1])).Nodup := by
  decide +kernel

theorem edge_sequence_distinct :
    (acceptedSequences (gaugeCall 1).observation.streamKey
      (appendMachine.trace (empty smallWindow) [gaugeCall 2, gaugeCall 1, gaugeCall 3])).Nodup :=
  accepted_sequences_distinct smallWindow (by decide +kernel) _ (by decide +kernel) _

end EvidenceStore

end Lqf
