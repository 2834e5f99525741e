import LinkQualityFabric.Store.CanonicalText
import LinkQualityFabric.Store.StreamRuns

/-! What a stream answers to a sequence number it has accepted before.

The window keeps the digest of what was accepted under a number for as long as it keeps the number. A second
observation under the number is a duplicate exactly if the rendered fields agree; the fields that are not rendered do
not count. -/
namespace Lqf
open Foundations
open Std (ExtTreeMap)
set_option autoImplicit false

/-! ## Equality of observations

The defaulted comparisons of the source. Numbers compare as numbers, so the two zeros are equal. -/

def GaugeReading.same (a b : GaugeReading) : Bool := a.value.eq b.value && a.validityNanos == b.validityNanos

def Reading.same : Reading → Reading → Bool
  | .gauge a, .gauge b => a.same b
  | .counter a, .counter b => a == b
  | _, _ => false

def Observation.same (a b : Observation) : Bool :=
  a.link == b.link && a.source == b.source && a.sequence == b.sequence && a.metric == b.metric && a.lane == b.lane &&
    a.unit == b.unit && a.reading.same b.reading && a.observedAt == b.observedAt &&
    a.intervalNanos == b.intervalNanos && a.authority == b.authority && a.provenance == b.provenance

def Reading.validity : Reading → Int64
  | .gauge reading => reading.validityNanos
  | .counter _ => 0

/-- The digest tells the two observations apart exactly if they differ: where the rendered fields agree the others do,
and equal readings are written alike. -/
structure ToldApart (a b : Observation) : Prop where
  interval : SameInDigest a b → a.intervalNanos = b.intervalNanos
  synchronized : SameInDigest a b → a.observedAt.synchronized = b.observedAt.synchronized
  provenance : SameInDigest a b → a.provenance = b.provenance
  validity : SameInDigest a b → a.reading.validity = b.reading.validity
  zeros : a.same b = true → a.reading = b.reading

theorem Double.eq_self {d : Double} (h : d.isFinite = true) : d.eq d = true := by
  have hexponent : d.exponent ≠ 2047 := of_decide_eq_true h
  simp [Double.eq, Double.isNan, hexponent]

theorem sameInDigest_iff_same {a b : Observation} {descriptor : Option MetricDescriptor} {checks : ObservationLimits}
    (hkey : b.streamKey = a.streamKey) (hsequence : b.sequence = a.sequence)
    (hvalid : validateObservation a descriptor checks = .ok ()) :
    (SameInDigest a b ↔ a.same b = true) ↔ ToldApart a b := by
  have hlink : b.link = a.link := congrArg StreamKey.link hkey
  have hsource : b.source = a.source := congrArg StreamKey.source hkey
  have hmetric : b.metric = a.metric := congrArg StreamKey.metric hkey
  have hlane : b.lane = a.lane := congrArg StreamKey.lane hkey
  have hsame : a.same b = true ↔ a.unit = b.unit ∧ a.reading.same b.reading = true ∧ a.observedAt = b.observedAt ∧
      a.intervalNanos = b.intervalNanos ∧ a.authority = b.authority ∧ a.provenance = b.provenance := by
    simp [Observation.same, hlink, hsource, hmetric, hlane, hsequence, and_assoc]
  have hvalidity : a.reading.same b.reading = true → a.reading.validity = b.reading.validity := by
    intro h
    cases hleft : a.reading <;> cases hright : b.reading <;> rw [hleft, hright] at h <;>
      simp_all [Reading.same, Reading.validity, GaugeReading.same]
  have hreading : ∀ x y : Reading, SameRendered x y → x.validity = y.validity → x = y := by
    rintro (⟨⟨_, _⟩⟩ | _) (⟨⟨_, _⟩⟩ | _) <;> simp_all [SameRendered, Reading.validity]
  have hself : a.reading.same a.reading = true := by
    have hfinite := unit_of_validated hvalid
    cases hleft : a.reading with
    | gauge x =>
      rw [hleft] at hfinite
      simp [Reading.same, GaugeReading.same, Double.eq_self hfinite.1]
    | counter x => simp [Reading.same]
  constructor
  · intro h
    have hall := fun hdigest => hsame.mp (h.mp hdigest)
    refine ⟨fun hdigest => (hall hdigest).2.2.2.1, fun hdigest => congrArg _ (hall hdigest).2.2.1,
      fun hdigest => (hall hdigest).2.2.2.2.2, fun hdigest => hvalidity (hall hdigest).2.1, fun heq => ?_⟩
    exact hreading _ _ (h.mpr heq).reading (hvalidity (hsame.mp heq).2.1)
  · intro h
    constructor
    · intro hdigest
      have hreadings := hreading _ _ hdigest.reading (h.validity hdigest)
      refine hsame.mpr ⟨hdigest.unit, hreadings ▸ hself, ?_, h.interval hdigest, hdigest.authority,
        h.provenance hdigest⟩
      have htime := hdigest.observed
      have hsynchronized := h.synchronized hdigest
      cases hleft : a.observedAt
      cases hright : b.observedAt
      simp_all
    · intro heq
      obtain ⟨hunit, -, htime, -, hauthority, hprovenance⟩ := hsame.mp heq
      refine ⟨hunit, ?_, by rw [htime], hauthority, by rw [hprovenance]⟩
      rw [h.zeros heq]
      cases b.reading <;> rfl

/-! ## What the window remembers -/

namespace StreamState
variable {limits : FabricLimits} {stream : StreamState}
variable {sequence : UInt64} {reordered : Bool}

theorem not_mem_of_accept (hbounded : Bounded limits stream) {window : ℕ} {digest : UInt64}
    (h : stream.verdict window sequence digest = .accept reordered) : sequence ∉ stream.dedup := by
  intro hmem
  obtain ⟨watermark, hmark, -⟩ := hbounded.marked sequence hmem
  rw [← ExtTreeMap.isSome_getElem?_iff_mem, Option.isSome_iff_exists] at hmem
  obtain ⟨known, hknown⟩ := hmem
  unfold verdict at h
  rw [hmark] at h
  simp only [hknown] at h
  split at h <;> cases h

theorem accept_digest (hbounded : Bounded limits stream) (hwindow : limits.maxDedupWindow < 2 ^ 64)
    {record : EvidenceRecord} (config : CounterContinuityConfig)
    (hverdict : stream.verdict limits.maxDedupWindow record.observation.sequence
      (evidenceDigest record.observation) = .accept reordered)
    (hmem : sequence ∈ (stream.accept limits record config reordered).2.dedup) :
    (stream.accept limits record config reordered).2.dedup[sequence]? =
      if record.observation.sequence = sequence then some (evidenceDigest record.observation)
      else stream.dedup[sequence]? := by
  obtain ⟨watermark, -, -, -, hdedup⟩ := admitSequence_watermark limits.maxDedupWindow stream
    record.observation.sequence (evidenceDigest record.observation)
  rw [← ExtTreeMap.isSome_getElem?_iff_mem] at hmem
  rw [accept_dedup, hdedup, pruneDedup_getElem? hwindow] at hmem ⊢
  split at hmem
  · cases hmem
  · next hkept =>
    rw [if_neg hkept, ExtTreeMap.getElem?_insertIfNew]
    have hnew := not_mem_of_accept hbounded hverdict
    simp [hnew]

end StreamState

namespace EvidenceStore
open StreamState

def Remembers (key : StreamKey) (sequence : UInt64) (store : EvidenceStore) : Prop :=
  sequence ∈ (store.streamAt key).dedup

variable {store : EvidenceStore} {key : StreamKey} {sequence digest : UInt64}

theorem step_digest (h : Represented store) (hwindow : store.limits.maxDedupWindow < 2 ^ 64) (call : AppendCall)
    (hmem : Remembers key sequence (appendMachine.step store call).2) :
    ((appendMachine.step store call).2.streamAt key).dedup[sequence]? =
      if isAccepted (appendMachine.step store call).1 ∧ AppendCall.For key call ∧
          call.observation.sequence = sequence then some (evidenceDigest call.observation)
      else (store.streamAt key).dedup[sequence]? := by
  rcases step_cases store call key with ⟨hown, hanswer, hstream⟩ | ⟨hrefused, hstream⟩
  · unfold Remembers at hmem
    rw [hanswer]
    rw [streamAt_of_some hstream] at hmem ⊢
    rcases append_cases store.limits (store.streamAt key) call.record call.config with
      ⟨reordered, hverdict, happend⟩ | ⟨hrefused, stats, hcounted⟩
    · simp only [streamMachine, happend] at hmem ⊢
      rw [accept_digest (bounded_streamAt h key) hwindow call.config hverdict hmem]
      simp only [isAccepted, accept, hown, true_and]
      rfl
    · simp only [streamMachine, hrefused, Bool.false_eq_true, false_and, if_false, hcounted]
  · rw [streamAt_of_getElem? hstream, if_neg]
    exact fun hboth => Bool.false_ne_true ((hrefused hboth.2.1).symm.trans hboth.1)

theorem final_digest (h : Represented store) (hwindow : store.limits.maxDedupWindow < 2 ^ 64)
    (hdigest : (store.streamAt key).dedup[sequence]? = some digest) {calls : List AppendCall} (last : AppendCall)
    (hkept : appendMachine.Meets (fun other _ => Remembers key sequence other) store (calls ++ [last])) :
    ((appendMachine.final store calls).streamAt key).dedup[sequence]? = some digest := by
  induction calls generalizing store with
  | nil => exact hdigest
  | cons call rest ih =>
    obtain ⟨hmem, hrest⟩ := hkept
    have hlimits : (appendMachine.step store call).2.limits = store.limits := append_limits ..
    have hnext : Represented (appendMachine.step store call).2 := h.append hwindow ..
    rw [Machine.final_cons]
    refine ih hnext (hlimits.symm ▸ hwindow) ?_ hrest
    have hafter : Remembers key sequence (appendMachine.step store call).2 := by
      cases rest with
      | nil => exact hrest.1
      | cons other rest => exact hrest.1
    rw [step_digest h hwindow call hafter, if_neg, hdigest]
    -- A number in the window is never accepted again.
    rintro ⟨haccepted, hown, hsequence⟩
    rcases step_cases store call key with ⟨-, hanswer, -⟩ | ⟨hrefused, -⟩
    · rw [hanswer] at haccepted
      rcases append_cases store.limits (store.streamAt key) call.record call.config with
        ⟨reordered, hverdict, -⟩ | ⟨hrefused, -⟩
      · exact not_mem_of_accept (bounded_streamAt h key) hverdict (hsequence ▸ hmem)
      · exact Bool.false_ne_true (hrefused.symm.trans haccepted)
    · exact Bool.false_ne_true ((hrefused hown).symm.trans haccepted)

/-- The answers to a number that was accepted before. -/
def AnswersDuplicate : Outcome IngestOutcome → Prop
  | .ok outcome => outcome.duplicate = true
  | .error _ => False

def AnswersMismatch : Outcome IngestOutcome → Prop
  | .ok _ => False
  | .error status => status.code = .idMismatch

theorem answer_of_remembered (h : Represented store) {call : AppendCall}
    (hdigest : (store.streamAt call.observation.streamKey).dedup[call.observation.sequence]? = some digest) :
    (AnswersDuplicate (appendMachine.step store call).1 ↔ digest = evidenceDigest call.observation) ∧
      (AnswersMismatch (appendMachine.step store call).1 ↔ digest ≠ evidenceDigest call.observation) := by
  have hmem : call.observation.sequence ∈ (store.streamAt call.observation.streamKey).dedup := by
    rw [← ExtTreeMap.isSome_getElem?_iff_mem, hdigest]
    rfl
  have hadmits : store.Admits call.observation.streamKey := by
    left
    rw [← ExtTreeMap.isSome_getElem?_iff_mem]
    unfold streamAt at hmem
    cases hfind : store.streams[call.observation.streamKey]? with
    | some stream => rfl
    | none =>
      rw [hfind] at hmem
      exact absurd hmem ExtTreeMap.not_mem_empty
  obtain ⟨watermark, hmark, -⟩ := (bounded_streamAt h call.observation.streamKey).marked _ hmem
  have hverdict : (store.streamAt call.observation.streamKey).verdict store.limits.maxDedupWindow
      call.record.observation.sequence (evidenceDigest call.record.observation) =
        if digest = evidenceDigest call.observation then .duplicate else .idMismatch := by
    unfold verdict AppendCall.record
    rw [hmark]
    simp only [hdigest]
  rw [(step_own rfl hadmits).1]
  simp only [streamMachine, StreamState.append]
  by_cases hsame : digest = evidenceDigest call.observation
  · rw [if_pos hsame] at hverdict
    rw [hverdict]
    exact ⟨iff_of_true rfl hsame, iff_of_false id (not_not_intro hsame)⟩
  · rw [if_neg hsame] at hverdict
    rw [hverdict]
    exact ⟨iff_of_false id hsame, iff_of_true rfl hsame⟩

/-- **Duplicates.** A second observation under a number that the window still has is answered as a duplicate exactly
if it equals the first, and as a mismatch otherwise, where the digest tells the two apart. -/
theorem duplicate_iff_told_apart {limits : FabricLimits} (hwindow : limits.maxDedupWindow < 2 ^ 64)
    {past : List StoreCall} {first second : AppendCall} {later : List AppendCall}
    {descriptor descriptor' : Option MetricDescriptor} {checks checks' : ObservationLimits}
    (haccepted : isAccepted (appendMachine.step (storeMachine.final (empty limits) past) first).1 = true)
    (hkept : appendMachine.Meets
      (fun store _ => Remembers first.observation.streamKey first.observation.sequence store)
      (appendMachine.step (storeMachine.final (empty limits) past) first).2 (later ++ [second]))
    (hkey : second.observation.streamKey = first.observation.streamKey)
    (hsequence : second.observation.sequence = first.observation.sequence)
    (hfirst : validateObservation first.observation descriptor checks = .ok ())
    (hsecond : validateObservation second.observation descriptor' checks' = .ok ())
    (hcollision : fnv1a64 (canonicalText first.observation) = fnv1a64 (canonicalText second.observation) →
      canonicalText first.observation = canonicalText second.observation)
    (hdoubles : ∀ x y, first.observation.reading = .gauge x → second.observation.reading = .gauge y →
      formatDouble x.value = formatDouble y.value → x.value = y.value) :
    ((AnswersDuplicate (appendMachine.step (appendMachine.final
            (appendMachine.step (storeMachine.final (empty limits) past) first).2 later) second).1 ↔
          first.observation.same second.observation = true) ∧
        (AnswersMismatch (appendMachine.step (appendMachine.final
            (appendMachine.step (storeMachine.final (empty limits) past) first).2 later) second).1 ↔
          ¬ first.observation.same second.observation = true)) ↔
      ToldApart first.observation second.observation := by
  obtain ⟨hstore, hlimits⟩ := represented_final hwindow past
  revert haccepted hkept
  generalize storeMachine.final (empty limits) past = store at hstore hlimits
  subst hlimits
  intro haccepted hkept
  have hafter : Represented (appendMachine.step store first).2 := hstore.append hwindow ..
  have hlimits : (appendMachine.step store first).2.limits = store.limits := append_limits ..
  have hmem : Remembers first.observation.streamKey first.observation.sequence (appendMachine.step store first).2 := by
    cases later with
    | nil => exact hkept.1
    | cons call rest => exact hkept.1
  have hput := step_digest hstore hwindow first hmem
  rw [if_pos ⟨haccepted, rfl, rfl⟩] at hput
  have hdigest := final_digest hafter (hlimits.symm ▸ hwindow) hput second hkept
  have hfinal := (hafter.appends (hlimits.symm ▸ hwindow) later).1
  rw [← hkey, ← hsequence] at hdigest
  obtain ⟨hduplicate, hmismatch⟩ := answer_of_remembered hfinal hdigest
  have hsame : evidenceDigest first.observation = evidenceDigest second.observation ↔
      SameInDigest first.observation second.observation := by
    rw [evidenceDigest_eq, evidenceDigest_eq, ← canonicalText_eq_iff hkey hfirst hsecond hdoubles]
    exact ⟨hcollision, fun htext => htext ▸ rfl⟩
  rw [hduplicate, hmismatch, ne_eq, hsame, not_iff_not, and_self]
  exact sameInDigest_iff_same hkey hsequence hfirst

def intervalCall (sequence : UInt64) : AppendCall :=
  { gaugeCall sequence with observation := { (gaugeCall sequence).observation with intervalNanos := some 5 } }

theorem repeated_reading_is_duplicate :
    (AnswersDuplicate (appendMachine.step (appendMachine.final (appendMachine.step
            (storeMachine.final (empty .defaults) []) (gaugeCall 1)).2 [gaugeCall 2]) (gaugeCall 1)).1 ↔
          (gaugeCall 1).observation.same (gaugeCall 1).observation = true) ∧
        (AnswersMismatch (appendMachine.step (appendMachine.final (appendMachine.step
            (storeMachine.final (empty .defaults) []) (gaugeCall 1)).2 [gaugeCall 2]) (gaugeCall 1)).1 ↔
          ¬ (gaugeCall 1).observation.same (gaugeCall 1).observation = true) := by
  have hvalid : validateObservation (gaugeCall 1).observation none ⟨96, 256⟩ = .ok () := by decide +kernel
  have hkept : appendMachine.Meets
      (fun store _ => Remembers (gaugeCall 1).observation.streamKey (gaugeCall 1).observation.sequence store)
      (appendMachine.step (storeMachine.final (empty .defaults) []) (gaugeCall 1)).2
      ([gaugeCall 2] ++ [gaugeCall 1]) := by
    refine ⟨?_, ?_, trivial⟩ <;>
    · unfold Remembers
      decide +kernel
  refine (duplicate_iff_told_apart (by decide) (by decide +kernel) hkept rfl rfl hvalid hvalid (fun _ => rfl)
    fun x y hx hy _ => ?_).mpr ⟨fun _ => rfl, fun _ => rfl, fun _ => rfl, fun _ => rfl, fun _ => rfl⟩
  rw [Reading.gauge.inj (hx.symm.trans hy)]

/-- An observation with another interval is answered as a duplicate. -/
theorem other_interval_is_duplicate :
    validateObservation (gaugeCall 1).observation none ⟨96, 256⟩ = .ok () ∧
      validateObservation (intervalCall 1).observation none ⟨96, 256⟩ = .ok () ∧
      (gaugeCall 1).observation.same (intervalCall 1).observation = false ∧
      (appendMachine.step (appendMachine.step (empty .defaults) (gaugeCall 1)).2 (intervalCall 1)).1.map
        IngestOutcome.duplicate = .ok true := by
  decide +kernel

end EvidenceStore

end Lqf
