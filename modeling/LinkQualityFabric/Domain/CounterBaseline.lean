import LinkQualityFabric.Domain.Counter
import LinkQualityFabric.Foundations.Run

/-! What a continuity tracker answers from: whose readings it follows, and the reading it compares with.

Trackers of one source that compare with the same reading respond alike for ever, whatever they counted before. A
reading within its range leaves nothing else behind, so two trackers that took the same two readings last cannot be
told apart. -/
namespace Lqf
open Foundations
set_option autoImplicit false

def CounterObservation.From (incarnation generation : UInt64) (reading : CounterObservation) : Prop :=
  reading.incarnation = incarnation ∧ reading.linkGeneration = generation

def CounterStep.rateAdmissible (step : CounterStep) : Bool := step.delta.any fun delta => !delta.spansGap

namespace CounterContinuity

structure SameBaseline (a b : CounterContinuity) : Prop where
  baseline : b.hasBaseline = a.hasBaseline
  value : a.hasBaseline = true → b.lastValue = a.lastValue
  width : a.hasBaseline = true → b.lastWidth = a.lastWidth
  observed : a.hasBaseline = true → b.lastObservedNanos = a.lastObservedNanos
  sequence : a.hasBaseline = true → b.lastSequence = a.lastSequence

theorem sameBaseline_of_none {a b : CounterContinuity} (ha : a.hasBaseline = false) (hb : b.hasBaseline = false) :
    SameBaseline a b := by
  refine ⟨hb.trans ha.symm, ?_, ?_, ?_, ?_⟩ <;>
  · intro hbaseline
    rw [ha] at hbaseline
    cases hbaseline

/-! ## How a reading is received -/

inductive Reception where
  | reincarnated | regenerated | outOfRange | widthChanged | regressed | resetDeclared | first | compared
  deriving DecidableEq, Repr

/-- The checks of `observe`, in their order. -/
def reception (tracker : CounterContinuity) (reading : CounterObservation) : Reception :=
  if tracker.identityBound ∧ reading.incarnation ≠ tracker.incarnation then .reincarnated
  else if tracker.identityBound ∧ reading.linkGeneration ≠ tracker.linkGeneration then .regenerated
  else if counterValueInRange reading.value reading.width = false then .outOfRange
  else if tracker.hasBaseline ∧ reading.width ≠ tracker.lastWidth then .widthChanged
  else if tracker.hasBaseline ∧ reading.sequence < tracker.lastSequence then .regressed
  else if reading.resetDeclared then .resetDeclared
  else if tracker.hasBaseline = false then .first
  else .compared

def Reception.rebases : Reception → Bool
  | .outOfRange | .regressed => false
  | .reincarnated | .regenerated | .widthChanged | .resetDeclared | .first | .compared => true

variable {a b tracker : CounterContinuity} {reading : CounterObservation} {config : CounterContinuityConfig}

/-- The tracker follows the source of these readings, if any. -/
def Follows (incarnation generation : UInt64) (tracker : CounterContinuity) : Prop :=
  tracker.identityBound = true → tracker.incarnation = incarnation ∧ tracker.linkGeneration = generation

theorem observe_eq (tracker : CounterContinuity) (reading : CounterObservation) (config : CounterContinuityConfig) :
    tracker.observe reading config =
      let counted := { tracker with samples := tracker.samples + 1 }
      match tracker.reception reading with
      | .reincarnated =>
        withoutDelta ({ counted with reincarnations := counted.reincarnations + 1 }.rebaseline reading)
          .sourceReincarnated true
      | .regenerated =>
        withoutDelta ({ counted with reincarnations := counted.reincarnations + 1 }.rebaseline reading)
          .linkGenerationChanged true
      | .outOfRange =>
        withoutDelta { counted with outOfRange := counted.outOfRange + 1, hasBaseline := false } .outOfRange false
      | .widthChanged =>
        withoutDelta ({ counted with widthChanges := counted.widthChanges + 1 }.rebaseline reading) .widthChanged true
      | .regressed =>
        withoutDelta { counted with sequenceRegressions := counted.sequenceRegressions + 1 } .sequenceRegressed true
      | .resetDeclared => withoutDelta ({ counted with resets := counted.resets + 1 }.rebaseline reading) .reset true
      | .first => withoutDelta (counted.rebaseline reading) .baseline true
      | .compared => counted.compareReadings reading config := by
  unfold observe reception
  dsimp only
  split_ifs <;> rfl

/-! ## One reading -/

structure Rests (reading : CounterObservation) (tracker : CounterContinuity) : Prop where
  baseline : tracker.hasBaseline = true
  value : tracker.lastValue = reading.value
  width : tracker.lastWidth = reading.width
  observed : tracker.lastObservedNanos = reading.observedNanos
  sequence : tracker.lastSequence = reading.sequence
  bound : tracker.identityBound = true
  incarnation : tracker.incarnation = reading.incarnation
  generation : tracker.linkGeneration = reading.linkGeneration

theorem rests_rebaseline (tracker : CounterContinuity) (reading : CounterObservation) :
    Rests reading (tracker.rebaseline reading) := ⟨rfl, rfl, rfl, rfl, rfl, rfl, rfl, rfl⟩

theorem rests_withoutDelta (tracker : CounterContinuity) (reading : CounterObservation) (event : CounterEvent)
    (intact : Bool) : Rests reading ((tracker.rebaseline reading).withoutDelta event intact).2 :=
  ⟨rfl, rfl, rfl, rfl, rfl, rfl, rfl, rfl⟩

theorem Rests.sameBaseline (ha : Rests reading a) (hb : Rests reading b) : SameBaseline a b where
  baseline := hb.baseline.trans ha.baseline.symm
  value := fun _ => hb.value.trans ha.value.symm
  width := fun _ => hb.width.trans ha.width.symm
  observed := fun _ => hb.observed.trans ha.observed.symm
  sequence := fun _ => hb.sequence.trans ha.sequence.symm

def comparison (lastValue : UInt64) (elapsed : Int64) (reading : CounterObservation)
    (config : CounterContinuityConfig) : CounterStep :=
  let spansGap : Bool := elapsed > config.maxGapNanos || elapsed ≤ 0
  if lastValue ≤ reading.value then
    ⟨.advance, reasonFor .advance, some ⟨reading.value - lastValue, elapsed, spansGap, false⟩, true⟩
  else
    match classifyDecrease lastValue reading.value reading.width config with
    | none => ⟨.decreaseUnproven, reasonFor .decreaseUnproven, none, false⟩
    | some delta => ⟨.wrap, reasonFor .wrap, some ⟨delta, elapsed, spansGap, true⟩, true⟩

theorem withDelta_spec (tracker : CounterContinuity) (reading : CounterObservation) (delta : CounterDelta)
    (event : CounterEvent) : (tracker.withDelta reading delta event).1 = ⟨event, reasonFor event, some delta, true⟩ ∧
      (tracker.withDelta reading delta event).2.rateAdmissible = !delta.spansGap ∧
      Rests reading (tracker.withDelta reading delta event).2 := by
  unfold withDelta
  exact ⟨rfl, rfl, rests_rebaseline ..⟩

theorem compareReadings_spec (tracker : CounterContinuity) (reading : CounterObservation)
    (config : CounterContinuityConfig) : (tracker.compareReadings reading config).1 =
        comparison tracker.lastValue (tracker.elapsedSince reading) reading config ∧
      (tracker.compareReadings reading config).2.rateAdmissible =
        (tracker.compareReadings reading config).1.rateAdmissible ∧
      Rests reading (tracker.compareReadings reading config).2 := by
  have hcounted : ∃ counted : CounterContinuity, (if reading.sequence > tracker.lastSequence + 1 then
        { tracker with missingSamples := tracker.missingSamples + (reading.sequence - tracker.lastSequence - 1) }
      else tracker) = counted ∧ counted.lastValue = tracker.lastValue ∧
        counted.elapsedSince reading = tracker.elapsedSince reading := by
    refine ⟨_, rfl, ?_, ?_⟩
    · split <;> rfl
    · split <;> rfl
  obtain ⟨counted, hequal, hvalue, helapsed⟩ := hcounted
  rw [← hvalue, ← helapsed]
  unfold compareReadings comparison
  simp only [hequal]
  split
  · refine ⟨(withDelta_spec ..).1, ?_, (withDelta_spec ..).2.2⟩
    rw [(withDelta_spec ..).2.1, (withDelta_spec ..).1]
    rfl
  · cases classifyDecrease counted.lastValue reading.value reading.width config with
    | none => exact ⟨rfl, rfl, rests_withoutDelta ..⟩
    | some delta =>
      refine ⟨(withDelta_spec ..).1, ?_, (withDelta_spec ..).2.2⟩
      dsimp only
      rw [(withDelta_spec ..).2.1, (withDelta_spec ..).1]
      rfl

theorem observe_rests (h : (tracker.reception reading).rebases = true) (config : CounterContinuityConfig) :
    Rests reading (tracker.observe reading config).2 := by
  rw [observe_eq]
  dsimp only
  cases hreception : tracker.reception reading with
  | outOfRange | regressed =>
    rw [hreception] at h
    cases h
  | compared => exact (compareReadings_spec ..).2.2
  | reincarnated | regenerated | widthChanged | resetDeclared | first => exact rests_withoutDelta ..

structure KeepsBaseline (before after : CounterContinuity) : Prop where
  value : after.lastValue = before.lastValue
  width : after.lastWidth = before.lastWidth
  observed : after.lastObservedNanos = before.lastObservedNanos
  sequence : after.lastSequence = before.lastSequence

structure KeepsIdentity (before after : CounterContinuity) : Prop where
  bound : after.identityBound = before.identityBound
  incarnation : after.incarnation = before.incarnation
  generation : after.linkGeneration = before.linkGeneration

theorem observe_keeps (h : (tracker.reception reading).rebases = false) (config : CounterContinuityConfig) :
    KeepsBaseline tracker (tracker.observe reading config).2 ∧ KeepsIdentity tracker (tracker.observe reading config).2 ∧
      ((tracker.observe reading config).2.hasBaseline = true →
        tracker.hasBaseline = true ∧ counterValueInRange reading.value reading.width = true) := by
  rw [observe_eq]
  dsimp only
  cases hreception : tracker.reception reading with
  | outOfRange => exact ⟨⟨rfl, rfl, rfl, rfl⟩, ⟨rfl, rfl, rfl⟩, fun hnone => nomatch hnone⟩
  | regressed =>
    refine ⟨⟨rfl, rfl, rfl, rfl⟩, ⟨rfl, rfl, rfl⟩, fun hbaseline => ⟨hbaseline, ?_⟩⟩
    unfold reception at hreception
    split_ifs at hreception with _ _ hrange
    rwa [Bool.not_eq_false] at hrange
  | reincarnated | regenerated | widthChanged | resetDeclared | first | compared =>
    rw [hreception] at h
    cases h

theorem Follows.not_other (h : tracker.Follows reading.incarnation reading.linkGeneration) :
    ¬ (tracker.identityBound = true ∧ reading.incarnation ≠ tracker.incarnation) ∧
      ¬ (tracker.identityBound = true ∧ reading.linkGeneration ≠ tracker.linkGeneration) :=
  ⟨fun hother => hother.2 (h hother.1).1.symm, fun hother => hother.2 (h hother.1).2.symm⟩

theorem rebases_of_not_follows (h : ¬ tracker.Follows reading.incarnation reading.linkGeneration) :
    (tracker.reception reading).rebases = true := by
  obtain ⟨hbound, hother⟩ := Classical.not_imp.mp h
  unfold reception
  by_cases hsource : reading.incarnation = tracker.incarnation
  · have hlink : reading.linkGeneration ≠ tracker.linkGeneration := fun hsame => hother ⟨hsource.symm, hsame.symm⟩
    rw [if_neg fun hne => hne.2 hsource, if_pos ⟨hbound, hlink⟩]
    rfl
  · rw [if_pos ⟨hbound, hsource⟩]
    rfl

theorem reception_rebases_iff (h : tracker.Follows reading.incarnation reading.linkGeneration) :
    (tracker.reception reading).rebases = true ↔ counterValueInRange reading.value reading.width = true ∧
      (tracker.hasBaseline = true → reading.width ≠ tracker.lastWidth ∨ tracker.lastSequence ≤ reading.sequence) := by
  unfold reception
  rw [if_neg h.not_other.1, if_neg h.not_other.2]
  split_ifs with hrange hwidth hregressed
  · simp [Reception.rebases, hrange]
  · simp only [Bool.not_eq_false] at hrange
    simp [Reception.rebases, hrange, hwidth]
  · simp only [Bool.not_eq_false, not_and, not_not] at hrange hwidth
    simp [Reception.rebases, hregressed.1, hwidth hregressed.1, hregressed.2]
  all_goals
    simp only [Bool.not_eq_false, not_and, UInt64.not_lt] at hrange hregressed
    simp only [Reception.rebases, hrange, true_and, true_iff]
    exact fun hbaseline => .inr (hregressed hbaseline)

theorem Follows.observe {incarnation generation : UInt64} (h : tracker.Follows incarnation generation)
    (hreading : reading.From incarnation generation) (config : CounterContinuityConfig) :
    (tracker.observe reading config).2.Follows incarnation generation := by
  obtain ⟨rfl, rfl⟩ := hreading
  by_cases hrebases : (tracker.reception reading).rebases = true
  · have hrests := observe_rests hrebases config
    exact fun _ => ⟨hrests.incarnation, hrests.generation⟩
  · obtain ⟨-, hkeeps, -⟩ := observe_keeps (Bool.not_eq_true _ ▸ hrebases) config
    intro hbound
    rw [hkeeps.incarnation, hkeeps.generation]
    exact h (hkeeps.bound ▸ hbound)

theorem observe_rateAdmissible (tracker : CounterContinuity) (reading : CounterObservation)
    (config : CounterContinuityConfig) :
    (tracker.observe reading config).2.rateAdmissible = (tracker.observe reading config).1.rateAdmissible := by
  rw [observe_eq]
  dsimp only
  cases tracker.reception reading with
  | compared => exact (compareReadings_spec ..).2.1
  | outOfRange | regressed | reincarnated | regenerated | widthChanged | resetDeclared | first => rfl

structure Comparable (tracker : CounterContinuity) (reading : CounterObservation) : Prop where
  follows : tracker.Follows reading.incarnation reading.linkGeneration
  inRange : counterValueInRange reading.value reading.width = true
  baseline : tracker.hasBaseline = true
  width : reading.width = tracker.lastWidth
  inOrder : tracker.lastSequence ≤ reading.sequence
  noReset : reading.resetDeclared = false

theorem reception_compared : tracker.reception reading = .compared ↔ Comparable tracker reading := by
  constructor
  · intro h
    unfold reception at h
    split_ifs at h with hsource hlink hrange hwidth hregressed hreset hfirst
    simp only [not_and, not_not, Bool.not_eq_false, Bool.not_eq_true] at *
    refine ⟨fun hbound => ⟨(hsource hbound).symm, (hlink hbound).symm⟩, hrange, hfirst, hwidth hfirst, ?_, hreset⟩
    exact UInt64.not_lt.mp (hregressed hfirst)
  · intro h
    unfold reception
    rw [if_neg h.follows.not_other.1, if_neg h.follows.not_other.2, if_neg (by simp [h.inRange]),
      if_neg fun hother => hother.2 h.width, if_neg fun hother => UInt64.not_lt.mpr h.inOrder hother.2,
      if_neg (by simp [h.noReset]), if_neg (by simp [h.baseline])]

/-! ## Trackers that respond alike -/

theorem SameBaseline.reception_eq (h : SameBaseline a b)
    (hsource : b.identityBound = true ∧ reading.incarnation ≠ b.incarnation ↔
      a.identityBound = true ∧ reading.incarnation ≠ a.incarnation)
    (hlink : b.identityBound = true ∧ reading.linkGeneration ≠ b.linkGeneration ↔
      a.identityBound = true ∧ reading.linkGeneration ≠ a.linkGeneration) :
    b.reception reading = a.reception reading := by
  unfold reception
  simp only [hsource, hlink, h.baseline]
  cases hbaseline : a.hasBaseline with
  | false => simp
  | true => rw [h.width hbaseline, h.sequence hbaseline]

theorem SameBaseline.observe (h : SameBaseline a b) (hreception : b.reception reading = a.reception reading)
    (config : CounterContinuityConfig) : (b.observe reading config).1 = (a.observe reading config).1 ∧
      SameBaseline (a.observe reading config).2 (b.observe reading config).2 := by
  rw [observe_eq, observe_eq, hreception]
  dsimp only
  cases hcase : a.reception reading with
  | outOfRange => exact ⟨rfl, sameBaseline_of_none rfl rfl⟩
  | regressed => exact ⟨rfl, h.baseline, h.value, h.width, h.observed, h.sequence⟩
  | compared =>
    have hbaseline := (reception_compared.mp hcase).baseline
    obtain ⟨hstepA, -, hrestsA⟩ := compareReadings_spec { a with samples := a.samples + 1 } reading config
    obtain ⟨hstepB, -, hrestsB⟩ := compareReadings_spec { b with samples := b.samples + 1 } reading config
    refine ⟨?_, hrestsA.sameBaseline hrestsB⟩
    rw [hstepA, hstepB]
    simp only [elapsedSince, h.value hbaseline, h.observed hbaseline]
  | reincarnated | regenerated | widthChanged | resetDeclared | first =>
    exact ⟨rfl, (rests_withoutDelta ..).sameBaseline (rests_withoutDelta ..)⟩

structure Alike (a b : CounterContinuity) : Prop extends SameBaseline a b where
  bound : b.identityBound = a.identityBound
  incarnation : a.identityBound = true → b.incarnation = a.incarnation
  generation : a.identityBound = true → b.linkGeneration = a.linkGeneration

theorem Rests.alike (ha : Rests reading a) (hb : Rests reading b) : Alike a b where
  toSameBaseline := ha.sameBaseline hb
  bound := hb.bound.trans ha.bound.symm
  incarnation := fun _ => hb.incarnation.trans ha.incarnation.symm
  generation := fun _ => hb.generation.trans ha.generation.symm

theorem Alike.reception_eq (h : Alike a b) (reading : CounterObservation) :
    b.reception reading = a.reception reading := by
  refine h.toSameBaseline.reception_eq ?_ ?_
  · rw [h.bound]
    exact and_congr_right fun hbound => by rw [h.incarnation hbound]
  · rw [h.bound]
    exact and_congr_right fun hbound => by rw [h.generation hbound]

theorem Alike.observe (h : Alike a b) (reading : CounterObservation) (config : CounterContinuityConfig) :
    (b.observe reading config).1 = (a.observe reading config).1 ∧
      Alike (a.observe reading config).2 (b.observe reading config).2 := by
  have hreception := h.reception_eq reading
  obtain ⟨hstep, hbaseline⟩ := h.toSameBaseline.observe hreception config
  refine ⟨hstep, ?_⟩
  by_cases hrebases : (a.reception reading).rebases = true
  · exact (observe_rests hrebases config).alike (observe_rests (hreception ▸ hrebases) config)
  · rw [Bool.not_eq_true] at hrebases
    obtain ⟨-, hkeepsA, -⟩ := observe_keeps hrebases config
    obtain ⟨-, hkeepsB, -⟩ := observe_keeps (hreception ▸ hrebases) config
    refine ⟨hbaseline, ?_, ?_, ?_⟩
    · rw [hkeepsA.bound, hkeepsB.bound]
      exact h.bound
    · rw [hkeepsA.bound, hkeepsA.incarnation, hkeepsB.incarnation]
      exact h.incarnation
    · rw [hkeepsA.bound, hkeepsA.generation, hkeepsB.generation]
      exact h.generation

def responseMachine : Machine CounterContinuity (CounterObservation × CounterContinuityConfig) CounterStep where
  step tracker entry := tracker.observe entry.1 entry.2

theorem Alike.responses (h : Alike a b) (entries : List (CounterObservation × CounterContinuityConfig)) :
    responseMachine.trace b entries = responseMachine.trace a entries := by
  induction entries generalizing a b with
  | nil => rfl
  | cons entry rest ih =>
    obtain ⟨hstep, hnext⟩ := h.observe entry.1 entry.2
    show (entry, (b.observe entry.1 entry.2).1) :: responseMachine.trace (b.observe entry.1 entry.2).2 rest = _
    rw [hstep, ih hnext]
    rfl

/-! ## Readings of one source in order -/

def inRange (reading : CounterObservation) : Bool := counterValueInRange reading.value reading.width

structure Ordered (incarnation generation : UInt64) (readings : List CounterObservation) : Prop where
  ascending : readings.Pairwise fun x y => x.sequence < y.sequence
  source : ∀ reading ∈ readings, reading.From incarnation generation

def tracked (config : CounterContinuityConfig) (readings : List CounterObservation) : CounterContinuity :=
  readings.foldl (fun tracker reading => (tracker.observe reading config).2) initial

theorem tracked_snoc (config : CounterContinuityConfig) (readings : List CounterObservation)
    (reading : CounterObservation) :
    tracked config (readings ++ [reading]) = ((tracked config readings).observe reading config).2 := by
  simp [tracked]

structure Behind (incarnation generation : UInt64) (readings : List CounterObservation) (tracker : CounterContinuity) :
    Prop where
  follows : tracker.Follows incarnation generation
  bound : tracker.identityBound = readings.any inRange
  last : tracker.hasBaseline = true → ∃ reading ∈ readings, tracker.lastSequence = reading.sequence

variable {readings : List CounterObservation} {incarnation generation : UInt64}

theorem Follows.of_from (h : tracker.Follows incarnation generation) (hreading : reading.From incarnation generation) :
    tracker.Follows reading.incarnation reading.linkGeneration := by
  rw [hreading.1, hreading.2]
  exact h

theorem Behind.next (h : Behind incarnation generation readings tracker)
    (hreading : reading.From incarnation generation) (habove : ∀ other ∈ readings, other.sequence < reading.sequence)
    (config : CounterContinuityConfig) : Rests reading (tracker.observe reading config).2 ∧ inRange reading = true ∨
      KeepsIdentity tracker (tracker.observe reading config).2 ∧ inRange reading = false ∧
        (tracker.observe reading config).2.hasBaseline = false := by
  have hiff := reception_rebases_iff (h.follows.of_from hreading)
  by_cases hrebases : (tracker.reception reading).rebases = true
  · exact .inl ⟨observe_rests hrebases config, (hiff.mp hrebases).1⟩
  have hrange : inRange reading = false := by
    by_contra hrange
    refine hrebases (hiff.mpr ⟨Bool.not_eq_false _ ▸ hrange, fun hbaseline => .inr ?_⟩)
    obtain ⟨last, hlast, hsequence⟩ := h.last hbaseline
    rw [hsequence]
    exact UInt64.le_of_lt (habove last hlast)
  obtain ⟨-, hkeeps, hbaseline⟩ := observe_keeps (Bool.not_eq_true _ ▸ hrebases) config
  exact .inr ⟨hkeeps, hrange, Bool.eq_false_iff.mpr fun hsome =>
    Bool.false_ne_true (hrange.symm.trans (hbaseline hsome).2)⟩

theorem behind_tracked (h : Ordered incarnation generation readings) (config : CounterContinuityConfig) :
    Behind incarnation generation readings (tracked config readings) := by
  induction readings using List.reverseRecOn with
  | nil =>
    refine ⟨fun hbound => ?_, rfl, fun hbaseline => ?_⟩
    · cases hbound
    · cases hbaseline
  | append_singleton readings reading ih =>
    obtain ⟨hinit, -, habove⟩ := List.pairwise_append.mp h.ascending
    have hearlier := ih ⟨hinit, fun other hother => h.source other (List.mem_append_left _ hother)⟩
    have hlast := List.mem_append_right readings (List.mem_singleton_self reading)
    rw [tracked_snoc]
    rcases hearlier.next (h.source reading hlast)
      (fun other hother => habove other hother reading (List.mem_singleton_self _)) config with
      ⟨hrests, hrange⟩ | ⟨hkeeps, hrange, hnone⟩
    · refine ⟨fun _ => ?_, ?_, fun _ => ⟨reading, hlast, hrests.sequence⟩⟩
      · rw [hrests.incarnation, hrests.generation]
        exact h.source reading hlast
      · simp [hrests.bound, hrange]
    · refine ⟨fun hbound => ?_, ?_, fun hbaseline => ?_⟩
      · rw [hkeeps.incarnation, hkeeps.generation]
        exact hearlier.follows (hkeeps.bound ▸ hbound)
      · simp [hkeeps.bound, hearlier.bound, hrange]
      · rw [hnone] at hbaseline
        cases hbaseline

theorem sameBaseline_of_next {others : List CounterObservation} (ha : Behind incarnation generation readings a)
    (hb : Behind incarnation generation others b) (hreading : reading.From incarnation generation)
    (habove : ∀ other ∈ readings, other.sequence < reading.sequence)
    (habove' : ∀ other ∈ others, other.sequence < reading.sequence) (config : CounterContinuityConfig) :
    SameBaseline (a.observe reading config).2 (b.observe reading config).2 := by
  rcases ha.next hreading habove config with ⟨hrestsA, hin⟩ | ⟨-, hout, hnoneA⟩
  · rcases hb.next hreading habove' config with ⟨hrestsB, -⟩ | ⟨-, hout, -⟩
    · exact hrestsA.sameBaseline hrestsB
    · rw [hin] at hout
      cases hout
  · rcases hb.next hreading habove' config with ⟨-, hin⟩ | ⟨-, -, hnoneB⟩
    · rw [hin] at hout
      cases hout
    · exact sameBaseline_of_none hnoneA hnoneB

theorem Ordered.init {earlier : List CounterObservation} {last : CounterObservation}
    (h : Ordered incarnation generation (earlier ++ [last])) :
    Ordered incarnation generation earlier ∧ (∀ other ∈ earlier, other.sequence < last.sequence) ∧
      last.From incarnation generation := by
  obtain ⟨hinit, -, habove⟩ := List.pairwise_append.mp h.ascending
  exact ⟨⟨hinit, fun other hother => h.source other (List.mem_append_left _ hother)⟩,
    fun other hother => habove other hother last (List.mem_singleton_self _),
    h.source last (List.mem_append_right _ (List.mem_singleton_self _))⟩

section Last
variable {earlier others : List CounterObservation} {previous last : CounterObservation}

theorem tracked_last (ha : Ordered incarnation generation (earlier ++ [last]))
    (hb : Ordered incarnation generation (others ++ [last])) (config : CounterContinuityConfig) :
    SameBaseline (tracked config (earlier ++ [last])) (tracked config (others ++ [last])) := by
  obtain ⟨hinitA, haboveA, hlast⟩ := ha.init
  obtain ⟨hinitB, haboveB, -⟩ := hb.init
  rw [tracked_snoc, tracked_snoc]
  exact sameBaseline_of_next (behind_tracked hinitA config) (behind_tracked hinitB config) hlast haboveA haboveB config

theorem tracked_alike (ha : Ordered incarnation generation (earlier ++ [last]))
    (hb : Ordered incarnation generation (others ++ [last])) (config : CounterContinuityConfig)
    (hrange : (others ++ [last]).any inRange = (earlier ++ [last]).any inRange) :
    Alike (tracked config (earlier ++ [last])) (tracked config (others ++ [last])) := by
  have hbehindA := behind_tracked ha config
  have hbehindB := behind_tracked hb config
  have hbound : (tracked config (others ++ [last])).identityBound =
      (tracked config (earlier ++ [last])).identityBound := by
    rw [hbehindA.bound, hbehindB.bound, hrange]
  refine ⟨tracked_last ha hb config, hbound, fun h => ?_, fun h => ?_⟩
  · rw [(hbehindA.follows h).1, (hbehindB.follows (hbound.trans h)).1]
  · rw [(hbehindA.follows h).2, (hbehindB.follows (hbound.trans h)).2]

theorem tracked_last_two (ha : Ordered incarnation generation (earlier ++ [previous] ++ [last]))
    (hb : Ordered incarnation generation (others ++ [previous] ++ [last])) (config : CounterContinuityConfig) :
    ((tracked config (others ++ [previous])).observe last config).1 =
      ((tracked config (earlier ++ [previous])).observe last config).1 := by
  obtain ⟨hinitA, -, hlast⟩ := ha.init
  obtain ⟨hinitB, -, -⟩ := hb.init
  have hotherA := ((behind_tracked hinitA config).follows.of_from hlast).not_other
  have hotherB := ((behind_tracked hinitB config).follows.of_from hlast).not_other
  have hbaseline := tracked_last hinitA hinitB config
  exact (hbaseline.observe (hbaseline.reception_eq (iff_of_false hotherB.1 hotherA.1)
    (iff_of_false hotherB.2 hotherA.2)) config).1

end Last

end CounterContinuity

end Lqf
