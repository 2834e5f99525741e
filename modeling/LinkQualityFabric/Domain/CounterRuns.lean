import LinkQualityFabric.Domain.CounterBaseline

/-! What a continuity tracker does over a run of arbitrary readings.

Every reading is received in one of eight ways. Six of them make the reading the one to compare with, and only the last
of the six looks at the reading before it. -/
namespace Lqf.CounterContinuity
open Foundations
set_option autoImplicit false

variable {tracker : CounterContinuity} {reading : CounterObservation} {config : CounterContinuityConfig}

theorem observe_delta_none (h : tracker.reception reading ≠ .compared) (config : CounterContinuityConfig) :
    (tracker.observe reading config).1.delta = none ∧
      (tracker.observe reading config).2.missingSamples = tracker.missingSamples := by
  rw [observe_eq]
  dsimp only
  cases hreception : tracker.reception reading with
  | compared => exact absurd hreception h
  | outOfRange | regressed | reincarnated | regenerated | widthChanged | resetDeclared | first => exact ⟨rfl, rfl⟩

theorem withDelta_missing (tracker : CounterContinuity) (reading : CounterObservation) (delta : CounterDelta)
    (event : CounterEvent) : (tracker.withDelta reading delta event).2.missingSamples = tracker.missingSamples := by
  unfold withDelta
  dsimp only
  split <;> rfl

theorem compareReadings_missing (tracker : CounterContinuity) (reading : CounterObservation)
    (config : CounterContinuityConfig) : (tracker.compareReadings reading config).2.missingSamples =
      if reading.sequence > tracker.lastSequence + 1 then
        tracker.missingSamples + (reading.sequence - tracker.lastSequence - 1) else tracker.missingSamples := by
  have hcounted : (if reading.sequence > tracker.lastSequence + 1 then
        { tracker with missingSamples := tracker.missingSamples + (reading.sequence - tracker.lastSequence - 1) }
      else tracker).missingSamples = if reading.sequence > tracker.lastSequence + 1 then
        tracker.missingSamples + (reading.sequence - tracker.lastSequence - 1) else tracker.missingSamples := by
    split <;> rfl
  rw [← hcounted]
  unfold compareReadings
  dsimp only
  generalize (if reading.sequence > tracker.lastSequence + 1 then
    { tracker with missingSamples := tracker.missingSamples + (reading.sequence - tracker.lastSequence - 1) }
    else tracker) = counted
  split
  · exact withDelta_missing ..
  · cases classifyDecrease counted.lastValue reading.value reading.width config with
    | none => rfl
    | some delta => exact withDelta_missing ..

theorem observe_compared (h : tracker.reception reading = .compared) (config : CounterContinuityConfig) :
    (tracker.observe reading config).1 = comparison tracker.lastValue (tracker.elapsedSince reading) reading config ∧
      (tracker.observe reading config).2.missingSamples = if reading.sequence > tracker.lastSequence + 1 then
          tracker.missingSamples + (reading.sequence - tracker.lastSequence - 1) else tracker.missingSamples := by
  rw [observe_eq, h]
  exact ⟨(compareReadings_spec ..).1, compareReadings_missing ..⟩

/-! ## The baseline and its width -/

def BaselineFits (tracker : CounterContinuity) : Prop :=
  tracker.hasBaseline = true → counterValueInRange tracker.lastValue tracker.lastWidth = true

def FitsIfNew (tracker : CounterContinuity) (reading : CounterObservation) : Prop :=
  tracker.Follows reading.incarnation reading.linkGeneration ∨
    counterValueInRange reading.value reading.width = true

theorem Rests.baselineFits_iff (h : Rests reading tracker) :
    tracker.BaselineFits ↔ counterValueInRange reading.value reading.width = true := by
  unfold BaselineFits
  rw [h.baseline, h.value, h.width]
  simp

theorem BaselineFits.observe_iff (h : tracker.BaselineFits) (reading : CounterObservation)
    (config : CounterContinuityConfig) :
    (tracker.observe reading config).2.BaselineFits ↔ FitsIfNew tracker reading := by
  by_cases hfollows : tracker.Follows reading.incarnation reading.linkGeneration
  · refine ⟨fun _ => .inl hfollows, fun _ => ?_⟩
    by_cases hrebases : (tracker.reception reading).rebases = true
    · exact (observe_rests hrebases config).baselineFits_iff.mpr ((reception_rebases_iff hfollows).mp hrebases).1
    · obtain ⟨hkeeps, -, hbaseline⟩ := observe_keeps (Bool.not_eq_true _ ▸ hrebases) config
      intro hsome
      rw [hkeeps.value, hkeeps.width]
      exact h (hbaseline hsome).1
  · rw [(observe_rests (rebases_of_not_follows hfollows) config).baselineFits_iff]
    exact ⟨.inr, fun hfits => hfits.resolve_left hfollows⟩

theorem value_lt_of_bits32 {value : UInt64} (h : counterValueInRange value .bits32 = true) : value.toNat < 2 ^ 32 := by
  have hle : value ≤ 0xFFFFFFFF := of_decide_eq_true h
  have hnat := UInt64.le_iff_toNat_le.mp hle
  have hmax : (0xFFFFFFFF : UInt64).toNat = 4294967295 := by decide
  omega

variable {previous current : UInt64} {delta : CounterDelta} {total : ℤ}

theorem wrap32_toNat (hprevious : previous.toNat < 2 ^ 32) (hcurrent : current.toNat < previous.toNat) :
    ((0x100000000 - previous) + current).toNat = 2 ^ 32 - previous.toNat + current.toNat := by
  have hmodulus : (0x100000000 : UInt64).toNat = 2 ^ 32 := by decide
  have hle : previous ≤ 0x100000000 := by
    rw [UInt64.le_iff_toNat_le, hmodulus]
    omega
  have hsub : (0x100000000 - previous).toNat = 2 ^ 32 - previous.toNat := by
    rw [UInt64.toNat_sub_of_le _ _ hle, hmodulus]
  rw [UInt64.toNat_add, hsub, Nat.mod_eq_of_lt]
  omega

theorem classifyDecrease_some {delta : UInt64} {width : CounterWidth}
    (h : classifyDecrease previous current width config = some delta) :
    width = .bits32 ∧ delta = (0x100000000 - previous) + current ∨ width = .bits64 ∧ delta = current - previous := by
  cases width with
  | unspecified => simp [classifyDecrease] at h
  | bits32 =>
    simp only [classifyDecrease, reduceCtorEq, or_false, if_false, if_true] at h
    left
    split at h
    · cases h
    · split at h
      · cases h
      · exact ⟨rfl, (Option.some.inj h).symm⟩
  | bits64 =>
    simp only [classifyDecrease, reduceCtorEq, or_false, if_false, if_true] at h
    right
    split at h
    · cases h
    · split at h
      · cases h
      · exact ⟨rfl, (Option.some.inj h).symm⟩

theorem comparison_delta {lastValue : UInt64} {elapsed : Int64}
    (h : (comparison lastValue elapsed reading config).delta = some delta) :
    (comparison lastValue elapsed reading config).event = .advance ∧ lastValue ≤ reading.value ∧
        delta.delta = reading.value - lastValue ∨
      (comparison lastValue elapsed reading config).event = .wrap ∧ reading.value < lastValue ∧
        classifyDecrease lastValue reading.value reading.width config = some delta.delta := by
  unfold comparison at h ⊢
  dsimp only at h ⊢
  by_cases hvalue : lastValue ≤ reading.value
  · rw [if_pos hvalue] at h ⊢
    obtain rfl := Option.some.inj h
    exact .inl ⟨rfl, hvalue, rfl⟩
  · rw [if_neg hvalue] at h ⊢
    cases hdecrease : classifyDecrease lastValue reading.value reading.width config with
    | none =>
      rw [hdecrease] at h
      cases h
    | some value =>
      rw [hdecrease] at h
      obtain rfl := Option.some.inj h
      exact .inr ⟨rfl, UInt64.not_le.mp hvalue, rfl⟩

theorem comparison_isSome_iff (lastValue : UInt64) (elapsed : Int64) (reading : CounterObservation)
    (config : CounterContinuityConfig) : (comparison lastValue elapsed reading config).delta.isSome = true ↔
      (comparison lastValue elapsed reading config).event = .advance ∨
        (comparison lastValue elapsed reading config).event = .wrap := by
  unfold comparison
  dsimp only
  split
  · simp
  · cases classifyDecrease lastValue reading.value reading.width config with
    | none => simp
    | some delta => simp

theorem observe_isSome_iff (tracker : CounterContinuity) (reading : CounterObservation)
    (config : CounterContinuityConfig) : (tracker.observe reading config).1.delta.isSome = true ↔
      (tracker.observe reading config).1.event = .advance ∨ (tracker.observe reading config).1.event = .wrap := by
  rw [observe_eq]
  dsimp only
  cases tracker.reception reading with
  | compared =>
    dsimp only
    rw [(compareReadings_spec ..).1]
    exact comparison_isSome_iff ..
  | outOfRange | regressed | reincarnated | regenerated | widthChanged | resetDeclared | first =>
    simp [withoutDelta]

theorem comparable_of_delta (h : (tracker.observe reading config).1.delta = some delta) : Comparable tracker reading ∧
      (comparison tracker.lastValue (tracker.elapsedSince reading) reading config).delta = some delta := by
  by_cases hcompared : tracker.reception reading = .compared
  · rw [(observe_compared hcompared config).1] at h
    exact ⟨reception_compared.mp hcompared, h⟩
  · rw [(observe_delta_none hcompared config).1] at h
    cases h

theorem BaselineFits.delta_lt (h : tracker.BaselineFits)
    (hdelta : (tracker.observe reading config).1.delta = some delta) (hwidth : reading.width = .bits32) :
    delta.delta.toNat < 2 ^ 32 := by
  obtain ⟨hcomparable, hsome⟩ := comparable_of_delta hdelta
  have hlast : tracker.lastValue.toNat < 2 ^ 32 := by
    have hfits := h hcomparable.baseline
    rw [← hcomparable.width, hwidth] at hfits
    exact value_lt_of_bits32 hfits
  have hvalue : reading.value.toNat < 2 ^ 32 := by
    have hfits := hcomparable.inRange
    rw [hwidth] at hfits
    exact value_lt_of_bits32 hfits
  rcases comparison_delta hsome with ⟨-, hle, hdifference⟩ | ⟨-, hlt, hdecrease⟩
  · rw [hdifference, UInt64.toNat_sub_of_le _ _ hle]
    omega
  · have hless := UInt64.lt_iff_toNat_lt.mp hlt
    rcases classifyDecrease_some hdecrease with ⟨-, hwrap⟩ | ⟨hother, -⟩
    · rw [hwrap, wrap32_toNat hlast hless]
      omega
    · rw [hwidth] at hother
      cases hother

/-- The baseline fits its width behind every reading of a run exactly if no reading that changes the identity is out of
range, and then every difference of a 32-bit counter is below its modulus. -/
theorem baseline_fits_iff (entries : List (CounterObservation × CounterContinuityConfig)) :
    (responseMachine.Meets (fun tracker entry => (tracker.observe entry.1 entry.2).2.BaselineFits) initial entries ↔
        responseMachine.Meets (fun tracker entry => FitsIfNew tracker entry.1) initial entries) ∧
      (responseMachine.Meets (fun tracker entry => FitsIfNew tracker entry.1) initial entries →
        ∀ answered ∈ responseMachine.trace initial entries, ∀ delta, answered.2.delta = some delta →
          answered.1.1.width = .bits32 → delta.delta.toNat < 2 ^ 32) := by
  have hinitial : initial.BaselineFits := fun hbaseline => nomatch hbaseline
  have hnext : ∀ (tracker : CounterContinuity) (entry : CounterObservation × CounterContinuityConfig),
      tracker.BaselineFits → FitsIfNew tracker entry.1 → (responseMachine.step tracker entry).2.BaselineFits :=
    fun tracker entry hfits hnew => (hfits.observe_iff entry.1 entry.2).mpr hnew
  refine ⟨responseMachine.meets_iff (fun tracker entry hfits => hfits.observe_iff entry.1 entry.2)
    (fun tracker entry hfits hafter => hafter) hinitial, fun hmeets => ?_⟩
  exact responseMachine.trace_of_meets
    (Q := fun entry step => ∀ delta, step.delta = some delta → entry.1.width = .bits32 → delta.delta.toNat < 2 ^ 32)
    (fun tracker entry hfits _ delta hdelta hwidth => hfits.delta_lt hdelta hwidth) hnext hinitial hmeets

def sample (incarnation sequence value : UInt64) : CounterObservation where
  value := value
  width := .bits32
  resetDeclared := false
  observedNanos := 0
  receivedSteadyNanos := 0
  sequence := sequence
  incarnation := incarnation
  linkGeneration := 1

def inferring : CounterContinuityConfig := { CounterContinuityConfig.defaults with wrapInference := true }

theorem plain_baseline_fits :
    ∀ answered ∈ responseMachine.trace initial [(sample 1 1 5, inferring), (sample 1 2 9, inferring)],
      ∀ delta, answered.2.delta = some delta → answered.1.1.width = .bits32 → delta.delta.toNat < 2 ^ 32 :=
  (baseline_fits_iff [(sample 1 1 5, inferring), (sample 1 2 9, inferring)]).2
    ⟨.inr (by decide), .inr (by decide), trivial⟩

/-- A new incarnation that starts above its range is compared with all the same. -/
theorem reincarnation_out_of_range :
    (responseMachine.trace initial
        [(sample 1 1 5, inferring), (sample 2 1 0x10000000000, inferring), (sample 2 2 5, inferring)]).map
          (fun answered => answered.2.delta.map (·.delta)) = [none, none, some 0xFFFFFF0100000005] ∧
      ¬ (responseMachine.final initial
        [(sample 1 1 5, inferring), (sample 2 1 0x10000000000, inferring)]).BaselineFits := by
  refine ⟨by decide +kernel, fun hfits => ?_⟩
  exact absurd (hfits (by decide +kernel)) (by decide +kernel)

/-! ## The order of the samples -/

/-- A sample below the baseline is not made the one to compare with: it is out of range, or there is a baseline of its
width to hold it against. -/
def HoldsBack (tracker : CounterContinuity) (reading : CounterObservation) : Prop :=
  tracker.lastSequence ≤ reading.sequence ∨ counterValueInRange reading.value reading.width = false ∨
    tracker.hasBaseline = true ∧ reading.width = tracker.lastWidth

theorem lastSequence_le_iff (h : tracker.Follows reading.incarnation reading.linkGeneration)
    (config : CounterContinuityConfig) :
    tracker.lastSequence ≤ (tracker.observe reading config).2.lastSequence ↔ HoldsBack tracker reading := by
  by_cases hrebases : (tracker.reception reading).rebases = true
  · rw [(observe_rests hrebases config).sequence]
    obtain ⟨hrange, horder⟩ := (reception_rebases_iff h).mp hrebases
    refine ⟨.inl, ?_⟩
    rintro (hle | hout | ⟨hbaseline, hwidth⟩)
    · exact hle
    · rw [hrange] at hout
      cases hout
    · exact (horder hbaseline).resolve_left (not_not_intro hwidth)
  · have hkeeps := (observe_keeps (Bool.not_eq_true _ ▸ hrebases) config).1
    rw [hkeeps.sequence]
    refine ⟨fun _ => ?_, fun _ => UInt64.le_refl _⟩
    rw [reception_rebases_iff h, not_and, Classical.not_imp] at hrebases
    cases hrange : counterValueInRange reading.value reading.width with
    | false => exact .inr (.inl hrange)
    | true =>
      obtain ⟨hbaseline, horder⟩ := hrebases hrange
      rw [not_or, not_not] at horder
      exact .inr (.inr ⟨hbaseline, horder.1⟩)

/-- Over readings of one source the number of the baseline never decreases exactly if every sample below it is held
back, and a difference is never taken to a sample with a smaller number. -/
theorem baseline_never_rewinds_iff {incarnation generation : UInt64}
    {entries : List (CounterObservation × CounterContinuityConfig)}
    (hsource : ∀ entry ∈ entries, entry.1.From incarnation generation) :
    (responseMachine.Meets (fun tracker entry =>
          tracker.lastSequence ≤ (tracker.observe entry.1 entry.2).2.lastSequence) initial entries ↔
        responseMachine.Meets (fun tracker entry => HoldsBack tracker entry.1) initial entries) ∧
      responseMachine.Meets (fun tracker entry => ∀ delta, (tracker.observe entry.1 entry.2).1.delta = some delta →
        tracker.lastSequence ≤ entry.1.sequence) initial entries := by
  constructor
  · have hfollows : initial.Follows incarnation generation := fun hbound => nomatch hbound
    generalize initial = tracker at hfollows ⊢
    induction entries generalizing tracker with
    | nil => exact Iff.rfl
    | cons entry rest ih =>
      have hown := hsource entry List.mem_cons_self
      have hstep : tracker.Follows entry.1.incarnation entry.1.linkGeneration := by
        rw [hown.1, hown.2]
        exact hfollows
      exact and_congr (lastSequence_le_iff hstep entry.2)
        (ih (fun other hother => hsource other (List.mem_cons_of_mem _ hother)) _ (hfollows.observe hown entry.2))
  · generalize initial = tracker
    induction entries generalizing tracker with
    | nil => trivial
    | cons entry rest ih =>
      exact ⟨fun delta hdelta => (comparable_of_delta hdelta).1.inOrder,
        ih (fun other hother => hsource other (List.mem_cons_of_mem _ hother)) _⟩

theorem ordered_baseline_kept :
    responseMachine.Meets (fun tracker entry =>
      tracker.lastSequence ≤ (tracker.observe entry.1 entry.2).2.lastSequence) initial
        [(sample 1 2 5, inferring), (sample 1 1 4, inferring)] := by
  have hsource : ∀ entry ∈ [(sample 1 2 5, inferring), (sample 1 1 4, inferring)], entry.1.From 1 1 := by
    intro entry hentry
    simp only [List.mem_cons, List.not_mem_nil, or_false] at hentry
    rcases hentry with rfl | rfl <;> exact ⟨rfl, rfl⟩
  exact (baseline_never_rewinds_iff hsource).1.mpr ⟨.inl (by decide), .inr (.inr ⟨by decide, by decide⟩), trivial⟩

/-- A late sample of another width, and one behind a reading out of range, become the baseline. -/
theorem late_sample_rewinds :
    (responseMachine.final initial
        [(sample 1 5 5, inferring), ({ sample 1 2 4 with width := .bits64 }, inferring)]).lastSequence = 2 ∧
      (responseMachine.final initial
        [(sample 1 5 5, inferring), (sample 1 6 0x10000000000, inferring), (sample 1 2 4, inferring)]).lastSequence =
          2 := by
  decide +kernel

/-! ## Samples that are missing -/

def missingAt (tracker : CounterContinuity) (reading : CounterObservation) : ℤ :=
  if tracker.reception reading = .compared then
    max 0 ((reading.sequence.toNat : ℤ) - tracker.lastSequence.toNat - 1)
  else 0

def missingOver : CounterContinuity → List (CounterObservation × CounterContinuityConfig) → ℤ
  | _, [] => 0
  | tracker, entry :: rest => tracker.missingAt entry.1 + missingOver (tracker.observe entry.1 entry.2).2 rest

def Followable (tracker : CounterContinuity) (reading : CounterObservation) : Prop :=
  tracker.reception reading = .compared → tracker.lastSequence ≠ 0xFFFFFFFFFFFFFFFF

theorem missingOver_snoc (tracker : CounterContinuity) (entries : List (CounterObservation × CounterContinuityConfig))
    (entry : CounterObservation × CounterContinuityConfig) : missingOver tracker (entries ++ [entry]) =
      missingOver tracker entries + (responseMachine.final tracker entries).missingAt entry.1 := by
  induction entries generalizing tracker with
  | nil => simp [missingOver]
  | cons first rest ih =>
    rw [List.cons_append, missingOver, missingOver, ih, add_assoc]
    rfl

/-- The count of the tracker is the one over the integers, up to its width. -/
def CountsMissing (total : ℤ) (tracker : CounterContinuity) : Prop :=
  (tracker.missingSamples.toNat : ℤ) = total % 2 ^ 64

/-- Behind the last number there is: the successor is zero, and the count goes back by one. -/
theorem miscounted_behind_last (h : CountsMissing total tracker) (hlast : tracker.lastSequence = 0xFFFFFFFFFFFFFFFF)
    (horder : tracker.lastSequence.toNat ≤ reading.sequence.toNat) :
    ¬ ((if reading.sequence > tracker.lastSequence + 1 then
        tracker.missingSamples + (reading.sequence - tracker.lastSequence - 1) else tracker.missingSamples).toNat : ℤ) =
      (total + max 0 ((reading.sequence.toNat : ℤ) - tracker.lastSequence.toNat - 1)) % 2 ^ 64 := by
  have hmax : (0xFFFFFFFFFFFFFFFF : UInt64).toNat = 18446744073709551615 := by decide
  have hsame : reading.sequence = 0xFFFFFFFFFFFFFFFF := by
    rw [hlast] at horder
    have hbound := reading.sequence.toNat_lt
    exact UInt64.toNat_inj.mp (by omega)
  have hstep : (0xFFFFFFFFFFFFFFFF : UInt64) - 0xFFFFFFFFFFFFFFFF - 1 = 0xFFFFFFFFFFFFFFFF := by decide
  unfold CountsMissing at h
  rw [hlast, hsame, if_pos (by decide), hstep, UInt64.toNat_add, hmax]
  have hbound := tracker.missingSamples.toNat_lt
  omega

theorem counted_behind (h : CountsMissing total tracker) (hlast : tracker.lastSequence ≠ 0xFFFFFFFFFFFFFFFF)
    (horder : tracker.lastSequence.toNat ≤ reading.sequence.toNat) :
    ((if reading.sequence > tracker.lastSequence + 1 then
        tracker.missingSamples + (reading.sequence - tracker.lastSequence - 1) else tracker.missingSamples).toNat : ℤ) =
      (total + max 0 ((reading.sequence.toNat : ℤ) - tracker.lastSequence.toNat - 1)) % 2 ^ 64 := by
  have hmax : (0xFFFFFFFFFFFFFFFF : UInt64).toNat = 18446744073709551615 := by decide
  have hroom : tracker.lastSequence.toNat < 2 ^ 64 - 1 := by
    have hbound := tracker.lastSequence.toNat_lt
    have hne : tracker.lastSequence.toNat ≠ 18446744073709551615 := fun heq =>
      hlast (UInt64.toNat_inj.mp (heq.trans hmax.symm))
    omega
  have hnext : (tracker.lastSequence + 1).toNat = tracker.lastSequence.toNat + 1 := by
    rw [UInt64.toNat_add, UInt64.toNat_one, Nat.mod_eq_of_lt (by omega)]
  unfold CountsMissing at h
  split
  · next hgap =>
    have hless := UInt64.lt_iff_toNat_lt.mp hgap
    rw [hnext] at hless
    have hfirst : (reading.sequence - tracker.lastSequence).toNat =
        reading.sequence.toNat - tracker.lastSequence.toNat :=
      UInt64.toNat_sub_of_le _ _ (UInt64.le_iff_toNat_le.mpr horder)
    have hsecond : (reading.sequence - tracker.lastSequence - 1).toNat =
        reading.sequence.toNat - tracker.lastSequence.toNat - 1 := by
      rw [UInt64.toNat_sub_of_le, hfirst, UInt64.toNat_one]
      rw [UInt64.le_iff_toNat_le, hfirst, UInt64.toNat_one]
      omega
    rw [UInt64.toNat_add, hsecond]
    omega
  · next hgap =>
    have hless := UInt64.le_iff_toNat_le.mp (UInt64.not_lt.mp hgap)
    rw [hnext] at hless
    omega

theorem counted_iff (h : CountsMissing total tracker) (reading : CounterObservation)
    (config : CounterContinuityConfig) :
    CountsMissing (total + tracker.missingAt reading) (tracker.observe reading config).2 ↔
      Followable tracker reading := by
  unfold CountsMissing Followable missingAt at *
  by_cases hcompared : tracker.reception reading = .compared
  · have horder := UInt64.le_iff_toNat_le.mp (reception_compared.mp hcompared).inOrder
    rw [(observe_compared hcompared config).2, if_pos hcompared]
    simp only [hcompared, forall_const]
    by_cases hlast : tracker.lastSequence = 0xFFFFFFFFFFFFFFFF
    · exact iff_of_false (miscounted_behind_last h hlast horder) (not_not_intro hlast)
    · exact iff_of_true (counted_behind h hlast horder) hlast
  · rw [(observe_delta_none hcompared config).2, if_neg hcompared, add_zero]
    exact ⟨fun _ hcase => absurd hcase hcompared, fun _ => h⟩

/-- The count of missing samples is exact behind every part of a run exactly if no reading is compared with one that
carries the last number there is. -/
theorem missing_exact_iff (entries : List (CounterObservation × CounterContinuityConfig)) :
    (∀ taken, taken <+: entries → ((responseMachine.final initial taken).missingSamples.toNat : ℤ) =
        missingOver initial taken % 2 ^ 64) ↔
      responseMachine.Meets (fun tracker entry => Followable tracker entry.1) initial entries := by
  have hstart : CountsMissing (missingOver initial []) (responseMachine.final initial []) := rfl
  induction entries using List.reverseRecOn with
  | nil =>
    refine ⟨fun _ => trivial, fun _ taken htaken => ?_⟩
    obtain rfl := List.prefix_nil.mp htaken
    exact hstart
  | append_singleton earlier entry ih =>
    rw [Machine.meets_append]
    have hlast : responseMachine.final initial (earlier ++ [entry]) =
        ((responseMachine.final initial earlier).observe entry.1 entry.2).2 := by
      rw [Machine.final_append]
      rfl
    constructor
    · intro h
      have hearlier := fun taken (htaken : taken <+: earlier) =>
        h taken (htaken.trans (List.prefix_append earlier [entry]))
      have hnow := h _ List.prefix_rfl
      rw [hlast, missingOver_snoc] at hnow
      exact ⟨ih.mp hearlier, (counted_iff (hearlier earlier List.prefix_rfl) entry.1 entry.2).mp hnow, trivial⟩
    · rintro ⟨hmeets, hfollowable, -⟩ taken htaken
      have hearlier := ih.mpr hmeets
      rcases List.prefix_concat_iff.mp htaken with rfl | hshorter
      · rw [hlast, missingOver_snoc]
        exact (counted_iff (hearlier earlier List.prefix_rfl) entry.1 entry.2).mpr hfollowable
      · exact hearlier taken hshorter

/-- A sample with the last number, sent twice: one sample less than none is missing. -/
theorem repeated_last_number :
    (responseMachine.final initial [(sample 1 0xFFFFFFFFFFFFFFFF 5, inferring),
        (sample 1 0xFFFFFFFFFFFFFFFF 5, inferring)]).missingSamples = 0xFFFFFFFFFFFFFFFF ∧
      missingOver initial [(sample 1 0xFFFFFFFFFFFFFFFF 5, inferring),
        (sample 1 0xFFFFFFFFFFFFFFFF 5, inferring)] = 0 := by
  decide +kernel

end Lqf.CounterContinuity
