import LinkQualityFabric.Core.DoubleOrder
import LinkQualityFabric.Domain.CounterRuns

/-! The numbers a comparison rests on: the interval between two readings, and the thresholds of a wrap.

The interval is a checked difference of two observation times; where it does not fit, the largest number stands for
it. The thresholds are fractions of the modulus, truncated, and for 64-bit counters of one less than the modulus. -/
namespace Lqf
set_option autoImplicit false

/-! ## Checked arithmetic -/

variable {lhs rhs : Int64}

theorem toInt_sub_of_bounds (hlower : -2 ^ 63 ≤ lhs.toInt - rhs.toInt) (hupper : lhs.toInt - rhs.toInt < 2 ^ 63) :
    (lhs - rhs).toInt = lhs.toInt - rhs.toInt := by
  rw [Int64.toInt_sub, Int.bmod_eq_of_le]
  · omega
  · omega

theorem toInt_add_of_bounds (hlower : -2 ^ 63 ≤ lhs.toInt + rhs.toInt) (hupper : lhs.toInt + rhs.toInt < 2 ^ 63) :
    (lhs + rhs).toInt = lhs.toInt + rhs.toInt := by
  rw [Int64.toInt_add, Int.bmod_eq_of_le]
  · omega
  · omega

theorem checkedAddI64_eq (lhs rhs : Int64) : checkedAddI64 lhs rhs =
      if -2 ^ 63 ≤ lhs.toInt + rhs.toInt ∧ lhs.toInt + rhs.toInt < 2 ^ 63 then some (lhs + rhs) else none := by
  have hlhs := lhs.toInt_lt
  have hlhs' := lhs.le_toInt
  have hrhs := rhs.toInt_lt
  have hrhs' := rhs.le_toInt
  have hzero : (0 : Int64).toInt = 0 := rfl
  have hover : rhs > 0 → (lhs > Int64.maxValue - rhs ↔ 2 ^ 63 ≤ lhs.toInt + rhs.toInt) := by
    intro hpositive
    have hsign := Int64.lt_iff_toInt_lt.mp hpositive
    rw [hzero] at hsign
    have hroom : (Int64.maxValue - rhs).toInt = 2 ^ 63 - 1 - rhs.toInt := by
      rw [toInt_sub_of_bounds] <;> rw [Int64.toInt_maxValue] <;> omega
    rw [gt_iff_lt, Int64.lt_iff_toInt_lt, hroom]
    omega
  have hunder : rhs < 0 → (lhs < Int64.minValue - rhs ↔ lhs.toInt + rhs.toInt < -2 ^ 63) := by
    intro hnegative
    have hsign := Int64.lt_iff_toInt_lt.mp hnegative
    rw [hzero] at hsign
    have hroom : (Int64.minValue - rhs).toInt = -2 ^ 63 - rhs.toInt := by
      rw [toInt_sub_of_bounds] <;> rw [Int64.toInt_minValue] <;> omega
    rw [Int64.lt_iff_toInt_lt, hroom]
    omega
  have hsplit : ((rhs > 0 ∧ lhs > Int64.maxValue - rhs) ∨ (rhs < 0 ∧ lhs < Int64.minValue - rhs)) ↔
      ¬ (-2 ^ 63 ≤ lhs.toInt + rhs.toInt ∧ lhs.toInt + rhs.toInt < 2 ^ 63) := by
    rw [and_congr_right hover, and_congr_right hunder, gt_iff_lt, Int64.lt_iff_toInt_lt, Int64.lt_iff_toInt_lt, hzero]
    omega
  unfold checkedAddI64
  by_cases hfits : -2 ^ 63 ≤ lhs.toInt + rhs.toInt ∧ lhs.toInt + rhs.toInt < 2 ^ 63
  · rw [if_neg fun hrefused => hsplit.mp hrefused hfits, if_pos hfits]
  · rw [if_pos (hsplit.mpr hfits), if_neg hfits]

/-- The difference of two times is one the checked subtraction gives. -/
def Subtracts (lhs rhs : Int64) : Prop :=
  rhs ≠ Int64.minValue ∧ -2 ^ 63 ≤ lhs.toInt - rhs.toInt ∧ lhs.toInt - rhs.toInt < 2 ^ 63

theorem toInt_neg_of_ne {value : Int64} (h : value ≠ Int64.minValue) : (-value).toInt = -value.toInt := by
  have hlower := value.le_toInt
  have hupper := value.toInt_lt
  have hne : value.toInt ≠ -2 ^ 63 := fun heq => h (Int64.toInt_inj.mp (heq.trans Int64.toInt_minValue.symm))
  rw [Int64.toInt_neg, Int.bmod_eq_of_le]
  · omega
  · omega

theorem checkedSubI64_some (h : Subtracts lhs rhs) :
    ∃ difference, checkedSubI64 lhs rhs = some difference ∧ difference.toInt = lhs.toInt - rhs.toInt := by
  have hneg := toInt_neg_of_ne h.1
  have hbounds : -2 ^ 63 ≤ lhs.toInt + (-rhs).toInt ∧ lhs.toInt + (-rhs).toInt < 2 ^ 63 := by
    rw [hneg]
    exact ⟨by linarith [h.2.1], by linarith [h.2.2]⟩
  refine ⟨lhs + -rhs, ?_, ?_⟩
  · rw [checkedSubI64, if_neg h.1, checkedAddI64_eq, if_pos hbounds]
  · rw [toInt_add_of_bounds hbounds.1 hbounds.2, hneg]
    ring

theorem checkedSubI64_none (h : ¬ Subtracts lhs rhs) : checkedSubI64 lhs rhs = none := by
  unfold checkedSubI64
  by_cases hmin : rhs = Int64.minValue
  · rw [if_pos hmin]
  · rw [if_neg hmin, checkedAddI64_eq, if_neg]
    rw [toInt_neg_of_ne hmin]
    rintro ⟨hlower, hupper⟩
    exact h ⟨hmin, by linarith, by linarith⟩

namespace CounterContinuity
variable {tracker : CounterContinuity} {reading : CounterObservation} {config : CounterContinuityConfig}

/-! ## The interval of a rate -/

def Yields (tracker : CounterContinuity) (reading : CounterObservation) (config : CounterContinuityConfig) : Prop :=
  Comparable tracker reading ∧ (tracker.lastValue ≤ reading.value ∨
    (classifyDecrease tracker.lastValue reading.value reading.width config).isSome = true)

def Covers (tracker : CounterContinuity) (reading : CounterObservation) (config : CounterContinuityConfig) : Prop :=
  (tracker.observe reading config).2.rateAdmissible = true →
    ∃ delta, (tracker.observe reading config).1.delta = some delta ∧
      delta.elapsedNanos.toInt = reading.observedNanos.toInt - tracker.lastObservedNanos.toInt ∧
      0 < delta.elapsedNanos.toInt ∧ delta.elapsedNanos ≤ config.maxGapNanos

/-- Where every interval is allowed, the difference of the times fits or is the number that stands for those that do
not. -/
def Measurable (tracker : CounterContinuity) (reading : CounterObservation) (config : CounterContinuityConfig) : Prop :=
  Yields tracker reading config → config.maxGapNanos = Int64.maxValue →
    Subtracts reading.observedNanos tracker.lastObservedNanos ∨
      reading.observedNanos.toInt - tracker.lastObservedNanos.toInt = 2 ^ 63 - 1

theorem delta_of_yields (h : Yields tracker reading config) :
    ∃ delta, (tracker.observe reading config).1.delta = some delta ∧
      delta.elapsedNanos = tracker.elapsedSince reading ∧
      delta.spansGap = (tracker.elapsedSince reading > config.maxGapNanos || tracker.elapsedSince reading ≤ 0) := by
  obtain ⟨hcomparable, hproven⟩ := h
  rw [(observe_compared (reception_compared.mpr hcomparable) config).1]
  unfold comparison
  dsimp only
  by_cases hvalue : tracker.lastValue ≤ reading.value
  · rw [if_pos hvalue]
    exact ⟨_, rfl, rfl, rfl⟩
  · rw [if_neg hvalue]
    obtain ⟨delta, hdelta⟩ := Option.isSome_iff_exists.mp (hproven.resolve_left hvalue)
    rw [hdelta]
    exact ⟨_, rfl, rfl, rfl⟩

theorem delta_none_of_not_yields (h : ¬ Yields tracker reading config) :
    (tracker.observe reading config).1.delta = none := by
  cases hdelta : (tracker.observe reading config).1.delta with
  | none => rfl
  | some delta =>
    obtain ⟨hcomparable, hsome⟩ := comparable_of_delta hdelta
    refine absurd ⟨hcomparable, ?_⟩ h
    rcases comparison_delta hsome with ⟨-, hle, -⟩ | ⟨-, -, hdecrease⟩
    · exact .inl hle
    · exact .inr (by rw [hdecrease]; rfl)

/-- The interval, where it is positive, is the difference of the times, or the number that stands for it. -/
theorem elapsedSince_spec (tracker : CounterContinuity) (reading : CounterObservation) :
    (Subtracts reading.observedNanos tracker.lastObservedNanos → 0 < (tracker.elapsedSince reading).toInt →
        (tracker.elapsedSince reading).toInt = reading.observedNanos.toInt - tracker.lastObservedNanos.toInt) ∧
      (¬ Subtracts reading.observedNanos tracker.lastObservedNanos →
        tracker.elapsedSince reading = Int64.maxValue) := by
  unfold elapsedSince
  constructor
  · intro hsubtracts hpositive
    obtain ⟨difference, hsome, hexact⟩ := checkedSubI64_some hsubtracts
    rw [hsome] at hpositive ⊢
    dsimp only [Option.getD_some] at hpositive ⊢
    split at hpositive
    · exact absurd hpositive (by decide)
    · next hsign =>
      rw [if_neg hsign]
      exact hexact
  · intro hsubtracts
    rw [checkedSubI64_none hsubtracts]
    rfl

theorem rateAdmissible_iff {delta : CounterDelta} (h : (tracker.observe reading config).1.delta = some delta) :
    (tracker.observe reading config).2.rateAdmissible = true ↔ delta.spansGap = false := by
  rw [observe_rateAdmissible, CounterStep.rateAdmissible, h]
  simp

theorem covers_iff (tracker : CounterContinuity) (reading : CounterObservation) (config : CounterContinuityConfig) :
    Covers tracker reading config ↔ Measurable tracker reading config := by
  by_cases hyields : Yields tracker reading config
  · obtain ⟨delta, hdelta, helapsed, hspans⟩ := delta_of_yields hyields
    have hmax : ∀ gap : Int64, Int64.maxValue ≤ gap ↔ gap = Int64.maxValue := by
      intro gap
      have hbound := gap.toInt_lt
      rw [Int64.le_iff_toInt_le, ← Int64.toInt_inj, Int64.toInt_maxValue]
      omega
    have hadmissible : (tracker.observe reading config).2.rateAdmissible = true ↔
        tracker.elapsedSince reading ≤ config.maxGapNanos ∧ 0 < tracker.elapsedSince reading := by
      rw [rateAdmissible_iff hdelta, hspans]
      simp
    obtain ⟨hexact, hlargest⟩ := elapsedSince_spec tracker reading
    have hzero : (0 : Int64).toInt = 0 := rfl
    constructor
    · intro hcovers _ hgap
      by_cases hsubtracts : Subtracts reading.observedNanos tracker.lastObservedNanos
      · exact .inl hsubtracts
      · obtain ⟨found, hfound, hdifference, -⟩ := hcovers (hadmissible.mpr (by
          rw [hlargest hsubtracts, hgap]
          exact ⟨Int64.le_refl _, by decide⟩))
        obtain rfl := Option.some.inj (hdelta.symm.trans hfound)
        rw [helapsed, hlargest hsubtracts, Int64.toInt_maxValue] at hdifference
        exact .inr hdifference.symm
    · intro hmeasurable hrate
      obtain ⟨hwithin, hpositive⟩ := hadmissible.mp hrate
      have hsign := Int64.lt_iff_toInt_lt.mp hpositive
      rw [hzero] at hsign
      refine ⟨delta, hdelta, ?_, by rw [helapsed]; exact hsign, by rw [helapsed]; exact hwithin⟩
      rw [helapsed]
      by_cases hsubtracts : Subtracts reading.observedNanos tracker.lastObservedNanos
      · exact hexact hsubtracts hsign
      · rw [hlargest hsubtracts] at hwithin ⊢
        rw [Int64.toInt_maxValue]
        exact ((hmeasurable hyields ((hmax _).mp hwithin)).resolve_left hsubtracts).symm
  · refine iff_of_true (fun hrate => ?_) (fun h => absurd h hyields)
    rw [observe_rateAdmissible, CounterStep.rateAdmissible, delta_none_of_not_yields hyields] at hrate
    cases hrate

/-- Along every run, the intervals of admissible rates are exact exactly where the differences are measurable. -/
theorem interval_exact_iff (entries : List (CounterObservation × CounterContinuityConfig)) :
    responseMachine.Meets (fun tracker entry => Covers tracker entry.1 entry.2) initial entries ↔
      responseMachine.Meets (fun tracker entry => Measurable tracker entry.1 entry.2) initial entries :=
  responseMachine.meets_iff (P := fun _ => True) (fun tracker entry _ => covers_iff tracker entry.1 entry.2)
    (fun _ _ _ _ => trivial) trivial

/-- Readings at the two ends of the clock, and a policy that allows every gap. -/
theorem interval_saturates :
    ((responseMachine.trace initial
        [({ sample 1 1 5 with observedNanos := Int64.minValue + 1 }, { inferring with maxGapNanos := Int64.maxValue }),
          ({ sample 1 2 9 with observedNanos := Int64.maxValue }, { inferring with maxGapNanos := Int64.maxValue })]).map
            fun answered => answered.2.delta.map fun delta => (delta.elapsedNanos, delta.spansGap)) =
      [none, some (Int64.maxValue, false)] ∧
      Int64.maxValue.toInt ≠ Int64.maxValue.toInt - (Int64.minValue + 1).toInt := by
  decide +kernel

/-! ## The thresholds of a wrap -/

end CounterContinuity

/-- A counter of a declared width counts modulo this number. -/
def CounterWidth.modulus : CounterWidth → ℕ
  | .bits32 => 2 ^ 32
  | .bits64 => 2 ^ 64
  | .unspecified => 0

/-- The number whose fractions the thresholds are. -/
def CounterWidth.effectiveModulus : CounterWidth → ℕ
  | .bits32 => 2 ^ 32
  | _ => 2 ^ 64 - 1

theorem CounterWidth.effectiveModulus_le {width : CounterWidth} (h : width ≠ .unspecified) :
    width.effectiveModulus ≤ width.modulus := by
  cases width with
  | unspecified => exact absurd rfl h
  | bits32 => exact Nat.le_refl _
  | bits64 => exact Nat.sub_le _ _

theorem clamped_product_toNat (modulus : UInt64) {units : ℤ} {scale : ℕ} (hscale : 0 < scale)
    (hlower : 0 ≤ (units : ℚ) / scale) (hupper : (units : ℚ) / scale ≤ 1) : (if (modulus.toNat : ℤ) * units ≤ 0 then 0
      else if (2 ^ 64 - 1) * (scale : ℤ) ≤ (modulus.toNat : ℤ) * units then 0xFFFFFFFFFFFFFFFF
      else UInt64.ofNat ((modulus.toNat : ℤ) * units / scale).toNat : UInt64).toNat =
        ⌊(modulus.toNat : ℚ) * ((units : ℚ) / scale)⌋₊ := by
  have hpositive : (0 : ℚ) < scale := Nat.cast_pos.mpr hscale
  rw [le_div_iff₀ hpositive, zero_mul] at hlower
  rw [div_le_one hpositive] at hupper
  obtain ⟨count, rfl⟩ := Int.eq_ofNat_of_zero_le (Int.cast_nonneg_iff.mp hlower)
  have hle : count ≤ scale := by exact_mod_cast hupper
  have hmodulus := modulus.toNat_lt
  have hproduct : modulus.toNat * count ≤ (2 ^ 64 - 1) * scale := Nat.mul_le_mul (by omega) hle
  have hfloor : ⌊(modulus.toNat : ℚ) * (((count : ℤ) : ℚ) / scale)⌋₊ = modulus.toNat * count / scale := by
    rw [← Nat.floor_div_eq_div (K := ℚ), Nat.cast_mul, mul_div_assoc, Int.cast_natCast]
  rw [hfloor]
  split
  · next hzero =>
    have hnone : modulus.toNat * count = 0 := by exact_mod_cast Int.le_antisymm hzero (by positivity)
    rw [hnone, Nat.zero_div]
    rfl
  · split
    · next hmax =>
      have hsame : modulus.toNat * count = (2 ^ 64 - 1) * scale := by
        refine Nat.le_antisymm hproduct ?_
        zify
        exact hmax
      rw [hsame, Nat.mul_div_cancel _ hscale]
      rfl
    · have hbound : modulus.toNat * count / scale < 2 ^ 64 := by
        have hquotient := Nat.div_le_of_le_mul (Nat.mul_comm _ scale ▸ hproduct)
        omega
      have hquotient : ((modulus.toNat : ℤ) * count / scale).toNat = modulus.toNat * count / scale := by
        norm_cast
      rw [hquotient, UInt64.toNat_ofNat_of_lt' hbound]

theorem boundary_toNat {modulus : UInt64} {fraction : Double} (hlower : 0 ≤ fraction.value)
    (hupper : fraction.value ≤ 1) : (boundary modulus fraction).toNat = ⌊(modulus.toNat : ℚ) * fraction.value⌋₊ := by
  obtain ⟨scale, hscale⟩ : ∃ scale : ℕ, scale = 2 ^ 1074 := ⟨_, rfl⟩
  have hpositive : 0 < scale := by
    rw [hscale]
    positivity
  have hrational : (2 ^ 1074 : ℚ) = scale := by rw [hscale, Nat.cast_pow, Nat.cast_ofNat]
  have hinteger : (2 ^ 1074 : ℤ) = scale := by rw [hscale, Nat.cast_pow, Nat.cast_ofNat]
  have hvalue : fraction.value = (fraction.units : ℚ) / scale := by rw [Double.value, hrational]
  rw [hvalue] at hlower hupper ⊢
  rw [boundary, hinteger]
  exact clamped_product_toNat modulus hpositive hlower hupper

namespace CounterContinuity
variable {tracker : CounterContinuity} {reading : CounterObservation} {config : CounterContinuityConfig}

/-- The documented test: the readings lie beyond these fractions of the modulus. -/
def PastThresholds (previous current : UInt64) (width : CounterWidth) (config : CounterContinuityConfig) : Prop :=
  config.wrapInference = true ∧ config.wrapCeilingFraction.value * width.modulus ≤ (previous.toNat : ℚ) ∧
    (current.toNat : ℚ) ≤ config.wrapFloorFraction.value * width.modulus

/-- No reading lies between a threshold and the number the test holds it against. -/
structure ClearOfThresholds (previous current : UInt64) (width : CounterWidth) (config : CounterContinuityConfig) :
    Prop where
  ceiling : (current.toNat : ℚ) ≤ config.wrapFloorFraction.value * width.effectiveModulus →
    ⌊config.wrapCeilingFraction.value * width.effectiveModulus⌋₊ ≤ previous.toNat →
      config.wrapCeilingFraction.value * width.modulus ≤ (previous.toNat : ℚ)
  floor : config.wrapCeilingFraction.value * width.modulus ≤ (previous.toNat : ℚ) →
    (current.toNat : ℚ) ≤ config.wrapFloorFraction.value * width.modulus →
      (current.toNat : ℚ) ≤ config.wrapFloorFraction.value * width.effectiveModulus

theorem classifyDecrease_isSome {previous current : UInt64} {width : CounterWidth} (hwidth : width ≠ .unspecified)
    (hceiling : 0 ≤ config.wrapCeilingFraction.value ∧ config.wrapCeilingFraction.value ≤ 1)
    (hfloor : 0 ≤ config.wrapFloorFraction.value ∧ config.wrapFloorFraction.value ≤ 1) :
    (classifyDecrease previous current width config).isSome = true ↔ config.wrapInference = true ∧
      ⌊config.wrapCeilingFraction.value * width.effectiveModulus⌋₊ ≤ previous.toNat ∧
      (current.toNat : ℚ) ≤ config.wrapFloorFraction.value * width.effectiveModulus := by
  have hmodulus : (if width = .bits64 then 0xFFFFFFFFFFFFFFFF else 0x100000000 : UInt64).toNat =
      width.effectiveModulus := by
    cases width with
    | unspecified => exact absurd rfl hwidth
    | bits32 => rfl
    | bits64 => rfl
  unfold classifyDecrease
  dsimp only
  generalize (if width = .bits64 then 0xFFFFFFFFFFFFFFFF else 0x100000000 : UInt64) = modulus at hmodulus ⊢
  have hproduct : 0 ≤ config.wrapFloorFraction.value * width.effectiveModulus :=
    mul_nonneg hfloor.1 (Nat.cast_nonneg _)
  rw [← Nat.le_floor_iff hproduct, mul_comm _ (width.effectiveModulus : ℚ), mul_comm _ (width.effectiveModulus : ℚ),
    ← hmodulus, ← boundary_toNat hceiling.1 hceiling.2, ← boundary_toNat hfloor.1 hfloor.2, ← UInt64.le_iff_toNat_le,
    ← UInt64.le_iff_toNat_le]
  by_cases hinference : config.wrapInference = true
  · rw [if_neg (by simp [hinference, hwidth])]
    split
    · next hoff =>
      rw [← UInt64.not_le, ← UInt64.not_le] at hoff
      simp only [Option.isSome_none, Bool.false_eq_true, false_iff]
      tauto
    · next hon =>
      rw [not_or, UInt64.not_lt, UInt64.not_lt] at hon
      simp only [Option.isSome_some, true_iff]
      exact ⟨hinference, hon⟩
  · rw [if_pos (.inl (Bool.not_eq_true _ ▸ hinference))]
    simp [hinference]

theorem event_of_decrease (hcomparable : Comparable tracker reading) (hvalue : reading.value < tracker.lastValue) :
    (tracker.observe reading config).1.event =
      if (classifyDecrease tracker.lastValue reading.value reading.width config).isSome then .wrap
      else .decreaseUnproven := by
  rw [(observe_compared (reception_compared.mpr hcomparable) config).1]
  unfold comparison
  dsimp only
  rw [if_neg (UInt64.not_le.mpr hvalue)]
  cases classifyDecrease tracker.lastValue reading.value reading.width config with
  | none => rfl
  | some _ => rfl

/-- A decrease is answered by the documented test exactly where no reading lies between a threshold and the number
that stands for it. -/
theorem wrap_thresholds_iff (hcomparable : Comparable tracker reading) (hwidth : reading.width ≠ .unspecified)
    (hvalue : reading.value < tracker.lastValue) (hfloor : 0 ≤ config.wrapFloorFraction.value)
    (horder : config.wrapFloorFraction.value < config.wrapCeilingFraction.value)
    (hceiling : config.wrapCeilingFraction.value ≤ 1) :
    (((tracker.observe reading config).1.event = .wrap ↔
          PastThresholds tracker.lastValue reading.value reading.width config) ∧
        ((tracker.observe reading config).1.event = .decreaseUnproven ↔
          ¬ PastThresholds tracker.lastValue reading.value reading.width config)) ↔
      (config.wrapInference = true → ClearOfThresholds tracker.lastValue reading.value reading.width config) := by
  have hevent := @event_of_decrease tracker reading config hcomparable hvalue
  have htest := @classifyDecrease_isSome config tracker.lastValue reading.value reading.width hwidth
    ⟨hfloor.trans horder.le, hceiling⟩ ⟨hfloor, horder.le.trans hceiling⟩
  have hmodulus : (reading.width.effectiveModulus : ℚ) ≤ reading.width.modulus :=
    Nat.cast_le.mpr (CounterWidth.effectiveModulus_le hwidth)
  have hceilings : config.wrapCeilingFraction.value * reading.width.modulus ≤ (tracker.lastValue.toNat : ℚ) →
      ⌊config.wrapCeilingFraction.value * reading.width.effectiveModulus⌋₊ ≤ tracker.lastValue.toNat := fun h =>
    Nat.floor_le_of_le ((mul_le_mul_of_nonneg_left hmodulus (hfloor.trans horder.le)).trans h)
  have hfloors : (reading.value.toNat : ℚ) ≤ config.wrapFloorFraction.value * reading.width.effectiveModulus →
      (reading.value.toNat : ℚ) ≤ config.wrapFloorFraction.value * reading.width.modulus := fun h =>
    h.trans (mul_le_mul_of_nonneg_left hmodulus hfloor)
  have hwrap : (tracker.observe reading config).1.event = .wrap ↔
      (classifyDecrease tracker.lastValue reading.value reading.width config).isSome = true := by
    rw [hevent]
    split <;> simp_all
  have hunproven : (tracker.observe reading config).1.event = .decreaseUnproven ↔
      ¬ (classifyDecrease tracker.lastValue reading.value reading.width config).isSome = true := by
    rw [hevent]
    split <;> simp_all
  rw [hwrap, hunproven, htest, not_iff_not, and_self, PastThresholds]
  constructor
  · intro hsame hinference
    exact ⟨fun hcurrent hprevious => (hsame.mp ⟨hinference, hprevious, hcurrent⟩).2.1,
      fun hprevious hcurrent => (hsame.mpr ⟨hinference, hprevious, hcurrent⟩).2.2⟩
  · intro hclear
    constructor
    · rintro ⟨hinference, hprevious, hcurrent⟩
      exact ⟨hinference, (hclear hinference).ceiling hcurrent hprevious, hfloors hcurrent⟩
    · rintro ⟨hinference, hprevious, hcurrent⟩
      exact ⟨hinference, hceilings hprevious, (hclear hinference).floor hprevious hcurrent⟩

theorem value_of_units {d : Double} {quarters : ℤ} (h : d.units = quarters * 2 ^ 1072) : d.value = quarters / 4 := by
  have hne : (2 : ℚ) ^ 1072 ≠ 0 := by positivity
  rw [Double.value, h, Int.cast_mul, Int.cast_pow, Int.cast_ofNat, show 1074 = 1072 + 2 from rfl, pow_add]
  generalize (2 : ℚ) ^ 1072 = scale at hne ⊢
  field_simp
  norm_num

theorem value_ceiling_inferring : inferring.wrapCeilingFraction.value = 3 / 4 :=
  value_of_units (show Double.threeQuarters.units = 3 * 2 ^ 1072 by decide +kernel)

theorem value_floor_inferring : inferring.wrapFloorFraction.value = 1 / 4 := by
  rw [value_of_units (show inferring.wrapFloorFraction.units = 1 * 2 ^ 1072 by decide +kernel), Int.cast_one]

theorem plain_wrap_thresholds :
    (((initial.observe (sample 1 1 4000000000) inferring).2.observe (sample 1 2 5) inferring).1.event = .wrap ↔
        PastThresholds 4000000000 5 .bits32 inferring) ∧
      (((initial.observe (sample 1 1 4000000000) inferring).2.observe (sample 1 2 5) inferring).1.event =
          .decreaseUnproven ↔ ¬ PastThresholds 4000000000 5 .bits32 inferring) := by
  have hfloor : 0 ≤ inferring.wrapFloorFraction.value := by
    rw [value_floor_inferring]
    norm_num
  have horder : inferring.wrapFloorFraction.value < inferring.wrapCeilingFraction.value := by
    rw [value_floor_inferring, value_ceiling_inferring]
    norm_num
  have hceiling : inferring.wrapCeilingFraction.value ≤ 1 := by
    rw [value_ceiling_inferring]
    norm_num
  have hclear : ClearOfThresholds 4000000000 5 .bits32 inferring := by
    refine ⟨fun _ _ => ?_, fun _ hcurrent => hcurrent⟩
    rw [value_ceiling_inferring, show (UInt64.toNat 4000000000) = 4000000000 from rfl]
    norm_num [CounterWidth.modulus]
  have hcomparable : Comparable (initial.observe (sample 1 1 4000000000) inferring).2 (sample 1 2 5) :=
    ⟨fun _ => by decide +kernel, by decide, by decide, by decide, by decide, by decide⟩
  exact (wrap_thresholds_iff hcomparable (by decide) (by decide) hfloor horder hceiling).mpr fun _ => hclear

/-- One below three quarters of the modulus is taken for a wrap. -/
theorem wrap_below_threshold :
    (responseMachine.trace initial
        [({ sample 1 1 0xBFFFFFFFFFFFFFFF with width := .bits64 }, inferring),
          ({ sample 1 2 0 with width := .bits64 }, inferring)]).map (fun answered => answered.2.event) =
        [.baseline, .wrap] ∧
      ¬ PastThresholds 0xBFFFFFFFFFFFFFFF 0 .bits64 inferring := by
  refine ⟨by decide +kernel, fun hpast => ?_⟩
  have hceiling := hpast.2.1
  rw [value_ceiling_inferring, show (UInt64.toNat 0xBFFFFFFFFFFFFFFF) = 0xBFFFFFFFFFFFFFFF from rfl] at hceiling
  norm_num [CounterWidth.modulus] at hceiling

end CounterContinuity

end Lqf
