import Mathlib.Algebra.Order.Field.Rat
import Mathlib.Order.Monotone.Basic
import Mathlib.Tactic.Positivity
import LinkQualityFabric.Core.DoubleArithmetic

/-! The order of binary64 values.

Read without its sign, a pattern counts up through the values: the magnitude of the next pattern is the next larger one,
within an exponent and from the last of one exponent to the first of the next. So comparing patterns is comparing the
rational numbers they stand for. A difference is rounded to one of the two patterns around it, which leaves it on its
side of every bound that it is not rounded onto. -/
namespace Lqf.Double
set_option autoImplicit false

/-- The number a finite binary64 stands for. -/
def value (d : Double) : ℚ := d.units / 2 ^ 1074

def magnitude (pattern : ℕ) : ℕ :=
  if pattern / 2 ^ 52 = 0 then pattern % 2 ^ 52 else (2 ^ 52 + pattern % 2 ^ 52) * 2 ^ (pattern / 2 ^ 52 - 1)

theorem magnitude_lt_succ (pattern : ℕ) : magnitude pattern < magnitude (pattern + 1) := by
  have hnext : (pattern + 1) / 2 ^ 52 = pattern / 2 ^ 52 ∧ (pattern + 1) % 2 ^ 52 = pattern % 2 ^ 52 + 1 ∨
      (pattern + 1) / 2 ^ 52 = pattern / 2 ^ 52 + 1 ∧ (pattern + 1) % 2 ^ 52 = 0 ∧ pattern % 2 ^ 52 = 2 ^ 52 - 1 := by
    omega
  unfold magnitude
  generalize (pattern + 1) / 2 ^ 52 = next at hnext ⊢
  generalize (pattern + 1) % 2 ^ 52 = fraction' at hnext ⊢
  generalize pattern / 2 ^ 52 = exponent at hnext ⊢
  generalize pattern % 2 ^ 52 = fraction at hnext ⊢
  have hpositive : 0 < 2 ^ (exponent - 1) := Nat.two_pow_pos _
  rcases hnext with ⟨rfl, rfl⟩ | ⟨rfl, rfl, rfl⟩
  · split
    · exact Nat.lt_succ_self _
    · exact Nat.mul_lt_mul_of_pos_right (by omega) hpositive
  · rw [if_neg (Nat.succ_ne_zero exponent), Nat.add_sub_cancel]
    split
    · next hzero =>
      rw [hzero]
      decide
    · next hexponent =>
      obtain ⟨exponent, rfl⟩ := Nat.exists_eq_succ_of_ne_zero hexponent
      rw [Nat.succ_eq_add_one, Nat.add_sub_cancel, pow_succ] at *
      omega

theorem magnitude_strictMono : StrictMono magnitude := strictMono_nat_of_lt_succ magnitude_lt_succ

theorem units_eq (d : Double) : d.units =
    if d.sign then -(magnitude (d.bits.toNat % 2 ^ 63) : ℤ) else (magnitude (d.bits.toNat % 2 ^ 63) : ℤ) := by
  have hexponent : d.bits.toNat % 2 ^ 63 / 2 ^ 52 = d.exponent := by
    unfold exponent
    omega
  have hfraction : d.bits.toNat % 2 ^ 63 % 2 ^ 52 = d.fraction := by
    unfold fraction
    omega
  unfold units magnitude
  rw [hexponent, hfraction]

theorem units_lt_iff (a b : Double) : a.units < b.units ↔ a.rank < b.rank := by
  have hzero : magnitude 0 = 0 := rfl
  have hmono : ∀ m n : ℕ, magnitude m < magnitude n ↔ m < n := fun m n => magnitude_strictMono.lt_iff_lt
  have hlt := hmono (a.bits.toNat % 2 ^ 63) (b.bits.toNat % 2 ^ 63)
  have hgt := hmono (b.bits.toNat % 2 ^ 63) (a.bits.toNat % 2 ^ 63)
  have ha := hmono 0 (a.bits.toNat % 2 ^ 63)
  have hb := hmono 0 (b.bits.toNat % 2 ^ 63)
  rw [units_eq, units_eq, rank, rank]
  split <;> split <;> omega

theorem isNan_of_isFinite {d : Double} (h : d.isFinite = true) : d.isNan = false := by
  simp only [isFinite, decide_eq_true_eq] at h
  simp [isNan, h]

section Finite
variable {a b : Double} (ha : a.isFinite = true) (hb : b.isFinite = true)
include ha hb

theorem lt_iff_units : a.lt b = true ↔ a.units < b.units := by
  simp [lt, isNan_of_isFinite ha, isNan_of_isFinite hb, units_lt_iff]

theorem le_iff_units : a.le b = true ↔ a.units ≤ b.units := by
  rw [← not_lt, units_lt_iff, not_lt]
  simp [le, isNan_of_isFinite ha, isNan_of_isFinite hb]

theorem maximum_eq : a.maximum b = if a.units < b.units then b else a := by
  simp only [maximum, lt_iff_units ha hb]

theorem minimum_eq : a.minimum b = if -a.units < -b.units then b else a := by
  simp only [minimum, lt_iff_units hb ha, neg_lt_neg_iff]

end Finite

theorem exists_scale : ∃ scale : ℚ, 0 < scale ∧ ∀ d : Double, d.value = d.units / scale :=
  ⟨2 ^ 1074, by positivity, fun _ => rfl⟩

theorem value_inj {a b : Double} : a.value = b.value ↔ a.units = b.units := by
  obtain ⟨scale, hscale, hvalue⟩ := exists_scale
  rw [hvalue, hvalue, div_left_inj' hscale.ne', Int.cast_inj]

theorem value_lt_abs_iff (bound a b : Double) :
    bound.value < |a.value - b.value| ↔ bound.units < |a.units - b.units| := by
  obtain ⟨scale, hscale, hvalue⟩ := exists_scale
  rw [hvalue, hvalue, hvalue, ← sub_div, abs_div, abs_of_pos hscale, div_lt_div_iff_of_pos_right hscale,
    ← Int.cast_sub, ← Int.cast_abs, Int.cast_lt]

theorem abs_value_le_iff (a b c d : Double) :
    |a.value - b.value| ≤ |c.value - d.value| ↔ |a.units - b.units| ≤ |c.units - d.units| := by
  obtain ⟨scale, hscale, hvalue⟩ := exists_scale
  rw [hvalue, hvalue, hvalue, hvalue, ← sub_div, ← sub_div, abs_div, abs_div, abs_of_pos hscale,
    div_le_div_iff_of_pos_right hscale, ← Int.cast_sub, ← Int.cast_sub, ← Int.cast_abs, ← Int.cast_abs, Int.cast_le]

/-! ## Differences -/

theorem magnitude_shifted {shift significand : ℕ} (hbits : significand ≤ 2 ^ 53)
    (hfull : 0 < shift → 2 ^ 52 ≤ significand) : magnitude (shift * 2 ^ 52 + significand) = significand * 2 ^ shift := by
  have hparts : significand < 2 ^ 52 ∧ shift = 0 ∨ 2 ^ 52 ≤ significand ∧ significand < 2 ^ 53 ∨
      significand = 2 ^ 53 := by omega
  unfold magnitude
  rcases hparts with ⟨hsmall, rfl⟩ | ⟨hlow, hhigh⟩ | rfl
  · rw [if_pos (by omega)]
    omega
  · rw [show (shift * 2 ^ 52 + significand) / 2 ^ 52 = shift + 1 by omega,
      show (shift * 2 ^ 52 + significand) % 2 ^ 52 = significand - 2 ^ 52 by omega, if_neg (Nat.succ_ne_zero shift),
      Nat.add_sub_cancel, Nat.add_sub_of_le hlow]
  · rw [show (shift * 2 ^ 52 + 2 ^ 53) / 2 ^ 52 = shift + 2 by omega,
      show (shift * 2 ^ 52 + 2 ^ 53) % 2 ^ 52 = 0 by omega, if_neg (Nat.succ_ne_zero _), Nat.add_zero,
      show shift + 2 - 1 = shift + 1 by omega, pow_succ 2 shift]
    omega

/-- A whole number of units is rounded to one of the two patterns around it, and not at all if it has one. -/
theorem nearestBits_spec (units : ℕ) : ∃ below above : ℕ, nearestBits units 1 = min above 0x7FF0000000000000 ∧
      (above = below ∨ above = below + 1 ∧ magnitude below < units) ∧
      magnitude below ≤ units ∧ units < magnitude (below + 1) := by
  obtain ⟨shift, hshift⟩ : ∃ shift, shift = Nat.log2 units - 52 := ⟨_, rfl⟩
  have hpositive : 0 < 2 ^ shift := Nat.two_pow_pos shift
  have hbits : units / 2 ^ shift < 2 ^ 53 := by
    rw [Nat.div_lt_iff_lt_mul hpositive, ← pow_add]
    exact Nat.lt_log2_self.trans_le (Nat.pow_le_pow_right (by decide) (by omega))
  have hfull : 0 < shift → 2 ^ 52 ≤ units / 2 ^ shift := by
    intro hlarge
    rw [Nat.le_div_iff_mul_le hpositive, ← pow_add, show 52 + shift = Nat.log2 units by omega]
    refine Nat.log2_self_le fun hzero => ?_
    rw [hzero, Nat.log2_zero] at hshift
    omega
  have hsplit := Nat.div_add_mod units (2 ^ shift)
  have hrest := Nat.mod_lt units hpositive
  refine ⟨shift * 2 ^ 52 + units / 2 ^ shift, shift * 2 ^ 52 + roundHalfEven units (2 ^ shift), ?_, ?_, ?_, ?_⟩
  · rw [nearestBits, Nat.div_one, Nat.one_mul, ← hshift]
  · rw [magnitude_shifted hbits.le hfull, Nat.mul_comm (units / 2 ^ shift)]
    unfold roundHalfEven
    dsimp only
    split <;> omega
  · rw [magnitude_shifted hbits.le hfull]
    exact Nat.div_mul_le_self units _
  · rw [Nat.add_assoc, magnitude_shifted hbits fun hlarge => (hfull hlarge).trans (Nat.le_succ _), Nat.succ_mul,
      Nat.mul_comm (units / 2 ^ shift)]
    omega

theorem nearestBits_le {units pattern : ℕ} (h : units ≤ magnitude pattern) : nearestBits units 1 ≤ pattern := by
  obtain ⟨below, above, hbits, hround, hle, -⟩ := nearestBits_spec units
  rw [hbits, min_le_iff]
  rcases hround with rfl | ⟨rfl, hlt⟩
  · exact .inl (magnitude_strictMono.le_iff_le.mp (hle.trans h))
  · exact .inl (magnitude_strictMono.lt_iff_lt.mp (hlt.trans_le h))

theorem le_nearestBits {units pattern : ℕ} (h : magnitude pattern ≤ units) (hpattern : pattern ≤ 0x7FF0000000000000) :
    pattern ≤ nearestBits units 1 := by
  obtain ⟨below, above, hbits, hround, -, hlt⟩ := nearestBits_spec units
  have hbelow : pattern < below + 1 := magnitude_strictMono.lt_iff_lt.mp (h.trans_lt hlt)
  rw [hbits, le_min_iff]
  exact ⟨by omega, hpattern⟩

theorem isFinite_iff (d : Double) : d.isFinite = true ↔ d.bits.toNat % 2 ^ 63 < 0x7FF0000000000000 := by
  rw [isFinite, decide_eq_true_eq, exponent]
  omega

theorem units_of_nonneg {d : Double} (h : 0 ≤ d.units) : d.units = magnitude (d.bits.toNat % 2 ^ 63) := by
  rw [units_eq] at h ⊢
  split <;> simp_all

section Sub
variable {a b bound : Double} (ha : a.isFinite = true) (hb : b.isFinite = true) (horder : b.units ≤ a.units)
include ha hb horder

theorem sub_pattern : (a.sub b).bits.toNat % 2 ^ 63 = nearestBits (a.units - b.units).toNat 1 ∧ 0 ≤ (a.sub b).units := by
  have hfinite : ∀ d : Double, d.isFinite = true → d.isInf = false := by
    intro d hd
    simp only [isFinite, decide_eq_true_eq] at hd
    simp [isInf, hd]
  unfold sub
  simp only [isNan_of_isFinite ha, isNan_of_isFinite hb, hfinite a ha, hfinite b hb, Bool.false_eq_true, or_self,
    if_false]
  split
  · next hzero =>
    rw [hzero]
    cases a.sign && !b.sign <;> decide +kernel
  · rw [decide_eq_false (by omega), show (a.units - b.units).toNat = (a.units - b.units).natAbs by omega]
    generalize (a.units - b.units).natAbs = number
    have hbits : nearestBits number 1 ≤ 0x7FF0000000000000 := Nat.min_le_right _ _
    have hpattern : (ofUnits false number 1).bits.toNat = nearestBits number 1 := by
      rw [ofUnits, if_neg Bool.false_ne_true, Nat.zero_add, UInt64.toNat_ofNat_of_lt' (hbits.trans_lt (by decide))]
    rw [units_eq, sign, hpattern, decide_eq_false (by omega)]
    exact ⟨Nat.mod_eq_of_lt (by omega), Int.natCast_nonneg _⟩

/-- The rounded difference compares with a bound as the exact one does, unless it is rounded onto the bound. -/
theorem spread_le_iff (hbound : bound.isFinite = true) (hnonneg : 0 ≤ bound.units)
    (hkept : bound.units < a.units - b.units → (a.sub b).units ≠ bound.units) :
    (if (a.sub b).isFinite then a.sub b else positiveInfinity).le bound = true ↔ a.units - b.units ≤ bound.units := by
  obtain ⟨hpattern, hpositive⟩ := sub_pattern ha hb horder
  have hsub := units_of_nonneg hpositive
  have hunits := units_of_nonneg hnonneg
  have hroom := (isFinite_iff bound).mp hbound
  rw [hpattern] at hsub
  by_cases hwithin : a.units - b.units ≤ bound.units
  · have hbits := @nearestBits_le (a.units - b.units).toNat (bound.bits.toNat % 2 ^ 63) (by omega)
    have hfinite : (a.sub b).isFinite = true := by
      rw [isFinite_iff, hpattern]
      exact hbits.trans_lt hroom
    rw [if_pos hfinite, le_iff_units hfinite hbound, hsub, hunits, Int.ofNat_le]
    exact iff_of_true (magnitude_strictMono.monotone hbits) (hunits ▸ hwithin)
  · have hbits := @le_nearestBits (a.units - b.units).toNat (bound.bits.toNat % 2 ^ 63) (by omega) hroom.le
    have hover : bound.units < (a.sub b).units := by
      refine lt_of_le_of_ne ?_ (hkept (not_le.mp hwithin)).symm
      rw [hsub, hunits, Int.ofNat_le]
      exact magnitude_strictMono.monotone hbits
    refine iff_of_false (fun hle => ?_) hwithin
    split at hle
    · next hfinite => exact absurd ((le_iff_units hfinite hbound).mp hle) (not_le.mpr hover)
    · have hrank : positiveInfinity.rank ≤ bound.rank := by
        simp only [le, Bool.and_eq_true, decide_eq_true_eq] at hle
        exact hle.2
      have hbelow : bound.rank < 0x7FF0000000000000 := by
        unfold rank
        split <;> omega
      exact absurd hrank (not_le.mpr hbelow)

end Sub

end Lqf.Double
