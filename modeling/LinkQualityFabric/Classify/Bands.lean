import LinkQualityFabric.Classify.Classifier
import LinkQualityFabric.Core.DoubleOrder
import LinkQualityFabric.Foundations.Tiling

/-! The bands of a rule.

A validated list of bands starts at negative infinity, goes on without a gap and has no end, so its bands tile the
extended reals: a value that is a number is in exactly one of them. -/
namespace Lqf
open Foundations
set_option autoImplicit false

namespace Double

theorem negativeInfinity_le {d : Double} (h : d.isNan = false) : negativeInfinity.rank ≤ d.rank := by
  have hinfinity : negativeInfinity.rank = -0x7FF0000000000000 := rfl
  rw [← Bool.not_eq_true] at h
  simp only [isNan, Bool.and_eq_true, decide_eq_true_eq, not_and, not_not] at h
  unfold exponent fraction at h
  rw [hinfinity, rank]
  split <;> omega

theorem lt_iff_rank {a b : Double} (ha : a.isNan = false) (hb : b.isNan = false) :
    a.lt b = true ↔ a.rank < b.rank := by
  simp [lt, ha, hb]

end Double

/-! ## What validation leaves of a list of bands -/

def ThresholdBand.Bounded (band : ThresholdBand) : Prop :=
  band.lower.isNan = false ∧ ∀ upper ∈ band.upper, upper.isNan = false

/-- A band, as a piece of the order of the numbers. -/
abbrev BandSpans : ThresholdBand → ℤ → Prop :=
  Spans (fun band => band.lower.rank) (fun band => band.upper.map Double.rank)

abbrev BandsTile : ℤ → List ThresholdBand → Prop :=
  Tiles (fun band => band.lower.rank) (fun band => band.upper.map Double.rank)

theorem contains_iff {band : ThresholdBand} (hbounded : band.Bounded) {value : Double} (hvalue : value.isNan = false) :
    band.contains value = true ↔ BandSpans band value.rank := by
  have hlower : (!value.lt band.lower) = true ↔ band.lower.rank ≤ value.rank := by
    rw [Bool.not_eq_true', ← Bool.not_eq_true, Double.lt_iff_rank hvalue hbounded.1, not_lt]
  unfold ThresholdBand.contains
  rw [hvalue, Bool.not_false, Bool.true_and, Bool.and_eq_true, hlower]
  refine and_congr_right fun _ => ?_
  cases hupper : band.upper with
  | none => simp [hupper]
  | some upper =>
    have hnumber := hbounded.2 upper (by rw [hupper]; rfl)
    simp [hupper, Double.lt_iff_rank hvalue hnumber]

section Validated
variable {rule : MetricRule}

variable {ids : List Text} {band : ThresholdBand} {previous : Option ThresholdBand} {maxBands : ℕ}
  {catalog : MetricCatalog}

theorem bounded_of_validateBand (h : validateBand rule ids band = .ok ()) : band.Bounded := by
  simp only [validateBand, Outcome.check_bind_eq_ok, Outcome.refuseIf_eq_ok] at h
  obtain ⟨-, -, hlower, hupper, -⟩ := h
  exact ⟨Bool.not_eq_true _ ▸ hlower, fun upper hmem => Bool.not_eq_true _ ▸ fun hnan => hupper ⟨upper, hmem, hnan⟩⟩

theorem lt_of_validateBand (h : validateBand rule ids band = .ok ()) {upper : Double} (hupper : upper ∈ band.upper) :
    band.lower.rank < upper.rank := by
  have hbounded := bounded_of_validateBand h
  simp only [validateBand, Outcome.check_bind_eq_ok, Outcome.refuseIf_eq_ok] at h
  obtain ⟨-, -, -, -, hover⟩ := h
  rw [← Double.lt_iff_rank hbounded.1 (hbounded.2 upper hupper)]
  by_contra hlt
  exact hover ⟨upper, hupper, Bool.not_eq_true _ ▸ hlt⟩

theorem bounded_of_validateBandsFrom {bands : List ThresholdBand}
    (h : validateBandsFrom rule ids previous bands = .ok ()) : ∀ band ∈ bands, band.Bounded := by
  induction bands generalizing ids previous with
  | nil => simp
  | cons band rest ih =>
    simp only [validateBandsFrom, Outcome.check_bind_eq_ok] at h
    intro other hother
    rcases List.mem_cons.mp hother with rfl | hrest
    · exact bounded_of_validateBand h.1
    · exact ih h.2.2 other hrest

theorem tile_of_validateBandsFrom {rest : List ThresholdBand}
    (h : validateBandsFrom rule ids previous (band :: rest) = .ok ())
    (hlast : ∀ last ∈ (band :: rest).getLast?, last.upper = none) : BandsTile band.lower.rank (band :: rest) := by
  induction rest generalizing band ids previous with
  | nil =>
    have hopen := hlast band (by rfl)
    exact .last (by rw [hopen]; rfl)
  | cons next rest ih =>
    have hnext := h
    simp only [validateBandsFrom, Outcome.check_bind_eq_ok] at h
    obtain ⟨hband, -, -, hstart, -⟩ := h
    rw [validateBandsFrom, Outcome.check_bind_eq_ok, Outcome.check_bind_eq_ok] at hnext
    have htile := ih hnext.2.2 (by rwa [List.getLast?_cons_cons] at hlast)
    unfold validateBandStart at hstart
    dsimp only at hstart
    cases hupper : band.upper with
    | none =>
      rw [hupper] at hstart
      cases hstart
    | some upper =>
      rw [hupper] at hstart
      have hsame := Outcome.refuseIf_eq_ok.mp hstart
      have hrank : upper.rank = next.lower.rank := by
        simp only [Double.eq, Bool.not_eq_false, Bool.and_eq_true, decide_eq_true_eq] at hsame
        exact hsame.2
      refine .next (by rw [hupper]; rfl) (lt_of_validateBand hband (by rw [hupper]; rfl)) ?_
      rw [hrank]
      exact htile

theorem tile_of_validateBands (h : validateBands rule maxBands = .ok ()) :
    (∀ band ∈ rule.bands, band.Bounded) ∧ BandsTile Double.negativeInfinity.rank rule.bands := by
  simp only [validateBands, Outcome.check_bind_eq_ok, Outcome.refuseIf_eq_ok] at h
  obtain ⟨hne, -, hbands, hlast⟩ := h
  refine ⟨bounded_of_validateBandsFrom hbands, ?_⟩
  have hopen : ∀ last ∈ rule.bands.getLast?, last.upper = none := by
    intro last hmem
    rw [← Option.not_isSome_iff_eq_none]
    exact fun hsome => hlast ⟨last, hmem, hsome⟩
  cases hlist : rule.bands with
  | nil => exact absurd hlist hne
  | cons first rest =>
    rw [hlist] at hbands hopen
    have htile := tile_of_validateBandsFrom hbands hopen
    rw [validateBandsFrom, Outcome.check_bind_eq_ok, Outcome.check_bind_eq_ok] at hbands
    have hstart := Outcome.refuseIf_eq_ok.mp hbands.2.1
    simp only [Double.eq, Bool.not_eq_false, Bool.and_eq_true, decide_eq_true_eq] at hstart
    rwa [hstart.2] at htile

theorem validateBands_of_rules {rules : List MetricRule} (h : validateRules catalog maxBands [] rules = .ok ())
    (hrule : rule ∈ rules) : validateBands rule maxBands = .ok () := by
  obtain ⟨seen, hchecked⟩ := validateRules_each h rule hrule
  simp only [validateRule, Outcome.check_bind_eq_ok] at hchecked
  exact hchecked.2.2.2.2.2.2.2.2

theorem validateRules_of_policy {document : PolicyDocument} {maxRules : ℕ}
    (h : validatePolicy document catalog maxRules maxBands = .ok ()) :
    validateRules catalog maxBands [] document.rules = .ok () := by
  simp only [validatePolicy, Outcome.check_bind_eq_ok] at h
  exact h.2.2.1

end Validated

/-- **The bands of a validated rule partition the extended reals**: a number is in exactly one band, classification
finds that band, and a larger number is in no earlier one. -/
theorem bands_partition {document : PolicyDocument} {catalog : MetricCatalog} {maxRules maxBands : ℕ}
    (h : validatePolicy document catalog maxRules maxBands = .ok ()) {rule : MetricRule} (hrule : rule ∈ document.rules) :
    (∀ value : Double, value.isNan = false →
        (∃! index : Fin rule.bands.length, (rule.bands.get index).contains value = true) ∧
          ∀ index : Fin rule.bands.length, (rule.bands.get index).contains value = true →
            rule.classify value = some (rule.bands.get index)) ∧
      ∀ a b : Double, a.le b = true → ∀ i j : Fin rule.bands.length, (rule.bands.get i).contains a = true →
        (rule.bands.get j).contains b = true → i ≤ j := by
  obtain ⟨hbounded, htile⟩ := tile_of_validateBands (validateBands_of_rules (validateRules_of_policy h) hrule)
  have hspans : ∀ (value : Double), value.isNan = false → ∀ index : Fin rule.bands.length,
      (rule.bands.get index).contains value = true ↔ BandSpans (rule.bands.get index) value.rank :=
    fun value hvalue index => contains_iff (hbounded _ (List.get_mem _ _)) hvalue
  refine ⟨fun value hvalue => ⟨?_, fun index hindex => ?_⟩, fun a b hab i j hi hj => ?_⟩
  · simp only [hspans value hvalue]
    exact htile.existsUnique_index (Double.negativeInfinity_le hvalue)
  · rw [MetricRule.classify, hvalue, if_neg (by decide)]
    cases hfound : rule.bands.find? (·.contains value) with
    | none => exact absurd hindex (List.find?_eq_none.mp hfound _ (List.get_mem _ _))
    | some band =>
      obtain ⟨other, rfl⟩ := List.get_of_mem (List.mem_of_find?_eq_some hfound)
      have hother := List.find?_some hfound
      rw [hspans value hvalue] at hindex hother
      rw [(htile.existsUnique_index (Double.negativeInfinity_le hvalue)).unique hindex hother]
  · simp only [Double.le, Bool.and_eq_true, Bool.not_eq_true', decide_eq_true_eq] at hab
    rw [hspans a hab.1.1] at hi
    rw [hspans b hab.1.2] at hj
    exact htile.index_le hab.2 hi hj

/-- A rule of the default document at positive infinity. -/
theorem default_bands_partition : ∃ rule ∈ defaultPolicyDocument.rules,
    (∃! index : Fin rule.bands.length, (rule.bands.get index).contains .positiveInfinity = true) ∧
      ∀ index : Fin rule.bands.length, (rule.bands.get index).contains .positiveInfinity = true →
        rule.classify .positiveInfinity = some (rule.bands.get index) := by
  have hvalid : validatePolicy defaultPolicyDocument (.withBuiltinDescriptors 256) 512 64 = .ok () := by decide +kernel
  exact ⟨_, List.mem_cons_self, (bands_partition hvalid List.mem_cons_self).1 .positiveInfinity (by decide)⟩

end Lqf
