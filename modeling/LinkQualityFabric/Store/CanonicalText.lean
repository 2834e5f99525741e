import LinkQualityFabric.Core.Decimal
import LinkQualityFabric.Store.EvidenceStore

/-! The text an evidence digest is taken of.

The text has seven parts with bars between them. No rendering of a number, a unit, a width or a class has a bar or a
blank in it, so the parts can be told from the text, and from the parts the fields they render. -/
namespace Lqf
open Foundations
set_option autoImplicit false

/-! ## Texts -/

theorem split_at_separator {α : Type} {separator : α} {front front' rest rest' : List α} (hfront : separator ∉ front)
    (hfront' : separator ∉ front') :
    front ++ separator :: rest = front' ++ separator :: rest' ↔ front = front' ∧ rest = rest' := by
  induction front generalizing front' with
  | nil =>
    cases front' with
    | nil => simp
    | cons first front' =>
      have hne : separator ≠ first := fun heq => hfront' (heq ▸ List.mem_cons_self)
      simp [hne]
  | cons first front ih =>
    have hfirst : separator ≠ first := fun heq => hfront (heq ▸ List.mem_cons_self)
    cases front' with
    | nil => simp [hfirst.symm]
    | cons first' front' =>
      simp only [List.mem_cons, not_or] at hfront hfront'
      rw [List.cons_append, List.cons_append, List.cons.injEq, List.cons.injEq, ih hfront.2 hfront'.2, and_assoc]

theorem text_injective : Function.Injective text := by
  intro a b h
  exact String.toByteArray_inj.mp (ByteArray.ext (Array.toList_inj.mp h))

theorem text_append (a b : String) : text (a ++ b) = text a ++ text b := by
  unfold text
  rw [String.toUTF8, String.toByteArray_append, ByteArray.data_append, Array.toList_append]
  rfl

/-- A text without a blank and without a bar. -/
def Compact (part : Text) : Prop := ∀ character ∈ part, character ≠ 32 ∧ character ≠ 124

instance (part : Text) : Decidable (Compact part) :=
  inferInstanceAs (Decidable (∀ character ∈ part, character ≠ 32 ∧ character ≠ 124))

variable {a digits : Text} {descriptor : Option MetricDescriptor} {checks : ObservationLimits} (d : Double)
  (observation : Observation)

theorem Compact.append {b : Text} (ha : Compact a) (hb : Compact b) : Compact (a ++ b) :=
  List.forall_mem_append.mpr ⟨ha, hb⟩

theorem Compact.take (h : Compact a) (count : ℕ) : Compact (a.take count) :=
  fun character hmem => h character (List.mem_of_mem_take hmem)

theorem Compact.drop (h : Compact a) (count : ℕ) : Compact (a.drop count) :=
  fun character hmem => h character (List.mem_of_mem_drop hmem)

theorem Compact.blank (h : Compact a) : 32 ∉ a := fun hmem => (h 32 hmem).1 rfl

theorem Compact.bar (h : Compact a) : 124 ∉ a := fun hmem => (h 124 hmem).2 rfl

/-! ## Numbers -/

theorem compact_formatNat (value : ℕ) : Compact (formatNat value) := by
  intro character hmem
  have hdecimal := isDecimal_formatNat hmem
  grind [isDecimal]

theorem compact_formatU64 (value : UInt64) : Compact (formatU64 value) := compact_formatNat _

theorem compact_formatI64 (value : Int64) : Compact (formatI64 value) := by
  unfold formatI64
  rw [Int.toString_eq_repr]
  unfold Int.repr
  split
  · exact compact_formatNat _
  · rw [text_append]
    exact Compact.append (by decide +kernel) (compact_formatNat _)

theorem compact_scientific (h : Compact digits) (exponent : ℤ) : Compact (Double.scientific digits exponent) := by
  unfold Double.scientific
  dsimp only
  refine Compact.append (Compact.append (Compact.append (Compact.append (h.take 1) ?_) (by decide +kernel)) ?_) ?_
  · split
    · exact Compact.append (by decide +kernel) (h.drop 1)
    · decide +kernel
  · split <;> decide +kernel
  · split
    · exact Compact.append (by decide +kernel) (compact_formatNat _)
    · exact compact_formatNat _

theorem compact_fixed (h : Compact digits) (exponent : ℤ) : Compact (d.fixed digits exponent) := by
  unfold Double.fixed
  dsimp only
  split
  · exact compact_formatNat _
  · split
    · exact Compact.append (Compact.append (h.take _) (by decide +kernel)) (h.drop _)
    · refine Compact.append (Compact.append (by decide +kernel) fun character hmem => ?_) h
      rw [List.eq_of_mem_replicate hmem]
      decide

theorem compact_toChars : Compact d.toChars := by
  have hsign : Compact (if d.sign then text "-" else []) := by split <;> decide +kernel
  unfold Double.toChars
  dsimp only
  split
  · exact hsign.append (by decide +kernel)
  · refine hsign.append ?_
    split
    · exact compact_fixed d (compact_formatNat _) _
    · exact compact_scientific (compact_formatNat _) _

theorem compact_formatDouble (value : Double) : Compact (formatDouble value) := by
  unfold formatDouble
  dsimp only
  split
  · decide +kernel
  · split
    · split <;> decide +kernel
    · split
      · exact (compact_toChars value).append (by decide +kernel)
      · exact compact_toChars value

theorem formatU64_injective : Function.Injective formatU64 := by
  intro a b h
  exact UInt64.toNat_inj.mp (Nat.repr_inj.mp (text_injective h))

theorem formatI64_injective : Function.Injective formatI64 := by
  intro a b h
  exact Int64.toInt_inj.mp (Int.repr_injective (text_injective h))

/-! ## The canonical text -/

theorem evidenceDigest_eq : evidenceDigest observation = fnv1a64 (canonicalText observation) := by
  unfold evidenceDigest
  rfl

def SameRendered : Reading → Reading → Prop
  | .gauge a, .gauge b => a.value = b.value
  | .counter a, .counter b => a = b
  | _, _ => False

instance : DecidableRel SameRendered
  | .gauge a, .gauge b => inferInstanceAs (Decidable (a.value = b.value))
  | .counter a, .counter b => inferInstanceAs (Decidable (a = b))
  | .gauge _, .counter _ => .isFalse id
  | .counter _, .gauge _ => .isFalse id

/-- The fields of two observations of one stream that their digests are taken of. -/
structure SameInDigest (a b : Observation) : Prop where
  unit : a.unit = b.unit
  reading : SameRendered a.reading b.reading
  observed : a.observedAt.unixNanos = b.observedAt.unixNanos
  authority : a.authority = b.authority
  evidenceClass : a.provenance.evidenceClass = b.provenance.evidenceClass

theorem unit_name_injective : Function.Injective MeasurementUnit.name := by
  have hfound : ∀ unit : MeasurementUnit, (Enumeration.values.find? fun other : MeasurementUnit =>
      other.name = unit.name) = some unit := by
    intro unit
    cases unit <;> decide +kernel
  intro a b h
  exact Option.some.inj ((hfound a).symm.trans (h ▸ hfound b))

theorem evidenceClass_name_injective : Function.Injective EvidenceClass.name := by
  intro a b h
  cases a <;> cases b <;> first | rfl | exact absurd h (by decide +kernel)

theorem unit_name_compact (unit : MeasurementUnit) : Compact unit.name := by
  cases unit <;> decide +kernel

theorem counter_suffix_injective {width width' : CounterWidth} {declared declared' : Bool}
    (h : text " (" ++ width.name ++ text ")" ++ (if declared then text " reset-declared" else []) =
      text " (" ++ width'.name ++ text ")" ++ (if declared' then text " reset-declared" else [])) :
    width = width' ∧ declared = declared' := by
  cases width <;> cases width' <;> cases declared <;> cases declared' <;>
    first | exact ⟨rfl, rfl⟩ | exact absurd h (by decide +kernel)

theorem renderReading_bar (reading : Reading) (unit : MeasurementUnit) : 124 ∉ renderReading reading unit := by
  have hunit := (unit_name_compact unit).bar
  unfold renderReading
  cases reading with
  | gauge gauge =>
    have hvalue := (compact_formatDouble gauge.value).bar
    have hblank : (124 : UInt8) ∉ text " " := by decide +kernel
    simp only [List.mem_append, not_or]
    exact ⟨⟨hvalue, hblank⟩, hunit⟩
  | counter counter =>
    have hvalue := (compact_formatU64 counter.value).bar
    have hblank : (124 : UInt8) ∉ text " " := by decide +kernel
    have hopening : (124 : UInt8) ∉ text " (" := by decide +kernel
    have hclosing : (124 : UInt8) ∉ text ")" := by decide +kernel
    have hwidth : (124 : UInt8) ∉ counter.width.name := by cases counter.width <;> decide +kernel
    have hreset : (124 : UInt8) ∉ (if counter.resetDeclared then text " reset-declared" else []) := by
      split <;> decide +kernel
    simp only [List.mem_append, not_or]
    exact ⟨⟨⟨⟨⟨⟨hvalue, hblank⟩, hunit⟩, hopening⟩, hwidth⟩, hclosing⟩, hreset⟩

theorem renderReading_counter {a b : CounterReading} {unit : MeasurementUnit} :
    renderReading (.counter a) unit = renderReading (.counter b) unit ↔ a = b := by
  refine ⟨fun h => ?_, fun h => h ▸ rfl⟩
  have hsplit : ∀ counter : CounterReading, renderReading (.counter counter) unit =
      formatU64 counter.value ++ 32 :: (unit.name ++ (text " (" ++ counter.width.name ++ text ")" ++
        if counter.resetDeclared then text " reset-declared" else [])) := by
    intro counter
    have hblank : text " " = [32] := by decide +kernel
    simp only [renderReading, hblank, List.append_assoc, List.cons_append, List.nil_append]
  rw [hsplit, hsplit] at h
  obtain ⟨hvalue, hrest⟩ :=
    (split_at_separator (compact_formatU64 a.value).blank (compact_formatU64 b.value).blank).mp h
  obtain ⟨hwidth, hreset⟩ := counter_suffix_injective (List.append_cancel_left hrest)
  cases a
  cases b
  simp_all only [CounterReading.mk.injEq, and_true]
  exact formatU64_injective hvalue

theorem canonicalText_eq : canonicalText observation = (observation.metric.render ++ 124 ::
        formatU64 (if observation.lane.aggregate then 0xFFFFFFFFFFFFFFFF else observation.lane.lane.toUInt64)) ++
      124 :: (observation.unit.name ++ 124 :: (renderReading observation.reading observation.unit ++
        124 :: (formatI64 observation.observedAt.unixNanos ++ 124 :: (formatU64 observation.authority ++
          124 :: observation.provenance.evidenceClass.name)))) := by
  have hbar : text "|" = [124] := by decide +kernel
  simp only [canonicalText, hbar, List.append_assoc, List.cons_append, List.nil_append]

theorem unit_of_validated {observation : Observation} {u : Unit}
    (h : validateObservation observation descriptor checks = .ok u) :
    match observation.reading with
    | .gauge gauge => gauge.value.isFinite = true ∧ observation.unit ≠ .count ∧ observation.unit ≠ .bytes
    | .counter _ => observation.unit = .count ∨ observation.unit = .bytes := by
  simp only [validateObservation, Outcome.check_bind_eq_ok] at h
  obtain ⟨-, -, -, -, -, -, -, hreading, -⟩ := h
  unfold validateReading at hreading
  cases hcase : observation.reading with
  | gauge gauge =>
    rw [hcase] at hreading
    simp only [Outcome.check_bind_eq_ok, Outcome.refuseIf_eq_ok, Bool.not_eq_false, not_or] at hreading
    exact ⟨hreading.1, hreading.2.2⟩
  | counter counter =>
    rw [hcase] at hreading
    simp only [Outcome.check_bind_eq_ok, Outcome.refuseIf_eq_ok, not_and, not_not] at hreading
    exact or_iff_not_imp_left.mpr hreading.1

theorem canonicalText_eq_iff {a b : Observation} {descriptor' : Option MetricDescriptor} {checks' : ObservationLimits}
    (hkey : b.streamKey = a.streamKey) (ha : validateObservation a descriptor checks = .ok ())
    (hb : validateObservation b descriptor' checks' = .ok ())
    (hdoubles : ∀ x y, a.reading = .gauge x → b.reading = .gauge y →
      formatDouble x.value = formatDouble y.value → x.value = y.value) :
    canonicalText a = canonicalText b ↔ SameInDigest a b := by
  have hmetric : b.metric = a.metric := congrArg StreamKey.metric hkey
  have hlane : b.lane = a.lane := congrArg StreamKey.lane hkey
  rw [canonicalText_eq, canonicalText_eq, hmetric, hlane]
  constructor
  · intro h
    have hrest := (List.cons.inj (List.append_cancel_left h)).2
    obtain ⟨hunit, hrest⟩ := (split_at_separator (unit_name_compact _).bar (unit_name_compact _).bar).mp hrest
    obtain ⟨hreading, hrest⟩ := (split_at_separator (renderReading_bar _ _) (renderReading_bar _ _)).mp hrest
    obtain ⟨htime, hrest⟩ := (split_at_separator (compact_formatI64 _).bar (compact_formatI64 _).bar).mp hrest
    obtain ⟨hauthority, hclass⟩ := (split_at_separator (compact_formatU64 _).bar (compact_formatU64 _).bar).mp hrest
    have hunits := unit_name_injective hunit
    refine ⟨hunits, ?_, formatI64_injective htime, formatU64_injective hauthority,
      evidenceClass_name_injective hclass⟩
    have hvalid := unit_of_validated ha
    have hvalid' := unit_of_validated hb
    rw [hunits] at hreading hvalid
    cases hleft : a.reading with
    | gauge x =>
      rw [hleft] at hreading hvalid
      cases hright : b.reading with
      | gauge y =>
        rw [hright] at hreading
        exact hdoubles x y hleft hright (List.append_cancel_right (List.append_cancel_right hreading))
      | counter y =>
        rw [hright] at hvalid'
        exact absurd hvalid' (not_or.mpr hvalid.2)
    | counter x =>
      rw [hleft] at hreading hvalid
      cases hright : b.reading with
      | gauge y =>
        rw [hright] at hvalid'
        exact absurd hvalid (not_or.mpr hvalid'.2)
      | counter y =>
        rw [hright] at hreading
        exact renderReading_counter.mp hreading
  · intro h
    have hreading : renderReading a.reading a.unit = renderReading b.reading b.unit := by
      have hsame := h.reading
      rw [h.unit]
      cases hleft : a.reading <;> cases hright : b.reading <;> rw [hleft, hright] at hsame
      · simp only [renderReading, show _ = _ from hsame]
      · exact hsame.elim
      · exact hsame.elim
      · rw [show _ = _ from hsame]
    rw [hreading, h.unit, h.observed, h.authority, h.evidenceClass]

end Lqf
