import LinkQualityFabric.Domain.Metric

/-! Sources, links, lanes and provenance: `lqf/core/strong.hpp`, `src/domain/identity.cpp`.

Identities are keys of the ordered maps of the stores. Their comparators are the defaulted
`operator<=>` of the source, field by field, and tell identities apart exactly. -/
namespace Lqf
open Foundations Std
set_option autoImplicit false

inductive TransportKind where
  | unspecified | ethernet | optical | electrical | internalFabric | synthetic | other | count
  deriving DecidableEq, Repr, Inhabited

inductive EvidenceClass where
  | real | synthetic | simulated | count
  deriving DecidableEq, Repr, Inhabited

inductive EvidenceOrigin where
  | live | recovered | count
  deriving DecidableEq, Repr, Inhabited

instance : Enumeration TransportKind where
  values := [.unspecified, .ethernet, .optical, .electrical, .internalFabric, .synthetic, .other, .count]
  complete := by intro a; cases a <;> decide

instance : Enumeration EvidenceClass where
  values := [.real, .synthetic, .simulated, .count]
  complete := by intro a; cases a <;> decide

instance : Enumeration EvidenceOrigin where
  values := [.live, .recovered, .count]
  complete := by intro a; cases a <;> decide

def maxIdentityBytes : ℕ := 128

structure SourceIdentity where
  id : Text
  incarnation : UInt64
  deriving DecidableEq, Repr, Inhabited

structure LinkIdentity where
  id : Text
  generation : UInt64
  deriving DecidableEq, Repr, Inhabited

structure LaneDimension where
  aggregate : Bool
  lane : UInt32
  deriving DecidableEq, Repr, Inhabited

structure Provenance where
  transport : TransportKind
  evidenceClass : EvidenceClass
  origin : Text
  producer : Text
  clockSynchronized : Bool
  declaredClockOffsetNanos : Int64
  deriving DecidableEq, Repr, Inhabited

/-! ## Comparison -/

instance : Ord MetricId := ⟨compareLex (compareOn fun id => Enumeration.code id.family) (compareOn (·.name))⟩
instance : Ord SourceIdentity := ⟨compareLex (compareOn (·.id)) (compareOn (·.incarnation))⟩
instance : Ord LinkIdentity := ⟨compareLex (compareOn (·.id)) (compareOn (·.generation))⟩
instance : Ord LaneDimension := ⟨compareLex (compareOn (·.aggregate)) (compareOn (·.lane))⟩

instance : TransOrd MetricId := inferInstanceAs (TransCmp (compareLex _ _))
instance : TransOrd SourceIdentity := inferInstanceAs (TransCmp (compareLex _ _))
instance : TransOrd LinkIdentity := inferInstanceAs (TransCmp (compareLex _ _))
instance : TransOrd LaneDimension := inferInstanceAs (TransCmp (compareLex _ _))

instance : LawfulEqOrd MetricId := by
  refine lawfulEqCmp_compareLex ?_
  rintro ⟨family, name⟩ ⟨family', name'⟩ hfirst hsecond
  have hfamily : family = family' := Enumeration.code_injective (eq_of_compareOn hfirst)
  have hname : name = name' := eq_of_compareOn hsecond
  rw [hfamily, hname]

instance : LawfulEqOrd SourceIdentity := by
  refine lawfulEqCmp_compareLex ?_
  rintro ⟨id, incarnation⟩ ⟨id', incarnation'⟩ hfirst hsecond
  have hid : id = id' := eq_of_compareOn hfirst
  have hinc : incarnation = incarnation' := eq_of_compareOn hsecond
  rw [hid, hinc]

instance : LawfulEqOrd LinkIdentity := by
  refine lawfulEqCmp_compareLex ?_
  rintro ⟨id, generation⟩ ⟨id', generation'⟩ hfirst hsecond
  have hid : id = id' := eq_of_compareOn hfirst
  have hgen : generation = generation' := eq_of_compareOn hsecond
  rw [hid, hgen]

instance : LawfulEqOrd LaneDimension := by
  refine lawfulEqCmp_compareLex ?_
  rintro ⟨aggregate, lane⟩ ⟨aggregate', lane'⟩ hfirst hsecond
  have hagg : aggregate = aggregate' := eq_of_compareOn hfirst
  have hlane : lane = lane' := eq_of_compareOn hsecond
  rw [hagg, hlane]

/-! ## Validation -/

def isPrintable (character : UInt8) : Bool := 0x21 ≤ character && character ≤ 0x7E

def validateIdentityText (value : Text) (maxBytes : ℕ) (what : Text) : Outcome Unit := do
  refuseIf (value = []) .invalid (what ++ text " must not be empty")
  refuseIf (maxBytes < value.length) .invalid
    (what ++ text " exceeds " ++ formatNat maxBytes ++ text " bytes")
  refuseIf (value.all isPrintable = false) .invalid
    (what ++ text " must be printable ASCII without spaces")

def validateLaneId (lane maxLanes : UInt32) : Outcome Unit := do
  refuseIf (maxLanes = 0) .invalid (text "lane capacity is zero")
  refuseIf (maxLanes ≤ lane) .invalid
    (text "lane " ++ formatNat lane.toNat ++ text " exceeds the declared capacity of " ++
      formatNat maxLanes.toNat)

def validateSourceIdentity (identity : SourceIdentity) : Outcome Unit := do
  validateIdentityText identity.id maxIdentityBytes (text "source id")
  refuseIf (identity.incarnation = 0) .invalid (text "source incarnation must be at least 1")

def validateLinkIdentity (identity : LinkIdentity) : Outcome Unit := do
  validateIdentityText identity.id maxIdentityBytes (text "link id")
  refuseIf (identity.generation = 0) .invalid (text "link generation must be at least 1")

-- Both texts are optional: an empty one is not checked.
def validateOptionalText (value : Text) (maxBytes : ℕ) (what : Text) : Outcome Unit :=
  if value = [] then .ok () else validateIdentityText value maxBytes what

def validateProvenance (provenance : Provenance) (maxOriginBytes : ℕ) : Outcome Unit := do
  refuseIf (provenance.transport = .count) .invalid (text "transport kind is out of range")
  refuseIf (provenance.evidenceClass = .count) .invalid (text "evidence class is out of range")
  validateOptionalText provenance.origin maxOriginBytes (text "provenance origin")
  validateOptionalText provenance.producer maxOriginBytes (text "provenance producer")

variable {value : Text} {maxBytes : ℕ} {what : Text} {u : Unit}

theorem validateIdentityText_length (h : validateIdentityText value maxBytes what = .ok u) :
    value.length ≤ maxBytes := by
  simp only [validateIdentityText, Outcome.check_bind_eq_ok, Outcome.refuseIf_eq_ok] at h
  obtain ⟨-, hlength, -⟩ := h
  exact Nat.le_of_not_lt hlength

theorem validateOptionalText_length (h : validateOptionalText value maxBytes what = .ok u) :
    value.length ≤ maxBytes := by
  unfold validateOptionalText at h
  split at h
  · next hempty => simp [hempty]
  · exact validateIdentityText_length h

theorem validateLinkIdentity_eq_ok {identity : LinkIdentity} : validateLinkIdentity identity = .ok u ↔
      validateIdentityText identity.id maxIdentityBytes (text "link id") = .ok () ∧ identity.generation ≠ 0 := by
  simp [validateLinkIdentity, Outcome.check_bind_eq_ok]

theorem validateSourceIdentity_eq_ok {identity : SourceIdentity} : validateSourceIdentity identity = .ok u ↔
      validateIdentityText identity.id maxIdentityBytes (text "source id") = .ok () ∧ identity.incarnation ≠ 0 := by
  simp [validateSourceIdentity, Outcome.check_bind_eq_ok]

theorem validateProvenance_eq_ok {provenance : Provenance} {maxOriginBytes : ℕ} :
    validateProvenance provenance maxOriginBytes = .ok u ↔
      provenance.transport ≠ .count ∧ provenance.evidenceClass ≠ .count ∧
        validateOptionalText provenance.origin maxOriginBytes (text "provenance origin") = .ok () ∧
        validateOptionalText provenance.producer maxOriginBytes (text "provenance producer") = .ok () := by
  simp [validateProvenance, Outcome.check_bind_eq_ok]

end Lqf
