import LinkQualityFabric.Persist.Codec

/-! The registry of declared capabilities: `src/store/capability_registry.cpp`.

One declaration is kept for every source and scope. A newer revision replaces it; an older one is
fenced; the same revision is a duplicate when its canonical bytes agree and an identity mismatch
otherwise. -/
namespace Lqf
open Foundations Std
set_option autoImplicit false

structure ScopedKey where
  source : SourceIdentity
  linkScoped : Bool
  link : LinkIdentity
  deriving DecidableEq, Repr, Inhabited

instance : Ord ScopedKey :=
  ⟨compareLex (compareOn (·.source)) (compareLex (compareOn (·.linkScoped)) (compareOn (·.link)))⟩

instance : TransOrd ScopedKey := inferInstanceAs (TransCmp (compareLex _ _))

instance : LawfulEqOrd ScopedKey := by
  refine lawfulEqCmp_compareLex ?_
  rintro ⟨source, inScope, link⟩ ⟨source', inScope', link'⟩ hfirst hrest
  obtain ⟨hsecond, hthird⟩ := compareLex_eq_eq.mp hrest
  have hsource : source = source' := eq_of_compareOn hfirst
  have hscoped : inScope = inScope' := eq_of_compareOn hsecond
  have hlink : link = link' := eq_of_compareOn hthird
  rw [hsource, hscoped, hlink]

/-- The bytes two declarations of one revision are compared by; none when they do not encode. -/
def canonicalDeclaration (declaration : CapabilityDeclaration) : Bytes :=
  match Codec.capabilityDeclaration.encodeBody ⟨256, 4096, 8388608⟩ declaration with
  | .ok bytes => bytes
  | .error _ => []

structure CapabilityRegistry where
  limits : FabricLimits
  entries : ExtTreeMap ScopedKey CapabilityDeclaration

namespace CapabilityRegistry

def empty (limits : FabricLimits) : CapabilityRegistry := ⟨limits, ∅⟩

/-- An unscoped declaration is filed under the default link identity. -/
def scopedKey (declaration : CapabilityDeclaration) : ScopedKey where
  source := declaration.source
  linkScoped := declaration.linkScope.isSome
  link := declaration.linkScope.getD ⟨[], 0⟩

def observationLimits (limits : FabricLimits) : ObservationLimits := ⟨limits.maxStringBytes, 4096⟩

def store (registry : CapabilityRegistry) (declaration : CapabilityDeclaration) : CapabilityRegistry :=
  { registry with entries := registry.entries.insert (scopedKey declaration) declaration }

def replace (registry : CapabilityRegistry) (declaration existing : CapabilityDeclaration) :
    Outcome CapabilityRegistry :=
  if declaration.revision < existing.revision then
    fail .fenced (text "capability revision " ++ formatU64 declaration.revision ++
      text " is older than the stored revision " ++ formatU64 existing.revision)
  else if declaration.revision = existing.revision then
    if canonicalDeclaration declaration = canonicalDeclaration existing then
      fail .duplicate (text "capability revision already recorded")
    else fail .idMismatch (text "capability revision re-used with different content")
  else .ok (registry.store declaration)

def declare (registry : CapabilityRegistry) (catalog : MetricCatalog) (declaration : CapabilityDeclaration) :
    Outcome CapabilityRegistry := do
  validateCapability declaration catalog (observationLimits registry.limits)
    registry.limits.maxMetricsPerCapability
  match registry.entries[scopedKey declaration]? with
  | none =>
    refuseIf (registry.limits.maxCapabilityDeclarations ≤ registry.entries.size) .limitExceeded
      (text "capability declaration capacity reached")
    return registry.store declaration
  | some existing => registry.replace declaration existing

def scopedTo (declaration : CapabilityDeclaration) (link : LinkIdentity) : Bool :=
  match declaration.linkScope with
  | none => true
  | some scope => scope = link

def declarations (registry : CapabilityRegistry) : List CapabilityDeclaration := registry.entries.values

def firstInScope (registry : CapabilityRegistry) (link : LinkIdentity) (source : SourceIdentity) :
    Option CapabilityDeclaration :=
  registry.declarations.find? fun declaration => declaration.source = source && scopedTo declaration link

/-- The first declaration of the source in scope decides, also when it does not list the metric. -/
def capabilityOf (registry : CapabilityRegistry) (link : LinkIdentity) (metric : MetricId)
    (source : SourceIdentity) : Option MetricCapability :=
  match registry.firstInScope link source with
  | none => none
  | some declaration => declaration.metrics.find? fun capability => capability.metric = metric

theorem declare_eq_ok {registry : CapabilityRegistry} {catalog : MetricCatalog}
    {declaration : CapabilityDeclaration} {result : CapabilityRegistry}
    (h : registry.declare catalog declaration = .ok result) :
    validateCapability declaration catalog (observationLimits registry.limits)
        registry.limits.maxMetricsPerCapability = .ok () ∧ result = registry.store declaration := by
  rw [declare, Outcome.check_bind_eq_ok] at h
  refine ⟨h.1, ?_⟩
  have hstored := h.2
  split at hstored
  · rw [Outcome.check_bind_eq_ok] at hstored
    exact (Except.ok.inj hstored.2).symm
  · unfold replace at hstored
    split at hstored
    · cases hstored
    · split at hstored
      · split at hstored <;> cases hstored
      · exact (Except.ok.inj hstored).symm

end CapabilityRegistry

end Lqf
