import LinkQualityFabric.Domain.Classification
import LinkQualityFabric.Store.CapabilityRegistry

/-! The declarations as one link sees them: `view_for_link` of `src/store/capability_registry.cpp`.

Every declaration in the scope of the link adds a source to the view of each metric it measures and of each metric it
denies. The views come in the order of their metrics, and the sources of a view in their own order. -/
namespace Lqf.CapabilityRegistry
open Foundations
open Std (ExtTreeMap LawfulEqCmp)
set_option autoImplicit false

def measuredBy (declaration : CapabilityDeclaration) (capability : MetricCapability) : DeclaredSource where
  source := declaration.source
  revision := declaration.revision
  evidenceClass := declaration.evidenceClass
  transport := declaration.transport
  lanesDeclared := capability.lanesDeclared
  laneCount := capability.laneCount
  unit := capability.unit
  semantics := capability.semantics
  counterWidth := capability.counterWidth
  validityNanos := capability.validityNanos

def deniedBy (declaration : CapabilityDeclaration) : DeclaredSource :=
  { (default : DeclaredSource) with
    source := declaration.source
    revision := declaration.revision
    evidenceClass := declaration.evidenceClass
    transport := declaration.transport }

/-- `views[metric]`, which creates the view of a metric. -/
def viewAt (views : ExtTreeMap MetricId MetricCapabilityView) (metric : MetricId) : MetricCapabilityView :=
  { views.getD metric ⟨metric, [], []⟩ with metric := metric }

def noteMeasured (declaration : CapabilityDeclaration) (views : ExtTreeMap MetricId MetricCapabilityView)
    (capability : MetricCapability) : ExtTreeMap MetricId MetricCapabilityView :=
  let view := viewAt views capability.metric
  views.insert capability.metric { view with declaredBy := view.declaredBy ++ [measuredBy declaration capability] }

def noteDenied (declaration : CapabilityDeclaration) (views : ExtTreeMap MetricId MetricCapabilityView)
    (metric : MetricId) : ExtTreeMap MetricId MetricCapabilityView :=
  let view := viewAt views metric
  views.insert metric { view with declaredUnsupportedBy := view.declaredUnsupportedBy ++ [deniedBy declaration] }

def noteDeclaration (link : LinkIdentity) (views : ExtTreeMap MetricId MetricCapabilityView)
    (declaration : CapabilityDeclaration) : ExtTreeMap MetricId MetricCapabilityView :=
  if scopedTo declaration link then
    declaration.unsupportedMetrics.foldl (noteDenied declaration)
      (declaration.metrics.foldl (noteMeasured declaration) views)
  else views

def sortSources (sources : List DeclaredSource) : List DeclaredSource :=
  sources.insertionSort fun a b => (compare a.source b.source).isLE

def sortView (view : MetricCapabilityView) : MetricCapabilityView :=
  { view with
    declaredBy := sortSources view.declaredBy
    declaredUnsupportedBy := sortSources view.declaredUnsupportedBy }

def viewForLink (registry : CapabilityRegistry) (link : LinkIdentity) : List MetricCapabilityView :=
  (registry.declarations.foldl (noteDeclaration link) ∅).values.map sortView

/-! ## Where a declared source comes from -/

def Declares (declarations : List CapabilityDeclaration) (link : LinkIdentity) (metric : MetricId)
    (source : SourceIdentity) : Prop :=
  ∃ declaration ∈ declarations, declaration.source = source ∧ scopedTo declaration link = true ∧
    ∃ capability ∈ declaration.metrics, capability.metric = metric

/-- The sources that the declarations in the scope of the link name for the metric, declaration by declaration. -/
def listed (link : LinkIdentity) (declarations : List CapabilityDeclaration) (metric : MetricId) : List DeclaredSource :=
  (declarations.filter fun declaration => scopedTo declaration link).flatMap fun declaration =>
    (declaration.metrics.filter fun capability => capability.metric = metric).map (measuredBy declaration)

/-- Every view is filed under its metric and lists these sources. -/
structure Lists (views : ExtTreeMap MetricId MetricCapabilityView) (sources : MetricId → List DeclaredSource) :
    Prop where
  filed : ∀ (metric : MetricId) (view : MetricCapabilityView), views[metric]? = some view → view.metric = metric
  sources : ∀ metric, (viewAt views metric).declaredBy = sources metric

section Views
variable {views : ExtTreeMap MetricId MetricCapabilityView} {sources : MetricId → List DeclaredSource}

theorem Lists.insert (h : Lists views sources) {metric : MetricId} {view : MetricCapabilityView}
    (hmetric : view.metric = metric) :
    Lists (views.insert metric view) (Function.update sources metric view.declaredBy) := by
  refine ⟨fun other found hfound => ?_, fun other => ?_⟩
  · rw [ExtTreeMap.getElem?_insert] at hfound
    split at hfound
    · next hsame =>
      obtain rfl := LawfulEqCmp.eq_of_compare hsame
      obtain rfl := Option.some.inj hfound
      exact hmetric
    · exact h.filed other found hfound
  · unfold viewAt
    rw [ExtTreeMap.getD_insert]
    split
    · next hsame =>
      obtain rfl := LawfulEqCmp.eq_of_compare hsame
      rw [Function.update_self]
    · next hother =>
      rw [Function.update_of_ne fun heq => hother (Std.compare_eq_iff_eq.mpr heq.symm)]
      exact h.sources other

theorem Lists.noteMeasured (h : Lists views sources) (declaration : CapabilityDeclaration)
    (metrics : List MetricCapability) : Lists (metrics.foldl (noteMeasured declaration) views) fun metric =>
      sources metric ++ (metrics.filter fun capability => capability.metric = metric).map (measuredBy declaration) := by
  induction metrics generalizing views sources with
  | nil => simpa using h
  | cons capability rest ih =>
    have hfirst : Lists (CapabilityRegistry.noteMeasured declaration views capability) (Function.update sources
        capability.metric ((viewAt views capability.metric).declaredBy ++ [measuredBy declaration capability])) :=
      h.insert rfl
    have hrest := ih hfirst
    refine ⟨hrest.filed, fun metric => (hrest.sources metric).trans ?_⟩
    by_cases hmetric : capability.metric = metric
    · subst hmetric
      simp [h.sources]
    · simp [hmetric, Function.update_of_ne (Ne.symm hmetric)]

theorem Lists.noteDenied (h : Lists views sources) (declaration : CapabilityDeclaration) (metrics : List MetricId) :
    Lists (metrics.foldl (noteDenied declaration) views) sources := by
  induction metrics generalizing views with
  | nil => exact h
  | cons metric rest ih =>
    refine ih ?_
    have hfirst : Lists (CapabilityRegistry.noteDenied declaration views metric)
        (Function.update sources metric (viewAt views metric).declaredBy) := h.insert rfl
    rwa [h.sources, Function.update_eq_self] at hfirst

theorem Lists.noteDeclarations (h : Lists views sources) (link : LinkIdentity)
    (declarations : List CapabilityDeclaration) :
    Lists (declarations.foldl (noteDeclaration link) views) fun metric =>
      sources metric ++ listed link declarations metric := by
  induction declarations generalizing views sources with
  | nil => simpa [listed] using h
  | cons declaration rest ih =>
    rw [List.foldl_cons, noteDeclaration]
    split
    · next hscope =>
      have hrest := ih ((h.noteMeasured declaration declaration.metrics).noteDenied declaration
        declaration.unsupportedMetrics)
      simpa [listed, hscope] using hrest
    · next hscope => simpa [listed, hscope] using ih h

end Views

variable (registry : CapabilityRegistry) (link : LinkIdentity)

theorem lists_views :
    Lists (registry.declarations.foldl (noteDeclaration link) ∅) (listed link registry.declarations) := by
  have hnone : Lists ∅ fun _ => [] := ⟨by simp, fun _ => by simp [viewAt]⟩
  simpa using hnone.noteDeclarations link registry.declarations

variable {metric : MetricId} {view : MetricCapabilityView} {source : DeclaredSource}

theorem Lists.declaredBy {views : ExtTreeMap MetricId MetricCapabilityView}
    {sources : MetricId → List DeclaredSource} (h : Lists views sources) (hview : views[metric]? = some view) :
    view.declaredBy = sources metric := by
  rw [← h.sources, viewAt, ExtTreeMap.getD_eq_getD_getElem?, hview]
  rfl

theorem declares_of_listed {declarations : List CapabilityDeclaration}
    (h : source ∈ listed link declarations metric) : Declares declarations link metric source.source := by
  obtain ⟨declaration, hdeclaration, hsource⟩ := List.mem_flatMap.mp h
  obtain ⟨capability, hcapability, rfl⟩ := List.mem_map.mp hsource
  obtain ⟨hmem, hscope⟩ := List.mem_filter.mp hdeclaration
  obtain ⟨hlisted, hmetric⟩ := List.mem_filter.mp hcapability
  exact ⟨declaration, hmem, rfl, hscope, capability, hlisted, of_decide_eq_true hmetric⟩

theorem declares_of_viewForLink {registry : CapabilityRegistry} {link : LinkIdentity}
    (hview : view ∈ registry.viewForLink link) (hsource : source ∈ view.declaredBy) :
    Declares registry.declarations link view.metric source.source := by
  obtain ⟨unsorted, hunsorted, rfl⟩ := List.mem_map.mp hview
  obtain ⟨metric, hmetric⟩ := mem_values.mp hunsorted
  have hlists := lists_views registry link
  obtain rfl := hlists.filed metric unsorted hmetric
  have hlisted := (List.perm_insertionSort _ _).mem_iff.mp hsource
  rw [hlists.declaredBy hmetric] at hlisted
  exact declares_of_listed link hlisted

theorem viewForLink_nodup : ((registry.viewForLink link).map MetricCapabilityView.metric).Nodup := by
  have hfiled := (lists_views registry link).filed
  unfold viewForLink
  generalize registry.declarations.foldl (noteDeclaration link) ∅ = views at hfiled ⊢
  have hkeys : (views.values.map sortView).map MetricCapabilityView.metric = views.keys := by
    rw [values_eq, List.map_map, List.map_map, ← ExtTreeMap.map_fst_toList_eq_keys]
    refine List.map_congr_left fun entry hentry => ?_
    exact hfiled entry.1 entry.2 (ExtTreeMap.mem_toList_iff_getElem?_eq_some.mp hentry)
  rw [hkeys]
  exact keys_nodup views

end Lqf.CapabilityRegistry
