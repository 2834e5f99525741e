import LinkQualityFabric.Foundations.Extremum
import LinkQualityFabric.Store.CapabilityView

/-! Declarations of capabilities, in whatever order they come.

A registry with room for every source and scope keeps of each the highest revision it has been given. It walks over the
declarations of a key like a search for the highest, and such a walk forgets the order of what it has passed. -/
namespace Lqf.CapabilityRegistry
open Foundations Std
set_option autoImplicit false

variable {catalog : MetricCatalog} {limits : FabricLimits} {registry : CapabilityRegistry}
  {declaration : CapabilityDeclaration} {given : List CapabilityDeclaration}

/-! ## The highest revisions -/

/-- Every declaration is offered, and those that are refused are passed over. -/
def declareAll (catalog : MetricCatalog) (registry : CapabilityRegistry) (given : List CapabilityDeclaration) :
    CapabilityRegistry :=
  given.foldl (fun registry declaration => (registry.declare catalog declaration).toOption.getD registry) registry

def newer : Option CapabilityDeclaration → CapabilityDeclaration → Option CapabilityDeclaration
  | none, declaration => some declaration
  | some existing, declaration =>
    if existing.revision < declaration.revision then some declaration else some existing

abbrev Valid (catalog : MetricCatalog) (limits : FabricLimits) (declaration : CapabilityDeclaration) : Prop :=
  validateCapability declaration catalog (observationLimits limits) limits.maxMetricsPerCapability = .ok ()

abbrev Entries := ExtTreeMap ScopedKey CapabilityDeclaration

def file (entries : Entries) (declaration : CapabilityDeclaration) : Entries :=
  entries.alter (scopedKey declaration) fun existing => newer existing declaration

variable {entries : Entries}

theorem file_getElem? (key : ScopedKey) : (file entries declaration)[key]? =
      if scopedKey declaration = key then newer entries[key]? declaration else entries[key]? := by
  simp only [file, ExtTreeMap.getElem?_alter, Std.compare_eq_iff_eq]
  split
  · next hkey => rw [hkey]
  · rfl

theorem file_of_newer (h : newer entries[scopedKey declaration]? declaration = some declaration) :
    file entries declaration = entries.insert (scopedKey declaration) declaration := by
  refine ExtTreeMap.ext_getElem? fun key => ?_
  simp only [file_getElem?, ExtTreeMap.getElem?_insert, Std.compare_eq_iff_eq]
  split
  · next hkey => rw [← hkey, h]
  · rfl

theorem file_of_kept (h : newer entries[scopedKey declaration]? declaration = entries[scopedKey declaration]?) :
    file entries declaration = entries := by
  refine ExtTreeMap.ext_getElem? fun key => ?_
  rw [file_getElem?]
  split
  · next hkey => rw [← hkey, h]
  · rfl

theorem scopedKey_inj {other : CapabilityDeclaration} : scopedKey other = scopedKey declaration ↔
      other.source = declaration.source ∧ other.linkScope = declaration.linkScope := by
  unfold scopedKey
  cases other.linkScope <;> cases declaration.linkScope <;> simp

theorem declare_files (hvalid : Valid catalog registry.limits declaration)
    (hroom : scopedKey declaration ∉ registry.entries →
      registry.entries.size < registry.limits.maxCapabilityDeclarations) :
    (registry.declare catalog declaration).toOption.getD registry =
      ⟨registry.limits, file registry.entries declaration⟩ := by
  unfold declare
  rw [hvalid, Outcome.ok_bind]
  cases hentry : registry.entries[scopedKey declaration]? with
  | none =>
    have hsize := hroom (by simp [ExtTreeMap.mem_iff_isSome_getElem?, hentry])
    dsimp only
    rw [Outcome.refuseIf_of_not (Nat.not_le.mpr hsize), file_of_newer (by rw [hentry]; rfl)]
    rfl
  | some existing =>
    dsimp only
    unfold replace
    by_cases hnewer : existing.revision < declaration.revision
    · have hnot : ¬ declaration.revision < existing.revision := UInt64.not_lt.mpr (UInt64.le_of_lt hnewer)
      rw [if_neg hnot, if_neg (UInt64.ne_of_lt hnewer).symm, file_of_newer (by rw [hentry, newer, if_pos hnewer])]
      rfl
    · rw [file_of_kept (by rw [hentry, newer, if_neg hnewer])]
      split
      · rfl
      · next hlower =>
        rw [if_pos (UInt64.le_antisymm (UInt64.not_lt.mp hnewer) (UInt64.not_lt.mp hlower))]
        split <;> rfl

theorem declareAll_files (hvalid : ∀ declaration ∈ given, Valid catalog limits declaration) {keys : Finset ScopedKey}
    (hcard : keys.card ≤ limits.maxCapabilityDeclarations) (hkeys : ∀ declaration ∈ given, scopedKey declaration ∈ keys)
    (hstored : ∀ key ∈ entries, key ∈ keys) :
    declareAll catalog ⟨limits, entries⟩ given = ⟨limits, given.foldl file entries⟩ := by
  induction given generalizing entries with
  | nil => rfl
  | cons declaration rest ih =>
    have hfirst := hkeys declaration List.mem_cons_self
    have hroom : scopedKey declaration ∉ entries → entries.size < limits.maxCapabilityDeclarations := by
      intro hnew
      have hproper : keySet entries ⊂ keys := (Finset.ssubset_iff_of_subset fun key hkey =>
        hstored key (mem_keySet.mp hkey)).mpr ⟨_, hfirst, by simpa using hnew⟩
      exact card_keySet entries ▸ (Finset.card_lt_card hproper).trans_le hcard
    have hstep := @declare_files catalog ⟨limits, entries⟩ declaration (hvalid declaration List.mem_cons_self) hroom
    unfold declareAll at ih ⊢
    rw [List.foldl_cons, List.foldl_cons, hstep]
    refine ih (fun other hother => hvalid other (List.mem_cons_of_mem _ hother))
      (fun other hother => hkeys other (List.mem_cons_of_mem _ hother)) fun key hkey => ?_
    rw [ExtTreeMap.mem_iff_isSome_getElem?, file_getElem?] at hkey
    split at hkey
    · next heq => exact heq ▸ hfirst
    · exact hstored key (ExtTreeMap.mem_iff_isSome_getElem?.mpr hkey)

theorem foldl_file_getElem? (key : ScopedKey) : (given.foldl file entries)[key]? =
      (given.filter fun declaration => scopedKey declaration = key).foldl newer entries[key]? := by
  induction given generalizing entries with
  | nil => rfl
  | cons declaration rest ih =>
    rw [List.foldl_cons, ih, file_getElem?]
    by_cases hkey : scopedKey declaration = key
    · rw [if_pos hkey, List.filter_cons_of_pos (by simpa using hkey), List.foldl_cons]
    · rw [if_neg hkey, List.filter_cons_of_neg (by simpa using hkey)]

theorem foldl_newer (declaration : CapabilityDeclaration) (rest : List CapabilityDeclaration) :
    ∃ highest, rest.foldl newer (some declaration) = some highest ∧
      IsBest (fun declaration : CapabilityDeclaration => declaration.revision.toNat) (declaration :: rest) highest := by
  refine ⟨_, ?_, (isFirstBest_foldl declaration rest).isBest⟩
  induction rest generalizing declaration with
  | nil => rfl
  | cons found rest ih =>
    rw [List.foldl_cons, newer, List.foldl_cons]
    simp only [UInt64.lt_iff_toNat_lt]
    split <;> exact ih _

theorem newer_comm (existing : Option CapabilityDeclaration) {a b : CapabilityDeclaration}
    (h : a.revision = b.revision → a = b) : newer (newer existing a) b = newer (newer existing b) a := by
  by_cases hsame : a.revision = b.revision
  · rw [h hsame]
  · have hne : a.revision.toNat ≠ b.revision.toNat := fun heq => hsame (UInt64.toNat_inj.mp heq)
    cases existing <;> simp only [newer, UInt64.lt_iff_toNat_lt] <;> grind [newer, UInt64.lt_iff_toNat_lt]

/-- **Declarations converge.** In whatever order valid declarations come, a registry with room for their sources and
scopes ends up the same, with the highest revision of each. -/
theorem declarations_converge (catalog : MetricCatalog) (limits : FabricLimits)
    (given order : List CapabilityDeclaration) (horder : order.Perm given)
    (hvalid : ∀ declaration ∈ given, Valid catalog limits declaration)
    (hdistinct : (given.map fun declaration => (declaration.source, declaration.linkScope, declaration.revision)).Nodup)
    (hroom : (given.map fun declaration => (declaration.source, declaration.linkScope)).toFinset.card ≤
      limits.maxCapabilityDeclarations) :
    declareAll catalog (empty limits) order = declareAll catalog (empty limits) given ∧
      ∀ declaration ∈ given, ∃ highest,
        (declareAll catalog (empty limits) given).entries[scopedKey declaration]? = some highest ∧
        IsBest (fun declaration => declaration.revision.toNat)
          (given.filter fun other => scopedKey other = scopedKey declaration) highest := by
  have himage : (given.map scopedKey).toFinset = (given.map fun declaration =>
      (declaration.source, declaration.linkScope)).toFinset.image fun pair =>
        ⟨pair.1, pair.2.isSome, pair.2.getD ⟨[], 0⟩⟩ := by
    ext key
    simp [scopedKey]
  have hfiles : ∀ order : List CapabilityDeclaration, order.Perm given →
      declareAll catalog (empty limits) order = ⟨limits, order.foldl file ∅⟩ := by
    intro order horder
    refine declareAll_files (fun declaration hmem => hvalid declaration (horder.mem_iff.mp hmem))
      (himage ▸ Finset.card_image_le.trans hroom) (fun declaration hmem => ?_) (by simp)
    exact List.mem_toFinset.mpr (List.mem_map_of_mem (horder.mem_iff.mp hmem))
  rw [hfiles order horder, hfiles given (.refl _)]
  refine ⟨?_, fun declaration hmem => ?_⟩
  · refine congrArg (CapabilityRegistry.mk limits) (ExtTreeMap.ext_getElem? fun key => ?_)
    rw [foldl_file_getElem?, foldl_file_getElem?]
    refine (horder.filter _).foldl_eq' (fun a ha b hb existing => newer_comm existing fun hrevision => ?_) _
    obtain ⟨ha, hkey⟩ := List.mem_filter.mp ha
    obtain ⟨hb, hkey'⟩ := List.mem_filter.mp hb
    refine List.inj_on_of_nodup_map hdistinct (horder.mem_iff.mp ha) (horder.mem_iff.mp hb) ?_
    obtain ⟨hsource, hscope⟩ := scopedKey_inj.mp ((of_decide_eq_true hkey).trans (of_decide_eq_true hkey').symm)
    rw [hsource, hscope, hrevision]
  · have hthere : declaration ∈ given.filter fun other => scopedKey other = scopedKey declaration := by simpa using hmem
    rw [foldl_file_getElem?]
    obtain ⟨first, rest, hlist⟩ := List.exists_cons_of_ne_nil (List.ne_nil_of_mem hthere)
    rw [hlist]
    exact foldl_newer first rest

def revised (revision : UInt64) (linkScope : Option LinkIdentity) (metric : String) : CapabilityDeclaration where
  source := ⟨text "s", 1⟩
  linkScope := linkScope
  revision := revision
  transport := default
  evidenceClass := .real
  declaredAt := ⟨0, false⟩
  metrics := [⟨⟨.environmental, text metric⟩, .milliDegreeCelsius, .gauge, .unspecified, false, 0, 0⟩]
  unsupportedMetrics := []
  note := []

def twoGauges : MetricCatalog :=
  ((MetricCatalog.empty 2).addGauge .environmental "a" .milliDegreeCelsius false "a").addGauge .environmental "b"
    .milliDegreeCelsius false "b"

theorem revisions_converge :
    declareAll twoGauges (empty .defaults) [revised 2 none "b", revised 1 none "a"] =
      declareAll twoGauges (empty .defaults) [revised 1 none "a", revised 2 none "b"] :=
  (declarations_converge twoGauges .defaults [revised 1 none "a", revised 2 none "b"] _ (.swap ..)
    (by decide +kernel) (by decide +kernel) (by decide +kernel)).1

/-! ## Who may report a metric -/

def sourcesFor (registry : CapabilityRegistry) (link : LinkIdentity) (metric : MetricId) : List DeclaredSource :=
  match (registry.viewForLink link).find? fun view => view.metric = metric with
  | none => []
  | some view => view.declaredBy

theorem sourcesFor_perm (registry : CapabilityRegistry) (link : LinkIdentity) (metric : MetricId) :
    (registry.sourcesFor link metric).Perm (listed link registry.declarations metric) := by
  have hlists := lists_views registry link
  unfold sourcesFor viewForLink
  generalize registry.declarations.foldl (noteDeclaration link) ∅ = views at hlists ⊢
  cases hfind : (views.values.map sortView).find? fun view => view.metric = metric with
  | none =>
    cases hview : views[metric]? with
    | none =>
      rw [← hlists.sources, viewAt, ExtTreeMap.getD_eq_getD_getElem?, hview]
      exact .refl _
    | some view =>
      have hother := List.find?_eq_none.mp hfind _ (List.mem_map_of_mem (mem_values.mpr ⟨metric, hview⟩))
      exact absurd (decide_eq_true (hlists.filed metric view hview)) hother
  | some found =>
    obtain ⟨view, hmem, rfl⟩ := List.mem_map.mp (List.mem_of_find?_eq_some hfind)
    obtain ⟨key, hview⟩ := mem_values.mp hmem
    have hkey := hlists.filed key view hview
    have hmetric : (sortView view).metric = metric := by simpa using List.find?_some hfind
    obtain rfl : key = metric := hkey.symm.trans hmetric
    rw [← hlists.declaredBy hview]
    exact List.perm_insertionSort _ _

def Measures (declaration : CapabilityDeclaration) (metric : MetricId) : Prop :=
  ∃ capability ∈ declaration.metrics, capability.metric = metric

theorem capabilityOf_eq (registry : CapabilityRegistry) (link : LinkIdentity) (metric : MetricId)
    (source : SourceIdentity) :
    registry.capabilityOf link metric source = (registry.firstInScope link source).bind fun declaration =>
      declaration.metrics.find? fun capability => capability.metric = metric := by
  unfold capabilityOf
  cases registry.firstInScope link source <;> rfl

/-- **Who may report, and who is listed.** A source that is listed for the metric may report it exactly when its first
declaration in scope is one that lists the metric. What it may report is then what an only entry of it says. -/
theorem reports_iff_listed_iff (registry : CapabilityRegistry) (link : LinkIdentity) (metric : MetricId)
    (source : SourceIdentity) :
    (((registry.capabilityOf link metric source).isSome = true ↔
        ∃ entry ∈ registry.sourcesFor link metric, entry.source = source) ↔
      ((∃ declaration ∈ registry.declarations, declaration.source = source ∧ scopedTo declaration link = true ∧
          Measures declaration metric) →
        ∃ declaration ∈ registry.firstInScope link source, Measures declaration metric)) ∧
    ∀ capability entry, registry.capabilityOf link metric source = some capability →
      ((registry.sourcesFor link metric).filter fun entry => entry.source = source) = [entry] →
      (entry.unit, entry.semantics, entry.counterWidth, entry.lanesDeclared, entry.laneCount, entry.validityNanos) =
        (capability.unit, capability.semantics, capability.counterWidth, capability.lanesDeclared, capability.laneCount,
          capability.validityNanos) := by
  have hlisted : ∀ {declaration : CapabilityDeclaration} {capability : MetricCapability},
      declaration ∈ registry.declarations → scopedTo declaration link = true → capability ∈ declaration.metrics →
        capability.metric = metric → measuredBy declaration capability ∈ registry.sourcesFor link metric := by
    intro declaration capability hmem hscope hcapability hmetric
    refine (registry.sourcesFor_perm link metric).mem_iff.mpr (List.mem_flatMap.mpr ⟨declaration, ?_, ?_⟩)
    · exact List.mem_filter.mpr ⟨hmem, hscope⟩
    · exact List.mem_map_of_mem (List.mem_filter.mpr ⟨hcapability, decide_eq_true hmetric⟩)
  have hfirst : ∀ {declaration : CapabilityDeclaration}, registry.firstInScope link source = some declaration →
      declaration ∈ registry.declarations ∧ declaration.source = source ∧ scopedTo declaration link = true := by
    intro declaration h
    have hholds := List.find?_some h
    simp only [Bool.and_eq_true, decide_eq_true_eq] at hholds
    exact ⟨List.mem_of_find?_eq_some h, hholds⟩
  refine ⟨?_, fun capability entry hcapability honly => ?_⟩
  · have hreports : (registry.capabilityOf link metric source).isSome = true ↔
        ∃ declaration ∈ registry.firstInScope link source, Measures declaration metric := by
      rw [capabilityOf_eq]
      cases registry.firstInScope link source <;> simp [Measures]
    have hentries : (∃ entry ∈ registry.sourcesFor link metric, entry.source = source) ↔
        ∃ declaration ∈ registry.declarations, declaration.source = source ∧ scopedTo declaration link = true ∧
          Measures declaration metric := by
      constructor
      · rintro ⟨entry, hentry, rfl⟩
        exact declares_of_listed link ((registry.sourcesFor_perm link metric).mem_iff.mp hentry)
      · rintro ⟨declaration, hmem, hsource, hscope, capability, hcapability, hmetric⟩
        exact ⟨_, hlisted hmem hscope hcapability hmetric, hsource⟩
    rw [hreports, hentries]
    refine ⟨fun h => h.mpr, fun h => ⟨?_, h⟩⟩
    rintro ⟨declaration, hfound, hmeasures⟩
    obtain ⟨hmem, hsource, hscope⟩ := hfirst hfound
    exact ⟨declaration, hmem, hsource, hscope, hmeasures⟩
  · rw [capabilityOf_eq] at hcapability
    obtain ⟨declaration, hfound, hmetrics⟩ := Option.bind_eq_some_iff.mp hcapability
    obtain ⟨hmem, hsource, hscope⟩ := hfirst hfound
    have hmeasured := hlisted hmem hscope (List.mem_of_find?_eq_some hmetrics) (by simpa using List.find?_some hmetrics)
    have hthere : measuredBy declaration capability ∈
        (registry.sourcesFor link metric).filter fun entry => entry.source = source :=
      List.mem_filter.mpr ⟨hmeasured, decide_eq_true hsource⟩
    rw [honly, List.mem_singleton] at hthere
    rw [← hthere]
    rfl

/-- The source declares one metric everywhere and another for one link. There it may report the first only, and is
listed for the second as well. -/
theorem listed_not_reporting :
    let link : LinkIdentity := ⟨text "l", 1⟩
    let registry := declareAll twoGauges (empty .defaults) [revised 1 none "a", revised 1 (some link) "b"]
    registry.capabilityOf link ⟨.environmental, text "b"⟩ ⟨text "s", 1⟩ = none ∧
      (registry.sourcesFor link ⟨.environmental, text "b"⟩).map DeclaredSource.source = [⟨text "s", 1⟩] := by
  decide +kernel

end Lqf.CapabilityRegistry
