import Mathlib

/-! The best value of a list, kept while the list is walked.

A walk that keeps what it has unless something ranks strictly higher ends with a value of the highest rank, the first
of them in the list. The values may have to meet a condition for the comparison to mean anything. -/
namespace Foundations
set_option autoImplicit false

variable {ι α β : Type*} [LinearOrder β]

/-- One of the values, and no value ranks higher. -/
structure IsBest (rank : α → β) (values : List α) (best : α) : Prop where
  mem : best ∈ values
  upper : ∀ value ∈ values, rank value ≤ rank best

theorem IsBest.prepend {rank : α → β} {values : List α} {kept best : α} (h : IsBest rank (kept :: values) best)
    {passed : α} (hpassed : rank passed ≤ rank kept) : IsBest rank (passed :: kept :: values) best := by
  refine ⟨List.mem_cons_of_mem _ h.mem, fun value hvalue => ?_⟩
  rcases List.mem_cons.mp hvalue with rfl | hlater
  · exact hpassed.trans (h.upper kept List.mem_cons_self)
  · exact h.upper value hlater

theorem IsBest.perm {rank : α → β} {values values' : List α} {best : α} (h : IsBest rank values best)
    (hsame : ∀ value, value ∈ values' ↔ value ∈ values) : IsBest rank values' best :=
  ⟨(hsame best).mpr h.mem, fun value hvalue => h.upper value ((hsame value).mp hvalue)⟩

theorem IsBest.unique {rank : α → β} (hrank : Function.Injective rank) {values : List α} {best best' : α}
    (h : IsBest rank values best) (h' : IsBest rank values best') : best = best' :=
  hrank ((h'.upper best h.mem).antisymm (h.upper best' h'.mem))

section Walk
variable (rank : α → β) (meets : α → Prop) (select : α → α → α) (value : ι → α)

theorem foldl_select (hselect : ∀ kept found : α, meets kept → meets found →
      select kept found = if rank kept < rank found then found else kept)
    (entries : List ι) {first : α} (hfirst : meets first) (hentries : ∀ entry ∈ entries, meets (value entry)) :
    IsBest rank (first :: entries.map value) (entries.foldl (fun kept entry => select kept (value entry)) first) := by
  induction entries generalizing first with
  | nil => exact ⟨List.mem_cons_self, fun other hother => (List.mem_singleton.mp hother ▸ le_refl _)⟩
  | cons entry rest ih =>
    have hentry := hentries entry List.mem_cons_self
    have hrest : ∀ other ∈ rest, meets (value other) := fun other hother =>
      hentries other (List.mem_cons_of_mem _ hother)
    rw [List.foldl_cons, List.map_cons, hselect first (value entry) hfirst hentry]
    split
    · next hlower => exact (ih hentry hrest).prepend hlower.le
    · next hnot =>
      refine ((ih hfirst hrest).prepend (not_lt.mp hnot)).perm fun other => ?_
      simp only [List.mem_cons]
      tauto

end Walk

/-! ## The first of the best -/

/-- No value ranks higher, and no value in front ranks as high. -/
def IsFirstBest (rank : α → β) (values : List α) (best : α) : Prop :=
  ∃ front back, values = front ++ best :: back ∧ (∀ value ∈ front, rank value < rank best) ∧
    ∀ value ∈ back, rank value ≤ rank best

variable {rank : α → β} {values : List α} {best best' : α}

theorem IsFirstBest.isBest (h : IsFirstBest rank values best) : IsBest rank values best := by
  obtain ⟨front, back, rfl, hfront, hback⟩ := h
  refine ⟨List.mem_append_right _ List.mem_cons_self, fun value hvalue => ?_⟩
  rcases List.mem_append.mp hvalue with hmem | hmem
  · exact (hfront value hmem).le
  · rcases List.mem_cons.mp hmem with rfl | hlater
    · exact le_refl _
    · exact hback value hlater

theorem IsFirstBest.append (h : IsFirstBest rank values best) (value : α) :
    IsFirstBest rank (values ++ [value]) (if rank best < rank value then value else best) := by
  split
  · next hlower =>
    exact ⟨values, [], rfl, fun passed hpassed => (h.isBest.upper passed hpassed).trans_lt hlower,
      fun _ hnone => absurd hnone List.not_mem_nil⟩
  · next hnot =>
    obtain ⟨front, back, rfl, hfront, hback⟩ := h
    refine ⟨front, back ++ [value], by simp, hfront, fun passed hpassed => ?_⟩
    rcases List.mem_append.mp hpassed with hmem | hmem
    · exact hback passed hmem
    · rw [List.mem_singleton.mp hmem]
      exact not_lt.mp hnot

theorem isFirstBest_foldl (first : α) (later : List α) :
    IsFirstBest rank (first :: later) (later.foldl (fun kept value => if rank kept < rank value then value else kept)
      first) := by
  have hwalk : ∀ (later passed : List α) (kept : α), IsFirstBest rank passed kept → IsFirstBest rank (passed ++ later)
      (later.foldl (fun kept value => if rank kept < rank value then value else kept) kept) := by
    intro later
    induction later with
    | nil => exact fun passed kept h => by simpa using h
    | cons value rest ih =>
      intro passed kept h
      have hrest := ih (passed ++ [value]) _ (h.append value)
      rwa [List.append_assoc] at hrest
  exact hwalk later [first] first ⟨[], [], rfl, by simp, by simp⟩

theorem IsFirstBest.unique (h : IsFirstBest rank values best) (h' : IsFirstBest rank values best') : best = best' := by
  obtain ⟨front, back, rfl, hfront, hback⟩ := h
  obtain ⟨front', back', hvalues, hfront', hback'⟩ := h'
  rcases List.append_eq_append_iff.mp hvalues with ⟨middle, rfl, hrest⟩ | ⟨middle, rfl, hrest⟩
  · cases middle with
    | nil => exact (List.cons.inj hrest).1
    | cons value middle =>
      obtain ⟨rfl, rfl⟩ := List.cons.inj hrest
      exact absurd (hfront' best (by simp)) (not_lt.mpr (hback best' (by simp)))
  · cases middle with
    | nil => exact (List.cons.inj hrest).1.symm
    | cons value middle =>
      obtain ⟨rfl, rfl⟩ := List.cons.inj hrest
      exact absurd (hfront best' (by simp)) (not_lt.mpr (hback' best (by simp)))

end Foundations
