import Mathlib

/-! Comparators for the keys of ordered maps.

A record that is compared field by field has a lexicographic comparator. When the fields determine the
record, the comparator tells records apart exactly, and the extensional tree maps of the standard
library can be used with the record as key. -/
namespace Foundations
open Std
set_option autoImplicit false

theorem lawfulEqCmp_compareLex {α : Type} {first second : α → α → Ordering} [ReflCmp first]
    [ReflCmp second] (hext : ∀ a b, first a b = .eq → second a b = .eq → a = b) :
    LawfulEqCmp (compareLex first second) where
  compare_self := by
    intro a
    rw [compareLex_eq_eq]
    exact ⟨ReflCmp.compare_self, ReflCmp.compare_self⟩
  eq_of_compare := by
    intro a b h
    obtain ⟨hfirst, hsecond⟩ := compareLex_eq_eq.mp h
    exact hext a b hfirst hsecond

theorem eq_of_compareOn {α β : Type} [Ord β] [LawfulEqOrd β] {view : α → β} {a b : α}
    (h : compareOn view a b = .eq) : view a = view b :=
  compare_eq_iff_eq.mp (show compare (view a) (view b) = .eq from h)

/-! ## Enumerations

An enumeration of the source is coded by the position of its value in the declaration. -/

class Enumeration (α : Type) [DecidableEq α] where
  values : List α
  complete : ∀ a : α, a ∈ values

namespace Enumeration
variable {α : Type} [DecidableEq α] [Enumeration α]

def code (a : α) : ℕ := (values : List α).idxOf a

def ofCode? (n : ℕ) : Option α := (values : List α)[n]?

theorem code_lt (a : α) : code a < (values : List α).length := List.idxOf_lt_length_of_mem (complete a)

theorem ofCode?_code (a : α) : ofCode? (code a) = some a := by
  have hlt : (values : List α).idxOf a < (values : List α).length := code_lt a
  unfold ofCode? code
  rw [List.getElem?_eq_getElem hlt, List.getElem_idxOf hlt]

theorem code_injective : Function.Injective (code : α → ℕ) := by
  intro a b h
  have hb := ofCode?_code b
  rw [← h, ofCode?_code a] at hb
  exact Option.some.inj hb

end Enumeration

/-! ## The keys of a finite map -/

section Maps
variable {κ ν : Type} [Ord κ] [TransOrd κ] [LawfulEqOrd κ] [DecidableEq κ]

def keySet (entries : ExtTreeMap κ ν) : Finset κ := entries.keys.toFinset

@[simp] theorem mem_keySet {entries : ExtTreeMap κ ν} {key : κ} : key ∈ keySet entries ↔ key ∈ entries := by
  rw [keySet, List.mem_toFinset, ExtTreeMap.mem_keys]

variable (entries : ExtTreeMap κ ν)

omit [DecidableEq κ] in
theorem keys_nodup : entries.keys.Nodup := by
  refine (ExtTreeMap.distinct_keys (t := entries)).imp ?_
  intro a b hne heq
  exact hne (compare_eq_iff_eq.mpr heq)

theorem card_keySet : (keySet entries).card = entries.size := by
  rw [keySet, List.toFinset_card_of_nodup (keys_nodup entries), ExtTreeMap.length_keys]

theorem keySet_insert (key : κ) (value : ν) : keySet (entries.insert key value) = insert key (keySet entries) := by
  ext other
  rw [mem_keySet, ExtTreeMap.mem_insert, Std.compare_eq_iff_eq, Finset.mem_insert, mem_keySet, eq_comm]

theorem length_filter_keys (p : κ → Prop) [DecidablePred p] :
    (entries.keys.filter fun key => p key).length = ((keySet entries).filter p).card := by
  have hnodup := (keys_nodup entries).filter fun key => decide (p key)
  have hset : (entries.keys.filter fun key => p key).toFinset = (keySet entries).filter p := by
    ext key
    simp [keySet]
  rw [← hset, List.toFinset_card_of_nodup hnodup]

omit [LawfulEqOrd κ] [DecidableEq κ] in
theorem values_eq : entries.values = entries.toList.map Prod.snd := by
  obtain ⟨⟨tree⟩⟩ := entries
  induction tree using Quotient.ind with
  | _ tree =>
    show tree.inner.values = (DTreeMap.Internal.Impl.Const.toList tree.inner).map Prod.snd
    rw [DTreeMap.Internal.Impl.Const.toList_eq_toListModel_map, DTreeMap.Internal.Impl.values_eq_map_snd, List.map_map]
    rfl

omit [DecidableEq κ] in
theorem mem_values {entries : ExtTreeMap κ ν} {value : ν} :
    value ∈ entries.values ↔ ∃ key : κ, entries[key]? = some value := by
  rw [values_eq, List.mem_map]
  constructor
  · rintro ⟨⟨key, found⟩, hentry, rfl⟩
    exact ⟨key, ExtTreeMap.mem_toList_iff_getElem?_eq_some.mp hentry⟩
  · rintro ⟨key, hkey⟩
    exact ⟨(key, value), ExtTreeMap.mem_toList_iff_getElem?_eq_some.mpr hkey, rfl⟩

omit [DecidableEq κ] in
theorem filterMap_toList_eq {μ : Type} {select select' : κ → ν → Option μ} {entries entries' : ExtTreeMap κ ν}
    (h : ∀ key : κ, (entries[key]?).bind (select key) = (entries'[key]?).bind (select' key)) :
    entries.toList.filterMap (fun entry => select entry.1 entry.2) =
      entries'.toList.filterMap fun entry => select' entry.1 entry.2 := by
  have hmap : entries.filterMap select = entries'.filterMap select' := by
    refine ExtTreeMap.ext_getElem? fun key => ?_
    rw [ExtTreeMap.getElem?_filterMap', ExtTreeMap.getElem?_filterMap']
    exact h key
  have hlist := congrArg (fun selected : ExtTreeMap κ μ => selected.toList.map Prod.snd) hmap
  simp only [ExtTreeMap.toList_filterMap, List.map_filterMap, Option.map_map, Function.comp_def] at hlist
  simpa using hlist

end Maps

end Foundations
