import Mathlib.Order.Fin.Basic

/-! Half-open pieces that tile a linear order from a start upwards, the last of them without an end. -/
namespace Foundations
set_option autoImplicit false

section Pieces
variable {α β : Type*} [LinearOrder α] (lower : β → α) (upper : β → Option α)

/-- The lower bound belongs to a piece, the upper one does not. -/
def Spans (piece : β) (x : α) : Prop := lower piece ≤ x ∧ ∀ bound ∈ upper piece, x < bound

/-- Each piece starts where the one before it ends. -/
inductive Tiles : α → List β → Prop
  | last {piece : β} (hopen : upper piece = none) : Tiles (lower piece) [piece]
  | next {piece : β} {bound : α} {rest : List β} (hupper : upper piece = some bound) (hlt : lower piece < bound)
      (hrest : Tiles bound rest) : Tiles (lower piece) (piece :: rest)

variable {lower upper} {start : α} {pieces : List β}

namespace Tiles

section
variable (h : Tiles lower upper start pieces)
include h

theorem start_le_lower {piece : β} (hpiece : piece ∈ pieces) : start ≤ lower piece := by
  induction h with
  | last _ => rw [List.mem_singleton.mp hpiece]
  | next _ hlt _ ih =>
    rcases List.mem_cons.mp hpiece with rfl | hlater
    · exact le_refl _
    · exact hlt.le.trans (ih hlater)

theorem exists_spans {x : α} (hx : start ≤ x) : ∃ piece ∈ pieces, Spans lower upper piece x := by
  induction h with
  | @last piece hopen =>
    exact ⟨piece, List.mem_cons_self, hx, fun bound hbound => by rw [hopen] at hbound; cases hbound⟩
  | @next piece bound rest hupper _ _ ih =>
    by_cases hin : x < bound
    · refine ⟨piece, List.mem_cons_self, hx, fun other hother => ?_⟩
      rw [hupper, Option.mem_some] at hother
      exact hother ▸ hin
    · obtain ⟨later, hlater, hspans⟩ := ih (not_lt.mp hin)
      exact ⟨later, List.mem_cons_of_mem _ hlater, hspans⟩

theorem index_le {x y : α} (hxy : x ≤ y) {i j : Fin pieces.length} (hi : Spans lower upper (pieces.get i) x)
    (hj : Spans lower upper (pieces.get j) y) : i ≤ j := by
  induction h with
  | last _ => exact Fin.le_of_eq (Fin.subsingleton_one.elim i j)
  | @next piece bound rest hupper _ hrest ih =>
    induction i using Fin.cases with
    | zero => exact Fin.zero_le _
    | succ i =>
      induction j using Fin.cases with
      | zero =>
        -- The later point would lie below the bound the earlier one is above.
        have hbelow : y < bound := hj.2 bound (by rw [List.get_cons_zero, hupper]; rfl)
        have habove : bound ≤ x := (hrest.start_le_lower (List.get_mem rest i)).trans hi.1
        exact absurd (hbelow.trans_le (habove.trans hxy)) (lt_irrefl _)
      | succ j => exact Fin.succ_le_succ_iff.mpr (ih hi hj)

theorem existsUnique_index {x : α} (hx : start ≤ x) :
    ∃! i : Fin pieces.length, Spans lower upper (pieces.get i) x := by
  obtain ⟨piece, hpiece, hspans⟩ := h.exists_spans hx
  obtain ⟨i, rfl⟩ := List.get_of_mem hpiece
  exact ⟨i, hspans, fun j hj => le_antisymm (h.index_le le_rfl hj hspans) (h.index_le le_rfl hspans hj)⟩

end

end Tiles

end Pieces

end Foundations
