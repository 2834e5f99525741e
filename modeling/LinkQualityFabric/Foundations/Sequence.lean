import Mathlib

/-! Runs of consecutive 64-bit numbers, with the wrap of the machine counter. -/
namespace Foundations
set_option autoImplicit false

def countFrom : UInt64 → ℕ → List UInt64
  | _, 0 => []
  | first, count + 1 => first :: countFrom (first + 1) count

variable (first : UInt64) (count : ℕ)

@[simp] theorem countFrom_zero : countFrom first 0 = [] := rfl

theorem countFrom_succ : countFrom first (count + 1) = first :: countFrom (first + 1) count := rfl

@[simp] theorem countFrom_length : (countFrom first count).length = count := by
  induction count generalizing first with
  | zero => rfl
  | succ count ih => rw [countFrom_succ, List.length_cons, ih]

theorem ofNat_succ_add : first + 1 + UInt64.ofNat count = first + UInt64.ofNat (count + 1) := by
  rw [UInt64.ofNat_add, UInt64.add_assoc]
  congr 1
  exact UInt64.add_comm _ _

theorem ofNat_add_succ : first + UInt64.ofNat count + 1 = first + UInt64.ofNat (count + 1) := by
  rw [UInt64.ofNat_add, UInt64.add_assoc]
  rfl

theorem countFrom_add (more : ℕ) :
    countFrom first (count + more) = countFrom first count ++ countFrom (first + UInt64.ofNat count) more := by
  induction count generalizing first with
  | zero => simp
  | succ count ih =>
    have h : count + 1 + more = count + more + 1 := by omega
    rw [h, countFrom_succ, countFrom_succ, ih, ofNat_succ_add, List.cons_append]

theorem countFrom_snoc : countFrom first (count + 1) = countFrom first count ++ [first + UInt64.ofNat count] := by
  rw [countFrom_add]
  rfl

theorem mem_countFrom {first value : UInt64} {count : ℕ} :
    value ∈ countFrom first count ↔ ∃ i < count, value = first + UInt64.ofNat i := by
  induction count with
  | zero => simp
  | succ count ih =>
    rw [countFrom_snoc, List.mem_append, ih, List.mem_singleton]
    constructor
    · rintro (⟨i, hi, rfl⟩ | rfl)
      · exact ⟨i, by omega, rfl⟩
      · exact ⟨count, by omega, rfl⟩
    · rintro ⟨i, hi, rfl⟩
      by_cases hlast : i = count
      · exact Or.inr (by rw [hlast])
      · exact Or.inl ⟨i, by omega, rfl⟩

theorem next_not_mem_countFrom (h : count < 2 ^ 64) : first + UInt64.ofNat count ∉ countFrom first count := by
  intro hmem
  obtain ⟨i, hi, heq⟩ := mem_countFrom.mp hmem
  have hnat : UInt64.ofNat count = UInt64.ofNat i := (UInt64.add_right_inj _).mp heq
  have hmod := congrArg UInt64.toNat hnat
  rw [UInt64.toNat_ofNat', UInt64.toNat_ofNat', Nat.mod_eq_of_lt h, Nat.mod_eq_of_lt (by omega)] at hmod
  omega

theorem countFrom_nodup (h : count ≤ 2 ^ 64) : (countFrom first count).Nodup := by
  induction count with
  | zero => simp
  | succ count ih =>
    rw [countFrom_snoc]
    refine List.nodup_append.mpr ⟨ih (by omega), by simp, ?_⟩
    intro a ha b hb hab
    rw [List.mem_singleton] at hb
    subst hab
    rw [hb] at ha
    exact next_not_mem_countFrom first count (by omega) ha

end Foundations
