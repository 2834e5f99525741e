import Mathlib

/-! Division by a polynomial over two elements, one message bit at a time.

A register of `w` bits is xored with the message bit in its least significant place and shifted right;
a one that leaves it brings the polynomial in. At most `w` bits fed one after the other are as good as
one word xored into the register before the shifts. When the polynomial has its highest bit, no shift
loses anything, and so a change of the message within `w` consecutive bits always shows in the
register. -/
namespace Foundations.ShiftRegister
set_option autoImplicit false

variable {w : ℕ} {polynomial register : BitVec w} {bits : List Bool}

def shift (polynomial register : BitVec w) : BitVec w :=
  if register.getLsbD 0 then (register >>> 1) ^^^ polynomial else register >>> 1

def feed (polynomial register : BitVec w) (bits : List Bool) : BitVec w :=
  bits.foldl (fun register bit => shift polynomial (register ^^^ (BitVec.ofBool bit).setWidth w)) register

/-- Bits as a word, the first one least significant. -/
def word : List Bool → BitVec w
  | [] => 0
  | bit :: rest => (BitVec.ofBool bit).setWidth w ^^^ (word rest <<< 1)

theorem feed_append (register : BitVec w) (before after : List Bool) :
    feed polynomial register (before ++ after) = feed polynomial (feed polynomial register before) after :=
  List.foldl_append

theorem getLsbD_word (bits : List Bool) (i : ℕ) :
    (word bits : BitVec w).getLsbD i = (decide (i < w) && bits.getD i false) := by
  induction bits generalizing i with
  | nil => simp [word]
  | cons bit rest ih =>
    cases i with
    | zero => simp [word, BitVec.getLsbD_setWidth]
    | succ i =>
      simp only [word, BitVec.getLsbD_xor, BitVec.getLsbD_setWidth, BitVec.getLsbD_ofBool, BitVec.getLsbD_shiftLeft,
        Nat.add_sub_cancel, ih, List.getD_cons_succ]
      by_cases hi : i + 1 < w
      · simp [hi, Nat.lt_of_succ_lt hi]
      · simp [hi]

/-! ## Words above the shifted bits -/

theorem shift_xor_shiftLeft (register : BitVec w) {high : BitVec w} (hfits : high.getLsbD (w - 1) = false) :
    shift polynomial (register ^^^ (high <<< 1)) = shift polynomial register ^^^ high := by
  have hback : (high <<< 1) >>> 1 = high := by
    refine BitVec.eq_of_getLsbD_eq fun i hi => ?_
    simp only [BitVec.getLsbD_ushiftRight, BitVec.getLsbD_shiftLeft, Nat.add_comm 1 i, Nat.add_sub_cancel]
    by_cases htop : i + 1 < w
    · simp [htop]
    · obtain rfl : i = w - 1 := by omega
      simp [hfits]
  simp only [shift, BitVec.getLsbD_xor, BitVec.getLsbD_shiftLeft, BitVec.ushiftRight_xor_distrib, hback]
  split <;> simp_all [BitVec.xor_assoc, BitVec.xor_comm high]

theorem shifts_xor_shiftLeft (count : ℕ) (register : BitVec w) {high : BitVec w}
    (hfits : ∀ i, w ≤ i + count → high.getLsbD i = false) :
    (shift polynomial)^[count] (register ^^^ (high <<< count)) = (shift polynomial)^[count] register ^^^ high := by
  induction count generalizing register with
  | zero => simp
  | succ count ih =>
    have htop : (high <<< count).getLsbD (w - 1) = false := by
      rw [BitVec.getLsbD_shiftLeft, hfits _ (by omega), Bool.and_false]
    rw [Function.iterate_succ_apply, Function.iterate_succ_apply, BitVec.shiftLeft_add, shift_xor_shiftLeft _ htop]
    exact ih _ fun i hi => hfits i (by omega)

theorem feed_eq (register : BitVec w) (hlength : bits.length ≤ w) :
    feed polynomial register bits = (shift polynomial)^[bits.length] (register ^^^ word bits) := by
  induction bits generalizing register with
  | nil => simp [feed, word]
  | cons bit rest ih =>
    rw [List.length_cons] at hlength
    have htop : (word rest : BitVec w).getLsbD (w - 1) = false := by
      rw [getLsbD_word, List.getD_eq_default _ _ (by omega), Bool.and_false]
    rw [List.length_cons, Function.iterate_succ_apply, word, ← BitVec.xor_assoc, shift_xor_shiftLeft _ htop]
    exact ih _ (by omega)

/-! ## Nothing is lost -/

section Lossless
variable (hpolynomial : polynomial.getLsbD (w - 1) = true)
include hpolynomial

theorem shift_injective : Function.Injective (shift polynomial) := by
  intro x y h
  -- The highest bit after a shift is the lowest bit before it.
  have hlow (z : BitVec w) : (shift polynomial z).getLsbD (w - 1) = z.getLsbD 0 := by
    have hpast : (z >>> 1).getLsbD (w - 1) = false := by
      rw [BitVec.getLsbD_ushiftRight]
      exact BitVec.getLsbD_of_ge _ _ (by omega)
    rw [shift]
    split <;> simp_all
  have hzero : x.getLsbD 0 = y.getLsbD 0 := by rw [← hlow, ← hlow, h]
  have hshifted : x >>> 1 = y >>> 1 := by
    simp only [shift, hzero] at h
    split at h
    · exact (BitVec.xor_left_inj _).mp h
    · exact h
  refine BitVec.eq_of_getLsbD_eq fun i _ => ?_
  cases i with
  | zero => exact hzero
  | succ i =>
    have hbit := congrArg (BitVec.getLsbD · i) hshifted
    simpa [Nat.add_comm] using hbit

theorem feed_injective (bits : List Bool) : Function.Injective (feed polynomial · bits) := by
  induction bits with
  | nil => exact fun _ _ h => h
  | cons bit rest ih => exact fun x y h => (BitVec.xor_left_inj _).mp (shift_injective hpolynomial (ih h))

theorem bits_eq_of_feed {a b : List Bool} (hlength : a.length = b.length) (hfits : a.length ≤ w)
    (h : feed polynomial register a = feed polynomial register b) : a = b := by
  rw [feed_eq _ hfits, feed_eq _ (hlength ▸ hfits), hlength] at h
  have hword := (BitVec.xor_right_inj _).mp ((shift_injective hpolynomial).iterate _ h)
  refine List.ext_getElem hlength fun i hi hi' => ?_
  have hbit := congrArg (BitVec.getLsbD · i) hword
  simp only [getLsbD_word] at hbit
  simpa [show i < w by omega, hi, hi'] using hbit

theorem feed_ne_of_burst {a b : List Bool} (hlength : a.length = b.length) (hne : a ≠ b) {start : ℕ}
    (hburst : ∀ i, a[i]? ≠ b[i]? → start ≤ i ∧ i < start + w) :
    feed polynomial register a ≠ feed polynomial register b := by
  have hbefore : a.take start = b.take start := by
    refine List.ext_getElem? fun i => ?_
    simp only [List.getElem?_take]
    split
    · next hi => exact not_not.mp fun hdiffer => absurd (hburst i hdiffer).1 (by omega)
    · rfl
  have hafter : (a.drop start).drop w = (b.drop start).drop w := by
    refine List.ext_getElem? fun i => ?_
    simp only [List.getElem?_drop]
    exact not_not.mp fun hdiffer => absurd (hburst _ hdiffer).2 (by omega)
  intro h
  have hparts (l : List Bool) : l = l.take start ++ ((l.drop start).take w ++ (l.drop start).drop w) := by simp
  rw [hparts a, hparts b, hbefore, hafter] at h hne
  simp only [feed_append] at h
  have hwindow := bits_eq_of_feed hpolynomial (by simp [hlength]) (by simp) (feed_injective hpolynomial _ h)
  exact hne (by rw [hwindow])

end Lossless

end Foundations.ShiftRegister
