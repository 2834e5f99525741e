import Mathlib

/-! Fixed-width little-endian words over byte lists.

A word of `width` bytes is the low `8 * width` bits of a natural number, low byte first. The two
directions are inverse on words of the right width, and reading the front of a longer byte list
sees only the word that was written there. Nothing here knows what the words are used for. -/
namespace Foundations
set_option autoImplicit false

abbrev Bytes := List UInt8

/-- The `width` low bytes of `value`, low byte first. -/
def leBytes : ℕ → ℕ → Bytes
  | 0, _ => []
  | width + 1, value => UInt8.ofNat (value % 256) :: leBytes width (value / 256)

def leValue : Bytes → ℕ
  | [] => 0
  | byte :: rest => byte.toNat + 256 * leValue rest

variable (width value : ℕ) (bytes : Bytes)

@[simp] theorem leBytes_length : (leBytes width value).length = width := by
  induction width generalizing value with
  | zero => rfl
  | succ width ih => simp [leBytes, ih]

theorem leValue_leBytes : leValue (leBytes width value) = value % 256 ^ width := by
  induction width generalizing value with
  | zero => simp [leBytes, leValue, Nat.mod_one]
  | succ width ih =>
    have hbyte : (UInt8.ofNat (value % 256)).toNat = value % 256 := by
      rw [UInt8.toNat_ofNat']
      exact Nat.mod_eq_of_lt (Nat.mod_lt _ (by norm_num))
    rw [leBytes, leValue, hbyte, ih, pow_succ', Nat.mod_mul]

theorem leValue_leBytes_of_lt {width value : ℕ} (h : value < 256 ^ width) :
    leValue (leBytes width value) = value := by
  rw [leValue_leBytes, Nat.mod_eq_of_lt h]

theorem leBytes_leValue : leBytes bytes.length (leValue bytes) = bytes := by
  induction bytes with
  | nil => rfl
  | cons byte rest ih =>
    have hbyte := byte.toNat_lt
    have hlow : (byte.toNat + 256 * leValue rest) % 256 = byte.toNat := by omega
    have hhigh : (byte.toNat + 256 * leValue rest) / 256 = leValue rest := by omega
    rw [List.length_cons, leValue, leBytes, hlow, hhigh, ih, UInt8.ofNat_toNat]

theorem leValue_lt : leValue bytes < 256 ^ bytes.length := by
  induction bytes with
  | nil => simp [leValue]
  | cons byte rest ih =>
    have hb := byte.toNat_lt
    rw [leValue, List.length_cons, pow_succ]
    omega

theorem leValue_take_append {width value : ℕ} (h : value < 256 ^ width) (rest : Bytes) :
    leValue ((leBytes width value ++ rest).take width) = value := by
  rw [List.take_left' (leBytes_length width value), leValue_leBytes_of_lt h]

/-! ## Words of the machine widths -/

theorem leValue_u64 (value : UInt64) (rest : Bytes) :
    UInt64.ofNat (leValue ((leBytes 8 value.toNat ++ rest).take 8)) = value := by
  have h : value.toNat < 256 ^ 8 := by have := value.toNat_lt; omega
  rw [leValue_take_append h, UInt64.ofNat_toNat]

end Foundations
