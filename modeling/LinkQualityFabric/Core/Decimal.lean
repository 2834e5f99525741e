import LinkQualityFabric.Core.Number

/-! Decimal integers as text, written and read: `format_u64`, `trim_ascii` and `parse_u64` of
`src/core/text.cpp`. -/
namespace Lqf
set_option autoImplicit false

def isSpace (character : UInt8) : Bool := character = 32 || (9 ≤ character && character ≤ 13)

def trimAscii (value : Text) : Text := ((value.dropWhile isSpace).reverse.dropWhile isSpace).reverse

def isDecimal (character : UInt8) : Bool := 48 ≤ character && character ≤ 57

def decimalValue (digits : Text) : ℕ := digits.foldl (fun value digit => 10 * value + (digit.toNat - 48)) 0

-- `std::from_chars` reads digits only, and the source accepts no text that goes on after them.
def parseU64 (value : Text) : Outcome UInt64 := do
  let trimmed := trimAscii value
  refuseIf (trimmed = []) .invalid (text "empty unsigned integer")
  refuseIf (¬(trimmed.all isDecimal ∧ decimalValue trimmed < 2 ^ 64)) .invalid (text "malformed unsigned integer")
  return UInt64.ofNat (decimalValue trimmed)

theorem trimAscii_eq_self {value : Text} (h : ∀ character ∈ value, isSpace character = false) :
    trimAscii value = value := by
  have hkept : ∀ part : Text, (∀ character ∈ part, isSpace character = false) → part.dropWhile isSpace = part := by
    intro part hpart
    cases part with
    | nil => rfl
    | cons first rest => rw [List.dropWhile_cons_of_neg (by simp [hpart first])]
  rw [trimAscii, hkept value h, hkept _ (by simpa using h), List.reverse_reverse]

variable {value : ℕ} {character : Char}

theorem digit_bounds (h : character ∈ Nat.toDigits 10 value) : 48 ≤ character.toNat ∧ character.toNat ≤ 57 := by
  have hdigit := Nat.isDigit_of_mem_toDigits (by decide) (by decide) h
  simp only [Char.isDigit, ge_iff_le, Bool.and_eq_true, decide_eq_true_eq, UInt32.le_iff_toNat_le] at hdigit
  exact hdigit

theorem formatNat_eq (value : ℕ) :
    formatNat value = (Nat.toDigits 10 value).map fun character => UInt8.ofNat character.toNat := by
  unfold formatNat text
  rw [Nat.toString_eq_repr, Nat.repr_eq_ofList_toDigits, String.toUTF8, String.toByteArray_ofList]
  unfold List.utf8Encode
  rw [List.data_toByteArray, List.map_eq_flatMap]
  refine List.flatMap_congr fun character hdigit => ?_
  have hbounds := digit_bounds hdigit
  unfold String.utf8EncodeChar
  dsimp only
  rw [if_pos (show character.val.toNat ≤ 127 by exact hbounds.2.trans (by decide))]
  rfl

theorem toNat_digit (h : character ∈ Nat.toDigits 10 value) :
    (UInt8.ofNat character.toNat).toNat = character.toNat := by
  have hbounds := digit_bounds h
  exact Nat.mod_eq_of_lt (by omega)

theorem isDecimal_formatNat {character : UInt8} (h : character ∈ formatNat value) : isDecimal character = true := by
  rw [formatNat_eq] at h
  obtain ⟨digit, hdigit, rfl⟩ := List.mem_map.mp h
  have hbounds := digit_bounds hdigit
  have hnat := toNat_digit hdigit
  simp only [isDecimal, UInt8.le_iff_toNat_le, hnat, Bool.and_eq_true, decide_eq_true_eq]
  exact hbounds

theorem decimalValue_formatNat (value : ℕ) : decimalValue (formatNat value) = value := by
  rw [formatNat_eq, decimalValue, List.foldl_map]
  refine Eq.trans (List.foldl_ext _ _ _ fun total digit hdigit => ?_)
    (@Nat.ofDigitChars_toDigits 10 value (by decide) (by decide))
  rw [toNat_digit hdigit]
  rfl

theorem parseU64_formatU64 (value : UInt64) : parseU64 (formatU64 value) = .ok value := by
  have hspaces : ∀ character ∈ formatU64 value, isSpace character = false := by
    intro character hmem
    have hdecimal := isDecimal_formatNat hmem
    grind [isDecimal, isSpace]
  have hnonempty : formatU64 value ≠ [] := by
    rw [formatU64, formatNat_eq]
    simp
  have hdecimal : (formatU64 value).all isDecimal := List.all_eq_true.mpr fun _ => isDecimal_formatNat
  have hvalue : decimalValue (formatU64 value) = value.toNat := decimalValue_formatNat _
  simp [parseU64, trimAscii_eq_self hspaces, hnonempty, hdecimal, hvalue, value.toNat_lt, refuseIf]

end Lqf
