import LinkQualityFabric.Core.Status

/-! Numbers of the source: IEEE binary64 values, checked 64-bit arithmetic and their renderings
(`lqf/core/checked.hpp`, `src/core/text.cpp`).

A `double` is its bit pattern. Comparisons read the pattern as sign and magnitude, which orders all
values that are not NaN and identifies the two zeros; every comparison with a NaN is false. -/
namespace Lqf
open Foundations
set_option autoImplicit false

structure Double where
  bits : UInt64
  deriving DecidableEq, Repr, Inhabited

namespace Double

def sign (d : Double) : Bool := 2 ^ 63 ≤ d.bits.toNat
def exponent (d : Double) : ℕ := d.bits.toNat / 2 ^ 52 % 2 ^ 11
def fraction (d : Double) : ℕ := d.bits.toNat % 2 ^ 52

def isNan (d : Double) : Bool := d.exponent = 2047 && d.fraction ≠ 0

def isInf (d : Double) : Bool := d.exponent = 2047 && d.fraction = 0

def isFinite (d : Double) : Bool := d.exponent ≠ 2047

/-- The position of a value in the order of the extended reals. -/
def rank (d : Double) : ℤ :=
  if d.sign then -((d.bits.toNat % 2 ^ 63 : ℕ) : ℤ) else ((d.bits.toNat % 2 ^ 63 : ℕ) : ℤ)

def lt (a b : Double) : Bool := !a.isNan && !b.isNan && decide (a.rank < b.rank)

def le (a b : Double) : Bool := !a.isNan && !b.isNan && decide (a.rank ≤ b.rank)

def eq (a b : Double) : Bool := !a.isNan && !b.isNan && decide (a.rank = b.rank)

def zero : Double := ⟨0⟩
def quarter : Double := ⟨0x3FD0000000000000⟩
def threeQuarters : Double := ⟨0x3FE8000000000000⟩
def one : Double := ⟨0x3FF0000000000000⟩
def positiveInfinity : Double := ⟨0x7FF0000000000000⟩
def negativeInfinity : Double := ⟨0xFFF0000000000000⟩

/-- The numerator over `2 ^ 1074` of a finite value: every finite binary64 is a multiple of the least
subnormal. -/
def units (d : Double) : ℤ :=
  let magnitude : ℕ :=
    if d.exponent = 0 then d.fraction else (2 ^ 52 + d.fraction) * 2 ^ (d.exponent - 1)
  if d.sign then -(magnitude : ℤ) else (magnitude : ℤ)

end Double

def checkedAddI64 (lhs rhs : Int64) : Option Int64 :=
  if (rhs > 0 ∧ lhs > Int64.maxValue - rhs) ∨ (rhs < 0 ∧ lhs < Int64.minValue - rhs) then none
  else some (lhs + rhs)

-- The one subtrahend without a negation is refused before it is negated.
def checkedSubI64 (lhs rhs : Int64) : Option Int64 :=
  if rhs = Int64.minValue then none else checkedAddI64 lhs (-rhs)

/-! ## Renderings -/

def formatNat (value : ℕ) : Text := text (toString value)

def formatU64 (value : UInt64) : Text := formatNat value.toNat

def formatI64 (value : Int64) : Text := text (toString value.toInt)

namespace Double

/-- The decimal `m * 10 ^ exponent` next to the value, below or above, that lies in the interval of
decimals read back as this value; the nearer one, and of two equally near ones the even one. All sides
are compared in multiples of `2 ^ -1076 * 10 ^ min 0 exponent`. -/
def decimalAt (d : Double) (exponent : ℤ) : Option ℕ :=
  let magnitude := d.units.natAbs
  let ulp : ℕ := 2 ^ (max d.exponent 1 - 1)
  let scale : ℕ := 10 ^ (-exponent).toNat
  let step : ℕ := 2 ^ 1076 * 10 ^ exponent.toNat
  let value := 4 * magnitude * scale
  let high := (4 * magnitude + 2 * ulp) * scale
  let low := (4 * magnitude - if d.fraction = 0 ∧ 1 < d.exponent then ulp else 2 * ulp) * scale
  let inside (m : ℕ) : Bool :=
    0 < m && (if d.fraction % 2 = 0 then low ≤ m * step && m * step ≤ high
      else low < m * step && m * step < high)
  let below := value / step
  let fromBelow := value - below * step
  let fromAbove := (below + 1) * step - value
  if inside below && inside (below + 1) then
    some (if fromBelow < fromAbove ∨ (fromBelow = fromAbove ∧ below % 2 = 0) then below else below + 1)
  else if inside below then some below
  else if inside (below + 1) then some (below + 1)
  else none

/-- The digits of the shortest decimal that reads back as the value, with their exponent: the largest
exponent that has one. -/
def shortestDecimal (d : Double) : ℕ × ℤ :=
  ((List.range 633).findSome? fun (index : ℕ) =>
    (d.decimalAt (308 - index)).map fun m => (m, (308 - index : ℤ))).getD (0, 0)

-- `%e`: one digit before the point, and at least two in the exponent.
def scientific (digits : Text) (exponent : ℤ) : Text :=
  let point := exponent + digits.length - 1
  let magnitude := formatNat point.natAbs
  digits.take 1 ++ (if 1 < digits.length then text "." ++ digits.drop 1 else []) ++ text "e" ++
    (if point < 0 then text "-" else text "+") ++
    (if magnitude.length < 2 then text "0" ++ magnitude else magnitude)

-- `%f`: an integral value is written out exactly, any other with its shortest digits.
def fixed (d : Double) (digits : Text) (exponent : ℤ) : Text :=
  if 0 ≤ exponent then formatNat (d.units.natAbs / 2 ^ 1074)
  else
    let places := exponent.natAbs
    if places < digits.length then
      digits.take (digits.length - places) ++ text "." ++ digits.drop (digits.length - places)
    else text "0." ++ List.replicate (places - digits.length) 48 ++ digits

/-- `std::to_chars` on a finite value: the shorter of the two notations, `%f` when they are equally
long. -/
def toChars (d : Double) : Text :=
  let sign := if d.sign then text "-" else []
  if d.units = 0 then sign ++ text "0"
  else
    let decimal := d.shortestDecimal
    let digits := formatNat decimal.1
    let fixedText := d.fixed digits decimal.2
    let scientificText := scientific digits decimal.2
    sign ++ if fixedText.length ≤ scientificText.length then fixedText else scientificText

end Double

def containsText (haystack needle : Text) : Bool :=
  (List.range (haystack.length + 1)).any fun start => (haystack.drop start).take needle.length = needle

/-- `text::format_double`: a rendering without point or exponent gets an explicit `.0`. -/
def formatDouble (value : Double) : Text :=
  if value.isNan then text "nan"
  else if value.isInf then (if Double.zero.lt value then text "inf" else text "-inf")
  else
    let out := value.toChars
    if !containsText out (text ".") && !containsText out (text "e") && !containsText out (text "E") &&
        !containsText out (text "inf") && !containsText out (text "nan") then
      out ++ text ".0"
    else out

def hexBytes (data : Bytes) : Text :=
  data.flatMap fun byte =>
    let digit (value : ℕ) : UInt8 := (text "0123456789abcdef").getD value 0
    [digit (byte.toNat / 16 % 16), digit (byte.toNat % 16)]

@[simp] theorem hexBytes_length (data : Bytes) : (hexBytes data).length = 2 * data.length := by
  induction data with
  | nil => rfl
  | cons byte rest ih =>
    simp only [hexBytes, List.flatMap_cons, List.length_append, List.length_cons, List.length_nil] at ih ⊢
    omega

end Lqf
