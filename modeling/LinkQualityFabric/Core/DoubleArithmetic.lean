import LinkQualityFabric.Core.Number

/-! Arithmetic on IEEE binary64 values, rounded to nearest with ties to even.

Every operation is exact on the rational values of its operands and rounded once. Magnitudes are counted in multiples
of the least subnormal `2 ^ -1074`, the unit of `Double.units`: shifting a magnitude down by `s` places until it has
53 bits gives the pattern `s * 2 ^ 52 + significand`, for subnormal and for normal values alike. -/
namespace Lqf
set_option autoImplicit false

/-- The integer nearest to `numerator / denominator`, of two the even one. -/
def roundHalfEven (numerator denominator : ℕ) : ℕ :=
  let quotient := numerator / denominator
  let rest := numerator % denominator
  if 2 * rest < denominator ∨ (2 * rest = denominator ∧ quotient % 2 = 0) then quotient else quotient + 1

namespace Double

def quietNan : Double := ⟨0x7FF8000000000000⟩

def infinite (negative : Bool) : Double := if negative then negativeInfinity else positiveInfinity

def zeroOf (negative : Bool) : Double := if negative then ⟨0x8000000000000000⟩ else zero

/-- The pattern of the value nearest to `numerator / denominator` units, without its sign. -/
def nearestBits (numerator denominator : ℕ) : ℕ :=
  let shift := Nat.log2 (numerator / denominator) - 52
  min (shift * 2 ^ 52 + roundHalfEven numerator (denominator * 2 ^ shift)) 0x7FF0000000000000

def ofUnits (negative : Bool) (numerator denominator : ℕ) : Double :=
  ⟨UInt64.ofNat ((if negative then 2 ^ 63 else 0) + nearestBits numerator denominator)⟩

/-- `static_cast<double>` on an integer. -/
def ofInt (value : ℤ) : Double :=
  if value = 0 then zero else ofUnits (value < 0) (value.natAbs * 2 ^ 1074) 1

def sub (a b : Double) : Double :=
  if a.isNan ∨ b.isNan then quietNan
  else if a.isInf then (if b.isInf ∧ a.sign = b.sign then quietNan else a)
  else if b.isInf then infinite (!b.sign)
  else
    let difference := a.units - b.units
    if difference = 0 then zeroOf (a.sign && !b.sign) else ofUnits (difference < 0) difference.natAbs 1

def div (a b : Double) : Double :=
  let negative := a.sign != b.sign
  if a.isNan ∨ b.isNan then quietNan
  else if a.isInf then (if b.isInf then quietNan else infinite negative)
  else if b.isInf then zeroOf negative
  else if b.units = 0 then (if a.units = 0 then quietNan else infinite negative)
  else if a.units = 0 then zeroOf negative
  else ofUnits negative (a.units.natAbs * 2 ^ 1074) b.units.natAbs

/-- `std::min` and `std::max`: the first argument unless the second is strictly beyond it. -/
def minimum (a b : Double) : Double := if b.lt a then b else a

def maximum (a b : Double) : Double := if a.lt b then b else a

end Double

example : (Double.ofInt 1).div (Double.ofInt 4) = Double.quarter := by decide +kernel

example : (Double.ofInt 9007199254740993).sub (Double.ofInt 9007199254740992) = Double.zero := by decide +kernel

end Lqf
