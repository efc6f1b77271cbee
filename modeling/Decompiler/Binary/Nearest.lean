/- # Decompiler.Binary.Nearest — rounding fractions to words

A fraction is rounded to the nearest number of a format, a half to the even neighbour;
what is too large becomes infinity.
-/
import Decompiler.Binary.Format

namespace Decompiler.Binary

set_option autoImplicit false

/-- `numerator / denominator` to the nearest whole number, a half to the even one. -/
def roundHalfEven (numerator denominator : Nat) : Nat :=
  let quotient := numerator / denominator
  let twice := 2 * (numerator % denominator)
  if twice < denominator ∨ (twice = denominator ∧ quotient % 2 = 0) then quotient else quotient + 1

/-- The greatest `k` with `2 ^ k ≤ numerator / denominator`, both positive. -/
def fractionLog2 (numerator denominator : Nat) : Int :=
  let estimate : Int := (numerator.log2 : Int) - denominator.log2
  if numerator * Nat.pow 2 (-estimate).toNat < denominator * Nat.pow 2 estimate.toNat then
    estimate - 1
  else
    estimate

namespace Format

/-- The word nearest to a fraction with positive denominator. -/
def nearest (format : Format) (negative : Bool) (numerator denominator : Nat) : Nat :=
  let magnitude :=
    if numerator = 0 then 0
    else
      let exponent :=
        max format.minExponent (fractionLog2 numerator denominator - format.fractionBits)
      let significand :=
        roundHalfEven (numerator * Nat.pow 2 (-exponent).toNat)
          (denominator * Nat.pow 2 exponent.toNat)
      min format.infinityWord
        ((exponent - format.minExponent).toNat * Nat.pow 2 format.fractionBits + significand)
  if negative then format.signWord + magnitude else magnitude

/-- The word of another format nearest to a number; a NaN becomes the quiet one without payload. -/
def convert (format : Format) : Datum → Nat
  | .nan => format.infinityWord + Nat.pow 2 (format.fractionBits - 1)
  | .infinite negative =>
      if negative then format.signWord + format.infinityWord else format.infinityWord
  | .finite negative significand exponent =>
      format.nearest negative (significand * Nat.pow 2 exponent.toNat)
        (Nat.pow 2 (-exponent).toNat)

end Format

end Decompiler.Binary
