/- # Decompiler.Binary.Shortest — the fewest digits that read back

A finite nonzero number stands for the interval of reals that round to it, ends
included exactly when its significand is even. `coarsest` finds the greatest power of
ten with a multiple in such an interval, on a scale where the number and the ends of
its interval are natural numbers; of two multiples the nearer one is taken, and the
greater one when the number lies halfway.
-/
import Decompiler.Binary.Format

namespace Decompiler.Binary

set_option autoImplicit false

/-- `digits · 10 ^ exponent`. -/
structure Decimal where
  digits : Nat
  exponent : Int
deriving DecidableEq, Repr

/-- A natural number between the ends of its interval. -/
structure Interval where
  low : Nat
  value : Nat
  high : Nat
  closed : Bool

namespace Interval

def contains (interval : Interval) (n : Nat) : Bool :=
  if interval.closed then interval.low ≤ n && n ≤ interval.high
  else interval.low < n && n < interval.high

/-- The multiple of `step` to write the value by, if the interval has one; its quotient by
`step`. -/
def multiple? (interval : Interval) (step : Nat) : Option Nat :=
  let below := interval.value / step
  match interval.contains (below * step), interval.contains ((below + 1) * step) with
  | true, false => some below
  | false, true => some (below + 1)
  | true, true =>
      if interval.value - below * step < (below + 1) * step - interval.value then some below
      else some (below + 1)
  | false, false => none

/-- The quotient and the exponent of the first hit among the powers of ten from `10 ^ n` down;
the value itself is the last resort. -/
def coarsest (interval : Interval) : Nat → Nat × Nat
  | 0 => (interval.value, 0)
  | n + 1 =>
      match interval.multiple? (Nat.pow 10 (n + 1)) with
      | some quotient => (quotient, n + 1)
      | none => interval.coarsest n

end Interval

namespace Format

/-- The interval of `significand · 2 ^ exponent` in units of `10 ^ -scale`, where `scale` is large
enough for its ends to be whole. Below a power of two the neighbours are closer by half, except at
the smallest exponent. -/
def interval (format : Format) (significand : Nat) (exponent : Int) (scale : Nat) : Interval :=
  let unit := fun quarters : Nat =>
    (quarters * Nat.pow 10 scale * Nat.pow 2 exponent.toNat) / (4 * Nat.pow 2 (-exponent).toNat)
  let near := significand = Nat.pow 2 format.fractionBits ∧ format.minExponent < exponent
  { low := unit (if near then 4 * significand - 1 else 4 * significand - 2)
    value := unit (4 * significand)
    high := unit (4 * significand + 2)
    closed := significand % 2 == 0 }

/-- The shortest decimal that reads back as `significand · 2 ^ exponent`. -/
def shortest (format : Format) (significand : Nat) (exponent : Int) : Decimal :=
  let scale := (2 - exponent).toNat
  let interval := format.interval significand exponent scale
  let (digits, power) := interval.coarsest (Nat.toDigits 10 interval.high).length
  ⟨digits, (power : Int) - scale⟩

end Format

namespace Decimal

/-- Positional notation: never an exponent, and no point in a whole number. -/
def positional (decimal : Decimal) : String :=
  let digits := Nat.toDigits 10 decimal.digits
  if 0 ≤ decimal.exponent then
    String.ofList (digits ++ List.replicate decimal.exponent.toNat '0')
  else
    let places := (-decimal.exponent).toNat
    let padded := List.replicate (places + 1 - digits.length) '0' ++ digits
    let whole := padded.length - places
    String.ofList (padded.take whole ++ '.' :: padded.drop whole)

end Decimal

/-- The text of the number that a word denotes: shortest digits in positional notation, `NaN`
without sign, `inf` for infinity, and `-0` for negative zero. -/
def Format.text (format : Format) (word : Nat) : String :=
  let signed := fun (negative : Bool) (body : String) => if negative then "-" ++ body else body
  match format.decode word with
  | .nan => "NaN"
  | .infinite negative => signed negative "inf"
  | .finite negative 0 _ => signed negative "0"
  | .finite negative significand exponent =>
      signed negative (format.shortest significand exponent).positional

end Decompiler.Binary
