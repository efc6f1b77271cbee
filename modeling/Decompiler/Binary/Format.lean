/- # Decompiler.Binary.Format — IEEE 754 words and the numbers they denote

A format is the width of its fraction field and of its exponent field. `decode`
splits a word into NaN, an infinity, or a sign with `significand · 2 ^ exponent`;
the pair is unique for a nonzero number, which is why `equal` may compare the
pairs.
-/

namespace Decompiler.Binary

set_option autoImplicit false

/-- What a word denotes. -/
inductive Datum where
  | nan
  | infinite (negative : Bool)
  | finite (negative : Bool) (significand : Nat) (exponent : Int)
deriving DecidableEq, Repr

/-- A binary interchange format. -/
structure Format where
  fractionBits : Nat
  exponentBits : Nat
deriving DecidableEq, Repr

namespace Format

/-- 32-bit words. -/
def single : Format := ⟨23, 8⟩

/-- 64-bit words. -/
def double : Format := ⟨52, 11⟩

/-- The exponent of the last fraction bit of the smallest numbers. -/
def minExponent (format : Format) : Int :=
  2 - Nat.pow 2 (format.exponentBits - 1) - format.fractionBits

/-- The exponent field that marks infinities and NaNs. -/
def specialField (format : Format) : Nat :=
  Nat.pow 2 format.exponentBits - 1

/-- The word of positive infinity. -/
def infinityWord (format : Format) : Nat :=
  format.specialField * Nat.pow 2 format.fractionBits

/-- The sign bit alone. -/
def signWord (format : Format) : Nat :=
  Nat.pow 2 (format.fractionBits + format.exponentBits)

/-- The datum a word denotes. -/
def decode (format : Format) (word : Nat) : Datum :=
  let fraction := word % Nat.pow 2 format.fractionBits
  let field := word / Nat.pow 2 format.fractionBits % Nat.pow 2 format.exponentBits
  let negative := word / format.signWord % 2 == 1
  if field = format.specialField then
    if fraction = 0 then .infinite negative else .nan
  else if field = 0 then
    .finite negative fraction format.minExponent
  else
    .finite negative (Nat.pow 2 format.fractionBits + fraction)
      (format.minExponent + (field - 1 : Nat))

/-- Equality of the numbers two words denote: no NaN equals anything, and the zeros agree. -/
def equal (format : Format) (a b : Nat) : Bool :=
  match format.decode a, format.decode b with
  | .infinite s, .infinite t => s == t
  | .finite s m e, .finite t n f => (m == 0 && n == 0) || (s == t && m == n && e == f)
  | _, _ => false

end Format

end Decompiler.Binary
