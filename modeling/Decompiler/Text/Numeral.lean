/- # Decompiler.Text.Numeral — decimal numerals with an optional sign

A numeral is one or more ASCII digits, leading zeros included, after an optional sign.
The unsigned form allows only a plus sign. Numbers that the word cannot hold have no
numeral.
-/

namespace Decompiler.Text

set_option autoImplicit false

/-- The number that a nonempty row of digits denotes. -/
def digits? (text : List Char) : Option Nat :=
  if text ≠ [] ∧ text.all Char.isDigit then
    some (text.foldl (fun value c => 10 * value + (c.toNat - '0'.toNat)) 0)
  else
    none

/-- An optional plus sign and digits. -/
def unsigned? : List Char → Option Nat
  | '+' :: rest => digits? rest
  | text => digits? text

/-- An optional sign and digits. -/
def signed? : List Char → Option Int
  | '-' :: rest => (digits? rest).map fun value => -(value : Int)
  | text => (unsigned? text).map fun value => (value : Int)

/-- An unsigned numeral below 2³². -/
def uint32? (text : List Char) : Option UInt32 :=
  match unsigned? text with
  | some value => if value < 0x100000000 then some (UInt32.ofNat value) else none
  | none => none

/-- A signed numeral from -2³¹ to 2³¹ - 1. -/
def int32? (text : List Char) : Option Int32 :=
  match signed? text with
  | some value =>
      if -0x80000000 ≤ value ∧ value < 0x80000000 then some (Int32.ofInt value) else none
  | none => none

end Decompiler.Text
