/- # Decompiler.Text.Hex — lower-case hexadecimal numerals

`hex n` has no leading zeros and `hexByte` always has two digits.
-/

namespace Decompiler.Text

set_option autoImplicit false

/-- The lower-case hexadecimal numeral of `n`, without leading zeros. -/
def hex (n : Nat) : String :=
  String.ofList (Nat.toDigits 16 n)

/-- The two lower-case hexadecimal digits of a byte. -/
def hexByte (byte : UInt8) : String :=
  String.ofList [Nat.digitChar (byte.toNat / 16), Nat.digitChar (byte.toNat % 16)]

end Decompiler.Text
