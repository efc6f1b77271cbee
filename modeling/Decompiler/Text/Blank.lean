/- # Decompiler.Text.Blank — the characters with the Unicode property White_Space -/

namespace Decompiler.Text

set_option autoImplicit false

/-- The code points of White_Space, in ascending order and inclusive. -/
def blankRanges : List (Nat × Nat) :=
  [(0x9, 0xd), (0x20, 0x20), (0x85, 0x85), (0xa0, 0xa0), (0x1680, 0x1680), (0x2000, 0x200a),
   (0x2028, 0x2029), (0x202f, 0x202f), (0x205f, 0x205f), (0x3000, 0x3000)]

def isBlank (c : Char) : Bool :=
  blankRanges.any fun (first, last) => first ≤ c.toNat && c.toNat ≤ last

end Decompiler.Text
