/- # Decompiler.ClassFile.Constant.Text — constants as they are shown

Longs, floats and doubles carry a letter after their digits; text is quoted.
-/
import Decompiler.Binary.Shortest
import Decompiler.Text.Quoted
import Decompiler.ClassFile.Constant

namespace Decompiler.ClassFile

set_option autoImplicit false

def Constant.display : Constant → String
  | integer value => s!"{value.toInt}"
  | float word => Binary.Format.single.text word.toNat ++ "f"
  | long value => s!"{value.toInt}L"
  | double word => Binary.Format.double.text word.toNat ++ "d"
  | text value => Text.quoted value

end Decompiler.ClassFile
