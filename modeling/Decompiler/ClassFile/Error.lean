/- # Decompiler.ClassFile.Error — why an attribute body is malformed

Every cause means that nothing was decoded. Its wording is in one place,
`DecodeError.message`.
-/
import Decompiler.Text.Hex
import Decompiler.ClassFile.Constant

namespace Decompiler.ClassFile

set_option autoImplicit false

inductive DecodeError where
  /-- The bytes end inside a field of `needed` bytes that starts at `offset`. -/
  | unexpectedEnd (offset needed remaining : Nat)
  /-- The symbol table has no entry at `index`. -/
  | unresolvedIndex (index : UInt16)
  /-- The entry at `index` is of another kind than the field needs. -/
  | kindMismatch (index : UInt16) (expected found : Constant.Kind)
  | invalidElementTag (tag : UInt8)
  | unknownTarget (tag : UInt8)
  | invalidDescriptor (text : String)
  /-- A whole body was decoded and bytes are left over. -/
  | trailingBytes (offset remaining : Nat)
deriving DecidableEq, Repr

namespace DecodeError

/-- What is wrong, after the words common to every cause. -/
def detail : DecodeError → String
  | unexpectedEnd offset needed remaining =>
      s!"unexpected end of data at offset {offset} (needed {needed} bytes, {remaining} left)"
  | unresolvedIndex index => s!"constant pool index {index} does not resolve"
  | kindMismatch index expected found =>
      s!"constant #{index} is {found.name}, expected {expected.name}"
  | invalidElementTag tag => s!"invalid element tag 0x{Text.hexByte tag}"
  | unknownTarget tag => s!"unknown target type 0x{Text.hexByte tag}"
  | invalidDescriptor text => s!"invalid field descriptor `{text}`"
  | trailingBytes offset remaining => s!"{remaining} trailing bytes after offset {offset}"

def message (error : DecodeError) : String :=
  "malformed attribute: " ++ error.detail

end DecodeError

end Decompiler.ClassFile
