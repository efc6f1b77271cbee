/- # Decompiler.ClassFile.Attribute — whole attribute bodies

The body of an annotations attribute, visible or invisible at run time, is a counted
list that takes up all of its bytes.
-/
import Decompiler.ClassFile.TypeAnnotation.Decode

namespace Decompiler.ClassFile.Attribute

set_option autoImplicit false

/-- Decodes a body that must be used up. -/
def decodeWhole {α : Type} (decoder : Decoder α) (body : List UInt8) : Except DecodeError α :=
  match decoder (Cursor.start body) with
  | .ok value cursor =>
      if cursor.atEnd then .ok value
      else .error (.trailingBytes cursor.position cursor.remaining)
  | .error cause _ => .error cause

def annotations (symbols : SymbolTable) (body : List UInt8) : Except DecodeError (List Annotation) :=
  decodeWhole (Decoder.annotations symbols) body

def typeAnnotations (symbols : SymbolTable) (body : List UInt8) :
    Except DecodeError (List TypeAnnotation) :=
  decodeWhole (Decoder.typeAnnotations symbols) body

end Decompiler.ClassFile.Attribute
