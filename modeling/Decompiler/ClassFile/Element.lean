/- # Decompiler.ClassFile.Element — the tags of annotation element values

Nine tags announce a constant, one for each kind of value an annotation can hold
directly; the other four announce an enum constant, a class literal, an array and a
nested annotation.
-/
import Decompiler.ClassFile.JavaType

namespace Decompiler.ClassFile

set_option autoImplicit false

/-- The kinds of element whose value is a constant. -/
inductive PrimitiveKind where
  | byte | char | double | float | int | long | short | boolean | string
deriving DecidableEq, Repr

namespace PrimitiveKind

def all : List PrimitiveKind :=
  [byte, char, double, float, int, long, short, boolean, string]

def letter : PrimitiveKind → Char
  | byte => 'B'
  | char => 'C'
  | double => 'D'
  | float => 'F'
  | int => 'I'
  | long => 'J'
  | short => 'S'
  | boolean => 'Z'
  | string => 's'

def tag (kind : PrimitiveKind) : UInt8 := kind.letter.toUInt8

/-- The type of a value of this kind. -/
def type : PrimitiveKind → JavaType
  | byte => .ofBase .byte
  | char => .ofBase .char
  | double => .ofBase .double
  | float => .ofBase .float
  | int => .ofBase .int
  | long => .ofBase .long
  | short => .ofBase .short
  | boolean => .ofBase .boolean
  | string => .stringType

end PrimitiveKind

/-- What an element's tag byte announces. -/
inductive ElementTag where
  | primitive (kind : PrimitiveKind)
  | enumConstant
  | classLiteral
  | array
  | nested
deriving DecidableEq, Repr

namespace ElementTag

def byte : ElementTag → UInt8
  | primitive kind => kind.tag
  | enumConstant => 'e'.toUInt8
  | classLiteral => 'c'.toUInt8
  | array => '['.toUInt8
  | nested => '@'.toUInt8

def all : List ElementTag :=
  PrimitiveKind.all.map primitive ++ [enumConstant, classLiteral, array, nested]

/-- The tag written as `byte`, if there is one. -/
def ofByte? (byte : UInt8) : Option ElementTag :=
  all.find? (·.byte == byte)

end ElementTag

end Decompiler.ClassFile
