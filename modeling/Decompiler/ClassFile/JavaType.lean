/- # Decompiler.ClassFile.JavaType — types and their field descriptors

A type is a base type under a number of array dimensions, 255 at most. `descriptor`
writes it as class files do (`I`, `[J`, `Ljava/lang/String;`) and `ofDescriptor?`
reads that text back; a bare `V` is read as `void`, which has no arrays.
-/
import Decompiler.ClassFile.Error

namespace Decompiler.ClassFile

set_option autoImplicit false

/-- A type without its array dimensions. -/
inductive BaseType where
  | byte | char | double | float | int | long | short | boolean | void
  /-- A class or interface by internal name, such as `java/lang/String`. -/
  | object (name : String)
deriving DecidableEq, Repr

namespace BaseType

/-- The base types that are not classes. -/
def keywords : List BaseType :=
  [byte, char, double, float, int, long, short, boolean, void]

/-- The primitive type or `void` that a descriptor letter stands for. -/
def ofLetter? : Char → Option BaseType
  | 'B' => some byte
  | 'C' => some char
  | 'D' => some double
  | 'F' => some float
  | 'I' => some int
  | 'J' => some long
  | 'S' => some short
  | 'Z' => some boolean
  | 'V' => some void
  | _ => none

/-- The name reflection reports: a keyword, or a class's internal name. -/
def reflectiveName : BaseType → String
  | byte => "byte"
  | char => "char"
  | double => "double"
  | float => "float"
  | int => "int"
  | long => "long"
  | short => "short"
  | boolean => "boolean"
  | void => "void"
  | object name => name

/-- The keyword type of a reflective name, or the class of that name. -/
def ofReflectiveName : String → BaseType
  | "byte" => byte
  | "char" => char
  | "double" => double
  | "float" => float
  | "int" => int
  | "long" => long
  | "short" => short
  | "boolean" => boolean
  | "void" => void
  | name => object name

def descriptor : BaseType → List Char
  | byte => ['B']
  | char => ['C']
  | double => ['D']
  | float => ['F']
  | int => ['I']
  | long => ['J']
  | short => ['S']
  | boolean => ['Z']
  | void => ['V']
  | object name => 'L' :: (name.toList ++ [';'])

/-- Reads `L…;` with a nonempty name free of `;`, or a single letter. -/
def ofDescriptor? : List Char → Option BaseType
  | 'L' :: rest =>
      let name := rest.takeWhile (· != ';')
      if name ≠ [] ∧ rest.dropWhile (· != ';') = [';'] then
        some (object (String.ofList name))
      else
        none
  | [letter] => ofLetter? letter
  | _ => none

end BaseType

/-- A type: a base type and its array dimensions. -/
structure JavaType where
  base : BaseType
  dimensions : UInt8
deriving DecidableEq, Repr

namespace JavaType

def ofBase (base : BaseType) : JavaType := ⟨base, 0⟩

/-- The class type of an internal name. -/
def object (name : String) : JavaType := ofBase (.object name)

def stringType : JavaType := object "java/lang/String"

def classType : JavaType := object "java/lang/Class"

/-- `Object[]`, the type given to an array that has no element to tell its own. -/
def objectArray : JavaType := ⟨.object "java/lang/Object", 1⟩

/-- The array of this type; at 255 dimensions there is no further one. -/
def arrayOf (type : JavaType) : JavaType :=
  { type with dimensions := if type.dimensions = 255 then 255 else type.dimensions + 1 }

def descriptor (type : JavaType) : String :=
  String.ofList (List.replicate type.dimensions.toNat '[' ++ type.base.descriptor)

/-- The type that a descriptor denotes. -/
def ofDescriptor? (text : String) : Option JavaType :=
  let brackets := text.toList.takeWhile (· == '[')
  match BaseType.ofDescriptor? (text.toList.dropWhile (· == '[')) with
  | some base =>
      if brackets.length ≤ 255 ∧ (base = .void → brackets = []) then
        some ⟨base, UInt8.ofNat brackets.length⟩
      else
        none
  | none => none

/-- `ofDescriptor?` with the refusal carrying the text. -/
def parse (text : String) : Except DecodeError JavaType :=
  match ofDescriptor? text with
  | some type => .ok type
  | none => .error (.invalidDescriptor text)

/-- The source form: the reflective name and a pair of brackets per dimension. -/
def display (type : JavaType) : String :=
  type.base.reflectiveName ++ String.join (List.replicate type.dimensions.toNat "[]")

end JavaType

/-- The class name in the descriptor of an annotation's type: what stands between `L` and `;` if
that is not empty. Text of any other form is a name already. -/
def annotationClassName (descriptor : String) : String :=
  match descriptor.toList with
  | 'L' :: rest =>
      if rest.getLast? = some ';' ∧ rest.dropLast ≠ [] then
        String.ofList rest.dropLast
      else
        descriptor
  | _ => descriptor

end Decompiler.ClassFile
