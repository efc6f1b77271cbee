/- # Decompiler.ClassFile.Annotation — annotations as trees

An annotation names its type and lists its `name = value` pairs in the order of the
class file. Values nest through arrays and through annotations. An array made by
`Value.ofElements` takes its type from its first element; one that is stored and
restored keeps whatever type it was stored with, so `array` carries the type.
-/
import Decompiler.ClassFile.Element

namespace Decompiler.ClassFile

set_option autoImplicit false

mutual

/-- The value of an annotation element. -/
inductive Value where
  /-- A constant, under the kind its tag announced. -/
  | primitive (kind : PrimitiveKind) (constant : Constant)
  /-- A class by reflective name; array dimensions are not kept. -/
  | classLiteral (name : String)
  | enumConstant (type : JavaType) (name : String)
  /-- An array with the type of the whole array. -/
  | array (type : JavaType) (elements : List Value)
  | nested (node : Annotation)

/-- An annotation: its type and its pairs. -/
structure Annotation where
  typeName : String
  pairs : List ElementPair

/-- One `name = value` pair. -/
structure ElementPair where
  name : String
  value : Value

end

namespace Value

/-- The type of the value as an expression. -/
def type : Value → JavaType
  | primitive kind _ => kind.type
  | classLiteral _ => .classType
  | enumConstant type _ => type
  | array type _ => type
  | nested node => .object node.typeName

/-- The type of an array with these elements: the array of the first one's type, or `Object[]`. -/
def arrayType : List Value → JavaType
  | [] => .objectArray
  | first :: _ => first.type.arrayOf

/-- The array of these elements, with the type they give it. -/
def ofElements (elements : List Value) : Value :=
  array (arrayType elements) elements

end Value

namespace Annotation

/-- The value of the first pair called `name`. -/
def get? (node : Annotation) (name : String) : Option Value :=
  (node.pairs.find? (·.name == name)).map (·.value)

/-- The names of the pairs, in order. -/
def names (node : Annotation) : List String :=
  node.pairs.map (·.name)

end Annotation

/-! ## Equality of trees, with constants compared by the numbers they denote -/

mutual

def Value.same : Value → Value → Bool
  | .primitive kind constant, .primitive kind' constant' =>
      kind == kind' && constant.same constant'
  | .classLiteral name, .classLiteral name' => name == name'
  | .enumConstant type name, .enumConstant type' name' => type == type' && name == name'
  | .array type elements, .array type' elements' =>
      type == type' && Value.sameList elements elements'
  | .nested node, .nested node' => node.same node'
  | _, _ => false

def Value.sameList : List Value → List Value → Bool
  | [], [] => true
  | value :: rest, value' :: rest' => value.same value' && Value.sameList rest rest'
  | _, _ => false

def Annotation.same : Annotation → Annotation → Bool
  | ⟨typeName, pairs⟩, ⟨typeName', pairs'⟩ =>
      typeName == typeName' && ElementPair.sameList pairs pairs'

def ElementPair.sameList : List ElementPair → List ElementPair → Bool
  | [], [] => true
  | pair :: rest, pair' :: rest' => pair.same pair' && ElementPair.sameList rest rest'
  | _, _ => false

def ElementPair.same : ElementPair → ElementPair → Bool
  | ⟨name, value⟩, ⟨name', value'⟩ => name == name' && value.same value'

end

end Decompiler.ClassFile
