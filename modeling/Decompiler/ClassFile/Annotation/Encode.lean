/- # Decompiler.ClassFile.Annotation.Encode — annotations to bytes and a pool

An encoder writes bytes while it appends every constant they refer to to a pool, in the
order of the bytes and without sharing. It fails where the pool is full or a count does
not fit its field. Annotation types are written as class descriptors and class literals
as the descriptor of the type of that name.
-/
import Decompiler.ClassFile.Pool
import Decompiler.ClassFile.Annotation

namespace Decompiler.ClassFile

set_option autoImplicit false

/-- A writer of `α` that appends constants to a pool. -/
abbrev Encoder := StateT Pool Option

/-- The two bytes of a 16-bit number, high byte first. -/
def wordBytes (word : UInt16) : List UInt8 :=
  [UInt8.ofNat (word.toNat / 256), UInt8.ofNat (word.toNat % 256)]

namespace Encoder

/-- The index of a constant appended to the pool. -/
def constant (constant : Constant) : Encoder (List UInt8) := fun pool =>
  match pool.push? constant with
  | (some index, next) => some (wordBytes index, next)
  | (none, _) => none

def text (text : String) : Encoder (List UInt8) := constant (.text text)

/-- The 16-bit number of the items that follow. -/
def count (number : Nat) : Encoder (List UInt8) :=
  if number < 65536 then pure (wordBytes (UInt16.ofNat number)) else failure

end Encoder

mutual

def Value.encode : Value → Encoder (List UInt8)
  | .primitive kind constant => do
      return kind.tag :: (← Encoder.constant constant)
  | .classLiteral name => do
      let type := JavaType.ofBase (BaseType.ofReflectiveName name)
      return ElementTag.classLiteral.byte :: (← Encoder.text type.descriptor)
  | .enumConstant type name => do
      let descriptor ← Encoder.text type.descriptor
      let name ← Encoder.text name
      return ElementTag.enumConstant.byte :: (descriptor ++ name)
  | .array _ elements => do
      let count ← Encoder.count elements.length
      return ElementTag.array.byte :: (count ++ (← Value.encodeList elements))
  | .nested node => do
      return ElementTag.nested.byte :: (← node.encode)

def Value.encodeList : List Value → Encoder (List UInt8)
  | [] => return []
  | value :: rest => do
      let first ← value.encode
      return first ++ (← Value.encodeList rest)

def Annotation.encode : Annotation → Encoder (List UInt8)
  | ⟨typeName, pairs⟩ => do
      let type ← Encoder.text (JavaType.object typeName).descriptor
      let count ← Encoder.count pairs.length
      return type ++ count ++ (← ElementPair.encodeList pairs)

def ElementPair.encodeList : List ElementPair → Encoder (List UInt8)
  | [] => return []
  | pair :: rest => do
      let first ← pair.encode
      return first ++ (← ElementPair.encodeList rest)

def ElementPair.encode : ElementPair → Encoder (List UInt8)
  | ⟨name, value⟩ => do
      let name ← Encoder.text name
      return name ++ (← value.encode)

end

namespace Encoder

/-- A counted list, item by item. -/
def counted {α : Type} (item : α → Encoder (List UInt8)) (items : List α) :
    Encoder (List UInt8) := do
  let count ← count items.length
  let bodies ← items.mapM item
  return count ++ bodies.flatten

/-- The body of an annotations attribute. -/
def annotations (nodes : List Annotation) : Encoder (List UInt8) :=
  counted Annotation.encode nodes

end Encoder

end Decompiler.ClassFile
