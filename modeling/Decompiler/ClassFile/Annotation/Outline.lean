/- # Decompiler.ClassFile.Annotation.Outline — a value tree as a flat list

The outline lists a tree in preorder, each entry with its depth. Counts stand for the
entries that follow one level deeper, so the list determines the tree.
-/
import Decompiler.ClassFile.Annotation

namespace Decompiler.ClassFile

set_option autoImplicit false

/-- One entry of an outline. -/
inductive OutlineEntry where
  | primitive (kind : PrimitiveKind) (constant : Constant)
  | classLiteral (name : String)
  | enumConstant (type : JavaType) (name : String)
  | array (type : JavaType) (count : Nat)
  | nested (typeName : String) (count : Nat)
  /-- The name of a pair whose value follows at the same depth. -/
  | pair (name : String)

abbrev Outline := List (Nat × OutlineEntry)

mutual

def Value.outline (depth : Nat) : Value → Outline
  | .primitive kind constant => [(depth, .primitive kind constant)]
  | .classLiteral name => [(depth, .classLiteral name)]
  | .enumConstant type name => [(depth, .enumConstant type name)]
  | .array type elements =>
      (depth, .array type elements.length) :: Value.outlineList (depth + 1) elements
  | .nested node => node.outline depth

def Value.outlineList (depth : Nat) : List Value → Outline
  | [] => []
  | value :: rest => value.outline depth ++ Value.outlineList depth rest

def Annotation.outline (depth : Nat) : Annotation → Outline
  | ⟨typeName, pairs⟩ =>
      (depth, .nested typeName pairs.length) :: ElementPair.outlineList (depth + 1) pairs

def ElementPair.outlineList (depth : Nat) : List ElementPair → Outline
  | [] => []
  | pair :: rest => pair.outline depth ++ ElementPair.outlineList depth rest

def ElementPair.outline (depth : Nat) : ElementPair → Outline
  | ⟨name, value⟩ => (depth, .pair name) :: value.outline depth

end

end Decompiler.ClassFile
