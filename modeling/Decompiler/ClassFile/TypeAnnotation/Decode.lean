/- # Decompiler.ClassFile.TypeAnnotation.Decode — type annotations from bytes

```text
type_annotation := target:u8 info path annotation
path            := length:u8 (kind:u8 argument:u8)*
```

The target's shape fixes the layout of the information. Kinds of path steps are kept
as they are, meaningful or not.
-/
import Decompiler.ClassFile.Annotation.Decode
import Decompiler.ClassFile.TypeAnnotation

namespace Decompiler.ClassFile.Decoder

set_option autoImplicit false

def target : Decoder Target := do
  let tag ← u8
  match Target.ofTag? tag with
  | some target => return target
  | none => throw (.unknownTarget tag)

def localVarRange : Decoder LocalVarRange := do
  let startPc ← u16
  let length ← u16
  let index ← u16
  return ⟨startPc, length, index⟩

/-- Target information of a given shape. -/
def targetInfo : TargetShape → Decoder TargetInfo
  | .typeParameter => return .typeParameter (← u8)
  | .supertype => return .supertype (← u16)
  | .typeParameterBound => do
      let parameter ← u8
      let bound ← u8
      return .typeParameterBound parameter bound
  | .empty => return .empty
  | .formalParameter => return .formalParameter (← u8)
  | .throws => return .throws (← u16)
  | .localVar => return .localVar (← counted localVarRange)
  | .exceptionHandler => return .exceptionHandler (← u16)
  | .offset => return .offset (← u16)
  | .typeArgument => do
      let offset ← u16
      let argument ← u8
      return .typeArgument offset argument

def pathStep : Decoder PathStep := do
  let kind ← u8
  let argument ← u8
  return ⟨kind, argument⟩

def path : Decoder (List PathStep) := do
  let length ← u8
  repeated length.toNat pathStep

/-- One type annotation, given the decoder of the values inside it. -/
def typeAnnotationOf (symbols : SymbolTable) (inner : Decoder Value) : Decoder TypeAnnotation := do
  let target ← target
  let info ← targetInfo target.shape
  let path ← path
  let node ← annotationOf symbols inner
  return ⟨target, info, path, node⟩

/-- One type annotation. -/
def typeAnnotationTree (symbols : SymbolTable) : Decoder TypeAnnotation :=
  nesting symbols (typeAnnotationOf symbols)

/-- A counted list of type annotations. -/
def typeAnnotations (symbols : SymbolTable) : Decoder (List TypeAnnotation) :=
  nesting symbols fun inner => counted (typeAnnotationOf symbols inner)

end Decompiler.ClassFile.Decoder
