/- # Decompiler.ClassFile.TypeAnnotation.Encode — type annotations to bytes and a pool -/
import Decompiler.ClassFile.Annotation.Encode
import Decompiler.ClassFile.TypeAnnotation

namespace Decompiler.ClassFile

set_option autoImplicit false

def LocalVarRange.bytes (range : LocalVarRange) : List UInt8 :=
  wordBytes range.startPc ++ wordBytes range.length ++ wordBytes range.index

def PathStep.bytes (step : PathStep) : List UInt8 :=
  [step.kind, step.argument]

/-- Target information in the layout of its own shape. -/
def TargetInfo.encode : TargetInfo → Encoder (List UInt8)
  | typeParameter index => return [index]
  | supertype index => return wordBytes index
  | typeParameterBound parameter bound => return [parameter, bound]
  | empty => return []
  | formalParameter index => return [index]
  | throws index => return wordBytes index
  | localVar ranges => do
      return (← Encoder.count ranges.length) ++ ranges.flatMap LocalVarRange.bytes
  | exceptionHandler tableIndex => return wordBytes tableIndex
  | .offset start => return wordBytes start
  | typeArgument start argument => return wordBytes start ++ [argument]

namespace Encoder

/-- The 8-bit number of steps and the steps. -/
def path (steps : List PathStep) : Encoder (List UInt8) :=
  if steps.length < 256 then
    return UInt8.ofNat steps.length :: steps.flatMap PathStep.bytes
  else
    failure

end Encoder

def TypeAnnotation.encode (typed : TypeAnnotation) : Encoder (List UInt8) := do
  let info ← typed.info.encode
  let path ← Encoder.path typed.path
  let node ← typed.node.encode
  return typed.target.tag :: (info ++ path ++ node)

/-- The body of a type annotations attribute. -/
def Encoder.typeAnnotations (typed : List TypeAnnotation) : Encoder (List UInt8) :=
  counted TypeAnnotation.encode typed

end Decompiler.ClassFile
