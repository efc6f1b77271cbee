/- # Decompiler.ClassFile.TypeAnnotation — annotations on uses of types

A type annotation says where it stands (`Target` and the information its shape
carries), which part of the type there it is about (a path), and the annotation
itself. Twenty-two targets share ten shapes of information; the information is kept
apart from the target, and `TargetInfo.shape` says which targets it fits.
-/
import Decompiler.ClassFile.Annotation

namespace Decompiler.ClassFile

set_option autoImplicit false

/-- The layouts of target information. -/
inductive TargetShape where
  | typeParameter
  | supertype
  | typeParameterBound
  | empty
  | formalParameter
  | throws
  | localVar
  | exceptionHandler
  | offset
  | typeArgument
deriving DecidableEq, Repr

/-- Where a type annotation stands. -/
inductive Target where
  | classTypeParameter
  | methodTypeParameter
  | superTypeReference
  | classTypeParameterBound
  | methodTypeParameterBound
  | field
  | methodReturnType
  | methodReceiver
  | methodParameter
  | throwsReference
  | localVariable
  | resourceVariable
  | catchClause
  | exprInstanceof
  | exprNew
  | exprConstructorRef
  | exprMethodRef
  | typeArgCast
  | typeArgConstructorCall
  | typeArgMethodCall
  | typeArgConstructorRef
  | typeArgMethodRef
deriving DecidableEq, Repr

namespace Target

/-- Every target, in the order of the tags. -/
def all : List Target :=
  [classTypeParameter, methodTypeParameter, superTypeReference, classTypeParameterBound,
    methodTypeParameterBound, field, methodReturnType, methodReceiver, methodParameter,
    throwsReference, localVariable, resourceVariable, catchClause, exprInstanceof, exprNew,
    exprConstructorRef, exprMethodRef, typeArgCast, typeArgConstructorCall, typeArgMethodCall,
    typeArgConstructorRef, typeArgMethodRef]

def tag : Target → UInt8
  | classTypeParameter => 0x00
  | methodTypeParameter => 0x01
  | superTypeReference => 0x10
  | classTypeParameterBound => 0x11
  | methodTypeParameterBound => 0x12
  | field => 0x13
  | methodReturnType => 0x14
  | methodReceiver => 0x15
  | methodParameter => 0x16
  | throwsReference => 0x17
  | localVariable => 0x40
  | resourceVariable => 0x41
  | catchClause => 0x42
  | exprInstanceof => 0x43
  | exprNew => 0x44
  | exprConstructorRef => 0x45
  | exprMethodRef => 0x46
  | typeArgCast => 0x47
  | typeArgConstructorCall => 0x48
  | typeArgMethodCall => 0x49
  | typeArgConstructorRef => 0x4A
  | typeArgMethodRef => 0x4B

/-- The target with this tag, if there is one. -/
def ofTag? (tag : UInt8) : Option Target :=
  all.find? (·.tag == tag)

def shape : Target → TargetShape
  | classTypeParameter | methodTypeParameter => .typeParameter
  | superTypeReference => .supertype
  | classTypeParameterBound | methodTypeParameterBound => .typeParameterBound
  | field | methodReturnType | methodReceiver => .empty
  | methodParameter => .formalParameter
  | throwsReference => .throws
  | localVariable | resourceVariable => .localVar
  | catchClause => .exceptionHandler
  | exprInstanceof | exprNew | exprConstructorRef | exprMethodRef => .offset
  | typeArgCast | typeArgConstructorCall | typeArgMethodCall | typeArgConstructorRef
  | typeArgMethodRef => .typeArgument

end Target

/-- A stretch of code in which an annotated local variable lives. -/
structure LocalVarRange where
  startPc : UInt16
  length : UInt16
  index : UInt16
deriving DecidableEq, Repr

/-- What is said of a target besides its tag. -/
inductive TargetInfo where
  | typeParameter (index : UInt8)
  /-- `superclassIndex` for the superclass, else the position of an interface. -/
  | supertype (index : UInt16)
  | typeParameterBound (parameter bound : UInt8)
  | empty
  | formalParameter (index : UInt8)
  | throws (index : UInt16)
  | localVar (ranges : List LocalVarRange)
  | exceptionHandler (tableIndex : UInt16)
  | offset (offset : UInt16)
  | typeArgument (offset : UInt16) (argument : UInt8)
deriving DecidableEq, Repr

namespace TargetInfo

/-- The supertype index that means the superclass. -/
def superclassIndex : UInt16 := 0xFFFF

def shape : TargetInfo → TargetShape
  | typeParameter _ => .typeParameter
  | supertype _ => .supertype
  | typeParameterBound _ _ => .typeParameterBound
  | empty => .empty
  | formalParameter _ => .formalParameter
  | throws _ => .throws
  | localVar _ => .localVar
  | exceptionHandler _ => .exceptionHandler
  | offset _ => .offset
  | typeArgument _ _ => .typeArgument

end TargetInfo

/-- What a step of a type path enters. -/
inductive PathKind where
  | array
  | nested
  | wildcard
  | typeArgument
deriving DecidableEq, Repr

/-- One step of a type path, with the kind as it is stored. -/
structure PathStep where
  kind : UInt8
  argument : UInt8
deriving DecidableEq, Repr

/-- What the step enters; kinds above 3 have no meaning. -/
def PathStep.pathKind? (step : PathStep) : Option PathKind :=
  if step.kind = 0 then some .array
  else if step.kind = 1 then some .nested
  else if step.kind = 2 then some .wildcard
  else if step.kind = 3 then some .typeArgument
  else none

/-- An annotation on a use of a type. -/
structure TypeAnnotation where
  target : Target
  info : TargetInfo
  path : List PathStep
  node : Annotation

namespace TypeAnnotation

/-- Whether the annotation is about the whole type at its target. -/
def isTopLevel (typed : TypeAnnotation) : Bool := typed.path.isEmpty

/-- Equality with constants compared by the numbers they denote. -/
def same (a b : TypeAnnotation) : Bool :=
  a.target == b.target && a.info == b.info && a.path == b.path && a.node.same b.node

end TypeAnnotation

end Decompiler.ClassFile
