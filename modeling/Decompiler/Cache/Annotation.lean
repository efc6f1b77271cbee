/- # Decompiler.Cache.Annotation — the stored form of decoded annotations

`restore?` gives back what `store` was given: an array keeps the type it was stored
with, and target information is restored whether or not it fits the target.
-/
import Decompiler.Cache.Basic
import Decompiler.ClassFile.TypeAnnotation

namespace Decompiler.ClassFile

set_option autoImplicit false

/-! ## Names of cases -/

def PrimitiveKind.name : PrimitiveKind → String
  | byte => "Byte"
  | char => "Char"
  | double => "Double"
  | float => "Float"
  | int => "Int"
  | long => "Long"
  | short => "Short"
  | boolean => "Boolean"
  | string => "String"

def BaseType.caseName : BaseType → String
  | byte => "Byte"
  | char => "Char"
  | double => "Double"
  | float => "Float"
  | int => "Int"
  | long => "Long"
  | short => "Short"
  | boolean => "Boolean"
  | void => "Void"
  | object _ => "Object"

def Target.name : Target → String
  | classTypeParameter => "ClassTypeParameter"
  | methodTypeParameter => "MethodTypeParameter"
  | superTypeReference => "SuperTypeReference"
  | classTypeParameterBound => "ClassTypeParameterBound"
  | methodTypeParameterBound => "MethodTypeParameterBound"
  | field => "Field"
  | methodReturnType => "MethodReturnType"
  | methodReceiver => "MethodReceiver"
  | methodParameter => "MethodParameter"
  | throwsReference => "ThrowsReference"
  | localVariable => "LocalVariable"
  | resourceVariable => "ResourceVariable"
  | catchClause => "CatchClause"
  | exprInstanceof => "ExprInstanceof"
  | exprNew => "ExprNew"
  | exprConstructorRef => "ExprConstructorRef"
  | exprMethodRef => "ExprMethodRef"
  | typeArgCast => "TypeArgCast"
  | typeArgConstructorCall => "TypeArgConstructorCall"
  | typeArgMethodCall => "TypeArgMethodCall"
  | typeArgConstructorRef => "TypeArgConstructorRef"
  | typeArgMethodRef => "TypeArgMethodRef"

def TargetShape.name : TargetShape → String
  | typeParameter => "TypeParameter"
  | supertype => "Supertype"
  | typeParameterBound => "TypeParameterBound"
  | empty => "Empty"
  | formalParameter => "FormalParameter"
  | throws => "Throws"
  | localVar => "LocalVar"
  | exceptionHandler => "Catch"
  | offset => "Offset"
  | typeArgument => "TypeArgument"

/-! ## Constants and types -/

instance : Cached Constant where
  store
    | .integer value => .record [("Integer", store value)]
    | .float word => .record [("Float", Binary.Format.single.stored word.toNat)]
    | .long value => .record [("Long", store value)]
    | .double word => .record [("Double", Binary.Format.double.stored word.toNat)]
    | .text value => .record [("Str", store value)]
  restore? form :=
    match form.case? with
    | some ("Integer", body) => (restore? body).map .integer
    | some ("Float", body) =>
        (Binary.Format.single.restored? body).map fun word => .float (UInt32.ofNat word)
    | some ("Long", body) => (restore? body).map .long
    | some ("Double", body) =>
        (Binary.Format.double.restored? body).map fun word => .double (UInt64.ofNat word)
    | some ("Str", body) => (restore? body).map .text
    | _ => none

instance : Cached PrimitiveKind where
  store kind := .text kind.name
  restore? := Cached.member? PrimitiveKind.all PrimitiveKind.name

instance : Cached BaseType where
  store
    | .object name => .record [("Object", store name)]
    | base => .text base.caseName
  restore? form :=
    match form.case? with
    | some ("Object", body) => (restore? body).map .object
    | _ => Cached.member? BaseType.keywords BaseType.caseName form

instance : Cached JavaType where
  store type := .record [("base", store type.base), ("array_dim", store type.dimensions)]
  restore? form := do
    match ← form.fields? ["base", "array_dim"] with
    | [base, dimensions] => return ⟨← restore? base, ← restore? dimensions⟩
    | _ => none

/-! ## Values and annotations -/

mutual

def Value.stored : Value → Form
  | .primitive kind constant =>
      .record [("Primitive", .record [("kind", store kind), ("value", store constant)])]
  | .classLiteral name => .record [("ClassLiteral", store name)]
  | .enumConstant type name =>
      .record [("EnumConstant", .record [("enum_type", store type), ("const_name", store name)])]
  | .array type elements =>
      .record [("Array",
        .record [("array_type", store type), ("elements", .list (Value.storedList elements))])]
  | .nested node => .record [("Annotation", node.stored)]

def Value.storedList : List Value → List Form
  | [] => []
  | value :: rest => value.stored :: Value.storedList rest

def Annotation.stored : Annotation → Form
  | ⟨typeName, pairs⟩ =>
      .record [("type_name", store typeName), ("pairs", .list (ElementPair.storedList pairs))]

def ElementPair.storedList : List ElementPair → List Form
  | [] => []
  | pair :: rest => pair.stored :: ElementPair.storedList rest

def ElementPair.stored : ElementPair → Form
  | ⟨name, value⟩ => .record [("name", store name), ("value", value.stored)]

end

namespace Annotation

/-- A pair, given how the values inside it are restored. -/
def restorePair? (inner : Form → Option Value) (form : Form) : Option ElementPair := do
  match ← form.fields? ["name", "value"] with
  | [name, value] => return ⟨← restore? name, ← inner value⟩
  | _ => none

/-- An annotation, given how the values inside it are restored. -/
def restoreOf? (inner : Form → Option Value) (form : Form) : Option Annotation := do
  match ← form.fields? ["type_name", "pairs"] with
  | [typeName, .list pairs] => return ⟨← restore? typeName, ← pairs.mapM (restorePair? inner)⟩
  | _ => none

end Annotation

namespace Value

/-- A value, given how the values inside it are restored. -/
def restoreOf? (inner : Form → Option Value) (form : Form) : Option Value := do
  match ← form.case? with
  | ("Primitive", body) =>
      match ← body.named? ["kind", "value"] with
      | [kind, constant] => return .primitive (← restore? kind) (← restore? constant)
      | _ => none
  | ("ClassLiteral", body) => return .classLiteral (← restore? body)
  | ("EnumConstant", body) =>
      match ← body.named? ["enum_type", "const_name"] with
      | [type, name] => return .enumConstant (← restore? type) (← restore? name)
      | _ => none
  | ("Array", body) =>
      match ← body.named? ["array_type", "elements"] with
      | [type, .list elements] => return .array (← restore? type) (← elements.mapM inner)
      | _ => none
  | ("Annotation", body) => return .nested (← Annotation.restoreOf? inner body)
  | _ => none

/-- A value from a form of at most the given depth. -/
def restoreWithin? : Nat → Form → Option Value
  | 0, _ => none
  | depth + 1, form => restoreOf? (restoreWithin? depth) form

end Value

instance : Cached Value where
  store := Value.stored
  restore? form := Value.restoreWithin? form.depth form

instance : Cached Annotation where
  store := Annotation.stored
  restore? form := Annotation.restoreOf? (Value.restoreWithin? form.depth) form

/-! ## Type annotations -/

instance : Cached Target where
  store target := .text target.name
  restore? := Cached.member? Target.all Target.name

instance : Cached LocalVarRange where
  store range :=
    .record [("start_pc", store range.startPc), ("length", store range.length),
      ("index", store range.index)]
  restore? form := do
    match ← form.fields? ["start_pc", "length", "index"] with
    | [startPc, length, index] =>
        return ⟨← restore? startPc, ← restore? length, ← restore? index⟩
    | _ => none

instance : Cached PathStep where
  store step := .record [("kind", store step.kind), ("arg_index", store step.argument)]
  restore? form := do
    match ← form.fields? ["kind", "arg_index"] with
    | [kind, argument] => return ⟨← restore? kind, ← restore? argument⟩
    | _ => none

/-- What a case with a single field of that name holds. -/
def TargetInfo.restoreField? {α : Type} [Cached α] (name : String) (body : Form) : Option α := do
  match ← body.named? [name] with
  | [field] => restore? field
  | _ => none

instance : Cached TargetInfo where
  store info :=
    let case (fields : List (String × Form)) : Form := .record [(info.shape.name, .record fields)]
    match info with
    | .typeParameter index => case [("index", store index)]
    | .supertype index => case [("index", store index)]
    | .typeParameterBound parameter bound =>
        case [("param_index", store parameter), ("bound_index", store bound)]
    | .empty => .text info.shape.name
    | .formalParameter index => case [("index", store index)]
    | .throws index => case [("index", store index)]
    | .localVar ranges => .record [(info.shape.name, store ranges)]
    | .exceptionHandler tableIndex => case [("exception_table_index", store tableIndex)]
    | .offset offset => case [("offset", store offset)]
    | .typeArgument offset argument =>
        case [("offset", store offset), ("arg_index", store argument)]
  restore? form := do
    match ← form.case? with
    | ("TypeParameter", body) => return .typeParameter (← TargetInfo.restoreField? "index" body)
    | ("Supertype", body) => return .supertype (← TargetInfo.restoreField? "index" body)
    | ("TypeParameterBound", body) =>
        match ← body.named? ["param_index", "bound_index"] with
        | [parameter, bound] => return .typeParameterBound (← restore? parameter) (← restore? bound)
        | _ => none
    | ("Empty", .null) => return .empty
    | ("FormalParameter", body) => return .formalParameter (← TargetInfo.restoreField? "index" body)
    | ("Throws", body) => return .throws (← TargetInfo.restoreField? "index" body)
    | ("LocalVar", body) => return .localVar (← restore? body)
    | ("Catch", body) =>
        return .exceptionHandler (← TargetInfo.restoreField? "exception_table_index" body)
    | ("Offset", body) => return .offset (← TargetInfo.restoreField? "offset" body)
    | ("TypeArgument", body) =>
        match ← body.named? ["offset", "arg_index"] with
        | [offset, argument] => return .typeArgument (← restore? offset) (← restore? argument)
        | _ => none
    | _ => none

instance : Cached TypeAnnotation where
  store typed :=
    .record [("target_type", store typed.target), ("target_info", store typed.info),
      ("type_path", store typed.path), ("annotation", store typed.node)]
  restore? form := do
    match ← form.fields? ["target_type", "target_info", "type_path", "annotation"] with
    | [target, info, path, node] =>
        return ⟨← restore? target, ← restore? info, ← restore? path, ← restore? node⟩
    | _ => none

end Decompiler.ClassFile
