/- # Decompiler.Proofs.TypeAnnotationGrammar — type annotations are decoded by their grammar

A type annotation is a tag, the information on its target, a path and an annotation, one
behind the other. The layout of the information is that of its own case (`InfoGrammar`),
and the case must be of the target's shape; a path is its length in one byte and two bytes
for each step, whatever the kind of the step. `Target.assigned` lists the tags with their
targets and shapes, and `mem_assigned_iff` says that the list is what is read.
`typeAnnotation_iff_grammar` is the result for whole byte sequences, for one type
annotation and for a counted list of them.
-/
import Decompiler.ClassFile.TypeAnnotation.Decode
import Decompiler.ClassFile.TypeAnnotation.Encode
import Decompiler.Proofs.AnnotationGrammar

namespace Decompiler.ClassFile

set_option autoImplicit false

/-- Bytes that stand for target information. -/
def InfoGrammar (bytes : List UInt8) : TargetInfo → Prop
  | .typeParameter index => bytes = [index]
  | .supertype index => bytes = wordBytes index
  | .typeParameterBound parameter bound => bytes = [parameter, bound]
  | .empty => bytes = []
  | .formalParameter index => bytes = [index]
  | .throws index => bytes = wordBytes index
  | .localVar ranges => Grammar.counted (fun piece range => piece = range.bytes) bytes ranges
  | .exceptionHandler tableIndex => bytes = wordBytes tableIndex
  | .offset start => bytes = wordBytes start
  | .typeArgument start argument => bytes = wordBytes start ++ [argument]

/-- Bytes that stand for a path. -/
def PathGrammar (bytes : List UInt8) (steps : List PathStep) : Prop :=
  ∃ length : UInt8, length.toNat = steps.length ∧ bytes = length :: steps.flatMap PathStep.bytes

/-- Bytes that stand for a type annotation. -/
inductive TypedGrammar (symbols : SymbolTable) : List UInt8 → TypeAnnotation → Prop
  | listed {target : Target} {info : TargetInfo} {path : List PathStep} {node : Annotation}
      {infoBytes pathBytes nodeBytes : List UInt8}
      (fits : info.shape = target.shape)
      (infoLayout : InfoGrammar infoBytes info)
      (pathLayout : PathGrammar pathBytes path)
      (inside : AnnotationGrammar symbols nodeBytes node) :
      TypedGrammar symbols (target.tag :: (infoBytes ++ (pathBytes ++ nodeBytes)))
        ⟨target, info, path, node⟩

/-- The target of a tag is the one that has the tag. -/
theorem Target.ofTag?_eq_some_iff (tag : UInt8) (target : Target) :
    ofTag? tag = some target ↔ target.tag = tag := by
  constructor
  · intro found
    simpa using List.find?_some found
  · rintro rfl
    cases target <;> decide

/-- The tags that are in use, with the target each stands for and the layout of the information
behind it. -/
def Target.assigned : List (UInt8 × Target × TargetShape) :=
  [(0x00, .classTypeParameter, .typeParameter), (0x01, .methodTypeParameter, .typeParameter),
    (0x10, .superTypeReference, .supertype),
    (0x11, .classTypeParameterBound, .typeParameterBound),
    (0x12, .methodTypeParameterBound, .typeParameterBound),
    (0x13, .field, .empty), (0x14, .methodReturnType, .empty), (0x15, .methodReceiver, .empty),
    (0x16, .methodParameter, .formalParameter), (0x17, .throwsReference, .throws),
    (0x40, .localVariable, .localVar), (0x41, .resourceVariable, .localVar),
    (0x42, .catchClause, .exceptionHandler),
    (0x43, .exprInstanceof, .offset), (0x44, .exprNew, .offset),
    (0x45, .exprConstructorRef, .offset), (0x46, .exprMethodRef, .offset),
    (0x47, .typeArgCast, .typeArgument), (0x48, .typeArgConstructorCall, .typeArgument),
    (0x49, .typeArgMethodCall, .typeArgument), (0x4A, .typeArgConstructorRef, .typeArgument),
    (0x4B, .typeArgMethodRef, .typeArgument)]

/-- A tag is read as a target with information of some shape exactly if it is assigned to them. -/
theorem Target.mem_assigned_iff (tag : UInt8) (target : Target) (shape : TargetShape) :
    (tag, target, shape) ∈ assigned ↔ ofTag? tag = some target ∧ target.shape = shape := by
  rw [ofTag?_eq_some_iff]
  constructor
  · have entries : ∀ entry ∈ assigned, entry.2.1.tag = entry.1 ∧ entry.2.1.shape = entry.2.2 := by
      decide
    exact entries (tag, target, shape)
  · rintro ⟨rfl, rfl⟩
    cases target <;> decide

/-- A type annotation begins with the tag that is assigned to its target and to the shape of its
information. -/
theorem TypedGrammar.begins_with_assigned {symbols : SymbolTable} {bytes : List UInt8}
    {typed : TypeAnnotation} (derived : TypedGrammar symbols bytes typed) :
    ∃ tag rest, bytes = tag :: rest ∧ (tag, typed.target, typed.info.shape) ∈ Target.assigned := by
  cases derived with
  | listed fits =>
      refine ⟨_, _, rfl, (Target.mem_assigned_iff ..).mpr ⟨?_, fits.symm⟩⟩
      exact (Target.ofTag?_eq_some_iff ..).mpr rfl

namespace Decoder

theorem recognizes_target (bound : Nat) :
    target.Recognizes bound fun bytes found => bytes = [found.tag] := by
  refine (recognizes_seq (recognizes_u8 bound) fun tag => recognizes_known (Target.ofTag? tag)
    (fun known isKnown => by rw [isKnown]; exact recognizes_pure bound known)
    (fun isNone => ⟨.unknownTarget tag, by rw [isNone]⟩)).congr ?_
  intro bytes found
  constructor
  · rintro ⟨_, tag, _, rfl, rfl, known, isKnown, rfl, rfl⟩
    rw [(Target.ofTag?_eq_some_iff tag known).mp isKnown]
    rfl
  · rintro rfl
    exact ⟨_, _, [], rfl, rfl, found, (Target.ofTag?_eq_some_iff ..).mpr rfl, rfl, rfl⟩

theorem recognizes_localVarRange (bound : Nat) :
    localVarRange.Recognizes bound fun bytes range => bytes = range.bytes := by
  refine (recognizes_seq (recognizes_u16 bound) fun startPc =>
    recognizes_seq (recognizes_u16 bound) fun length =>
      recognizes_map (LocalVarRange.mk startPc length) (recognizes_u16 bound)).congr ?_
  intro bytes range
  constructor
  · rintro ⟨_, startPc, _, rfl, rfl, _, length, _, rfl, rfl, index, rfl, rfl⟩
    simp [LocalVarRange.bytes]
  · rintro rfl
    exact ⟨_, range.startPc, _, by simp [LocalVarRange.bytes], rfl, _, range.length, _, rfl, rfl,
      range.index, rfl, rfl⟩

theorem recognizes_pathStep (bound : Nat) :
    pathStep.Recognizes bound fun bytes step => bytes = step.bytes := by
  refine (recognizes_seq (recognizes_u8 bound) fun kind =>
    recognizes_map (PathStep.mk kind) (recognizes_u8 bound)).congr ?_
  intro bytes step
  constructor
  · rintro ⟨_, kind, _, rfl, rfl, argument, rfl, rfl⟩
    rfl
  · rintro rfl
    exact ⟨_, step.kind, _, rfl, rfl, step.argument, rfl, rfl⟩

theorem recognizes_path (bound : Nat) : path.Recognizes bound PathGrammar := by
  refine (recognizes_seq (recognizes_u8 bound) fun length =>
    recognizes_repeated (recognizes_pathStep bound) length.toNat).congr ?_
  intro bytes steps
  simp only [Grammar.andThen, Grammar.listOf_written]
  constructor
  · rintro ⟨_, length, _, rfl, rfl, long, rfl⟩
    exact ⟨length, long.symm, rfl⟩
  · rintro ⟨length, long, rfl⟩
    exact ⟨_, length, _, rfl, rfl, long.symm, rfl⟩

/-- Each shape reads the layout of the one case of information that has it. -/
theorem recognizes_targetInfo (bound : Nat) (shape : TargetShape) :
    (targetInfo shape).Recognizes bound
      fun bytes info => info.shape = shape ∧ InfoGrammar bytes info := by
  cases shape with
  | typeParameter =>
      refine (recognizes_map TargetInfo.typeParameter (recognizes_u8 bound)).congr ?_
      intro bytes info
      cases info <;> simp [TargetInfo.shape, InfoGrammar]
  | supertype =>
      refine (recognizes_map TargetInfo.supertype (recognizes_u16 bound)).congr ?_
      intro bytes info
      cases info <;> simp [TargetInfo.shape, InfoGrammar]
  | typeParameterBound =>
      refine (recognizes_seq (recognizes_u8 bound) fun parameter =>
        recognizes_map (TargetInfo.typeParameterBound parameter) (recognizes_u8 bound)).congr ?_
      intro bytes info
      cases info <;> simp [Grammar.andThen, TargetInfo.shape, InfoGrammar]
  | empty =>
      refine (recognizes_pure bound TargetInfo.empty).congr ?_
      intro bytes info
      cases info <;> simp [TargetInfo.shape, InfoGrammar]
  | formalParameter =>
      refine (recognizes_map TargetInfo.formalParameter (recognizes_u8 bound)).congr ?_
      intro bytes info
      cases info <;> simp [TargetInfo.shape, InfoGrammar]
  | throws =>
      refine (recognizes_map TargetInfo.throws (recognizes_u16 bound)).congr ?_
      intro bytes info
      cases info <;> simp [TargetInfo.shape, InfoGrammar]
  | localVar =>
      have ranges := recognizes_counted (recognizes_localVarRange (bound - 2))
      refine (recognizes_map TargetInfo.localVar ranges).congr ?_
      intro bytes info
      cases info <;> simp [TargetInfo.shape, InfoGrammar]
  | exceptionHandler =>
      refine (recognizes_map TargetInfo.exceptionHandler (recognizes_u16 bound)).congr ?_
      intro bytes info
      cases info <;> simp [TargetInfo.shape, InfoGrammar]
  | offset =>
      refine (recognizes_map TargetInfo.offset (recognizes_u16 bound)).congr ?_
      intro bytes info
      cases info <;> simp [TargetInfo.shape, InfoGrammar]
  | typeArgument =>
      refine (recognizes_seq (recognizes_u16 bound) fun start =>
        recognizes_map (TargetInfo.typeArgument start) (recognizes_u8 bound)).congr ?_
      intro bytes info
      cases info <;> simp [Grammar.andThen, TargetInfo.shape, InfoGrammar]

theorem recognizes_typeAnnotationOf {symbols : SymbolTable} {inner : Decoder Value} {bound : Nat}
    (inside : inner.Recognizes bound (ElementGrammar symbols)) :
    (typeAnnotationOf symbols inner).Recognizes bound (TypedGrammar symbols) := by
  have node := recognizes_annotationOf (inside.mono (Nat.sub_le bound 2))
  refine (recognizes_seq (recognizes_target bound) fun target =>
    recognizes_seq (recognizes_targetInfo bound target.shape) fun info =>
      recognizes_seq (recognizes_path bound) fun path =>
        recognizes_map (fun node => (⟨target, info, path, node⟩ : TypeAnnotation)) node).congr ?_
  intro bytes typed
  constructor
  · rintro ⟨_, target, _, rfl, rfl, infoBytes, info, _, rfl, ⟨fits, infoLayout⟩,
      pathBytes, path, nodeBytes, rfl, pathLayout, node, derived, rfl⟩
    show TypedGrammar symbols (target.tag :: (infoBytes ++ (pathBytes ++ nodeBytes))) _
    exact .listed fits infoLayout pathLayout derived
  · rintro ⟨fits, infoLayout, pathLayout, derived⟩
    exact ⟨_, _, _, rfl, rfl, _, _, _, rfl, ⟨fits, infoLayout⟩, _, _, _, rfl, pathLayout, _,
      derived, rfl⟩

theorem recognizes_typeAnnotationTree (symbols : SymbolTable) (bound : Nat) :
    (typeAnnotationTree symbols).Recognizes bound (TypedGrammar symbols) :=
  recognizes_nesting symbols (fun _ _ inside => recognizes_typeAnnotationOf inside) bound

theorem recognizes_typeAnnotations (symbols : SymbolTable) (bound : Nat) :
    (typeAnnotations symbols).Recognizes bound (Grammar.counted (TypedGrammar symbols)) :=
  recognizes_nesting symbols (fun _ _ inside =>
    recognizes_counted ((recognizes_typeAnnotationOf inside).mono (Nat.sub_le _ 2))) bound

/-- **Type annotations are decoded by their grammar.** From any place in any bytes, a type annotation
(a list of them) is the answer exactly if some slice that starts there stands for it, behind a 16-bit
count in the case of a list, and the cursor is left at the end of that slice. -/
theorem typeAnnotation_iff_grammar (symbols : SymbolTable) (bytes : List UInt8) (start : Nat) :
    (∀ typed next, typeAnnotationTree symbols (Cursor.ofBytes bytes start) = .ok typed next ↔
      ∃ stop, next = Cursor.ofBytes bytes stop ∧ start ≤ stop ∧ stop ≤ bytes.length ∧
        TypedGrammar symbols (bytes.extract start stop) typed) ∧
    (∀ list next, typeAnnotations symbols (Cursor.ofBytes bytes start) = .ok list next ↔
      ∃ stop, next = Cursor.ofBytes bytes stop ∧ start ≤ stop ∧ stop ≤ bytes.length ∧
        Grammar.counted (TypedGrammar symbols) (bytes.extract start stop) list) :=
  ⟨recognizes_iff_slice bytes start (recognizes_typeAnnotationTree symbols _) nofun,
    recognizes_iff_slice bytes start (recognizes_typeAnnotations symbols _)
      fun _ => Grammar.counted_nonempty _⟩

end Decoder

end Decompiler.ClassFile
