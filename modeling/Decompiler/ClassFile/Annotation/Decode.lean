/- # Decompiler.ClassFile.Annotation.Decode — annotations from bytes

```text
annotation := type:u16 count:u16 (name:u16 element)*
element    := tag:u8 payload
```

The payload is chosen by the tag: an index of a constant; the indices of an enum's
type and constant; the index of a class's descriptor; a count and that many elements;
or an annotation. `elementOf` and `annotationOf` say this with the decoder of the
values inside left open, and `elementWithin` closes the knot for values nested up to a
given depth. Every value inside another has at least three bytes of its parent before
it, so a third of the bytes ahead and one more is depth enough (`nesting`).
-/
import Decompiler.ClassFile.Cursor
import Decompiler.ClassFile.Pool
import Decompiler.ClassFile.Annotation

namespace Decompiler.ClassFile

set_option autoImplicit false

namespace Decoder

/-- The constant at the index read. -/
def constant (symbols : SymbolTable) : Decoder Constant := do
  lift (symbols.constant (← u16))

/-- The text at the index read. -/
def text (symbols : SymbolTable) : Decoder String := do
  lift (symbols.text (← u16))

/-- One `name = value` pair. -/
def pairOf (symbols : SymbolTable) (inner : Decoder Value) : Decoder ElementPair := do
  let name ← text symbols
  let value ← inner
  return ⟨name, value⟩

/-- One annotation, given the decoder of the values inside it. -/
def annotationOf (symbols : SymbolTable) (inner : Decoder Value) : Decoder Annotation := do
  let descriptor ← text symbols
  let pairs ← counted (pairOf symbols inner)
  return ⟨annotationClassName descriptor, pairs⟩

/-- One enum constant: both indices are resolved before the descriptor is read. -/
def enumConstant (symbols : SymbolTable) : Decoder Value := do
  let descriptor ← text symbols
  let name ← text symbols
  let type ← lift (JavaType.parse descriptor)
  return .enumConstant type name

/-- One class literal. -/
def classLiteral (symbols : SymbolTable) : Decoder Value := do
  let descriptor ← text symbols
  let type ← lift (JavaType.parse descriptor)
  return .classLiteral type.base.reflectiveName

/-- What follows the tag of an element, given the decoder of the values inside it. -/
def payloadOf (symbols : SymbolTable) (inner : Decoder Value) : ElementTag → Decoder Value
  | .primitive kind => return .primitive kind (← constant symbols)
  | .enumConstant => enumConstant symbols
  | .classLiteral => classLiteral symbols
  | .array => return .ofElements (← counted inner)
  | .nested => return .nested (← annotationOf symbols inner)

/-- One element, given the decoder of the values inside it. A byte that is no tag is consumed. -/
def elementOf (symbols : SymbolTable) (inner : Decoder Value) : Decoder Value := do
  let byte ← u8
  match ElementTag.ofByte? byte with
  | some tag => payloadOf symbols inner tag
  | none => throw (.invalidElementTag byte)

/-- One element with at most `depth` values on any path into it; deeper ones are left to
`exhausted`. -/
def elementWithin (symbols : SymbolTable) (exhausted : Decoder Value) : Nat → Decoder Value
  | 0 => exhausted
  | depth + 1 => elementOf symbols (elementWithin symbols exhausted depth)

/-- The answer where no byte is left for another element. -/
def noneAhead : Decoder Value := fun cursor =>
  .error (.unexpectedEnd cursor.position 1 cursor.remaining) cursor

/-- Runs a decoder on the elements inside what it decodes, with all the depth that the bytes ahead
can use. -/
def nesting {α : Type} (symbols : SymbolTable) (outer : Decoder Value → Decoder α) : Decoder α :=
  fun cursor => outer (elementWithin symbols noneAhead (cursor.remaining / 3 + 1)) cursor

/-- One element. -/
def element (symbols : SymbolTable) : Decoder Value :=
  nesting symbols id

/-- One annotation. -/
def annotationTree (symbols : SymbolTable) : Decoder Annotation :=
  nesting symbols (annotationOf symbols)

/-- A counted list of annotations. -/
def annotations (symbols : SymbolTable) : Decoder (List Annotation) :=
  nesting symbols fun inner => counted (annotationOf symbols inner)

end Decoder

end Decompiler.ClassFile
