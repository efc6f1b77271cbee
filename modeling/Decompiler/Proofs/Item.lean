/- # Decompiler.Proofs.Item — the five things that can be decoded

A value, an annotation, a list of annotations, a type annotation and a list of type
annotations have decoders of one make: each is a layout around values, given all the depth
that the bytes ahead can use. `Item` names the five, so that what holds of all of them is
said once. The grammar of an item and the lockstep of its runs are those of
`Decompiler.Proofs.Recognition` and `Decompiler.Proofs.Lockstep`.

`Item.values` lists the values of a decoded tree, in the order of their bytes. Each of them
stands in bytes of its own (`Item.values_derived`), so what holds of every value that the
grammar knows holds all over a decoded tree.
-/
import Decompiler.Proofs.Lockstep

namespace Decompiler.ClassFile

set_option autoImplicit false

/-- What a decoder can be asked for. -/
inductive Item where
  | element
  | annotationTree
  | annotations
  | typeAnnotationTree
  | typeAnnotations
deriving DecidableEq, Repr

namespace Item

/-- What the item is decoded to. -/
def Tree : Item → Type
  | element => Value
  | annotationTree => Annotation
  | annotations => List Annotation
  | typeAnnotationTree => TypeAnnotation
  | typeAnnotations => List TypeAnnotation

/-- The decoder of the item. -/
def decoder (symbols : SymbolTable) : (item : Item) → Decoder item.Tree
  | element => Decoder.element symbols
  | annotationTree => Decoder.annotationTree symbols
  | annotations => Decoder.annotations symbols
  | typeAnnotationTree => Decoder.typeAnnotationTree symbols
  | typeAnnotations => Decoder.typeAnnotations symbols

/-- The layout of the item, given the decoder of the values in it. -/
def around (symbols : SymbolTable) (inner : Decoder Value) : (item : Item) → Decoder item.Tree
  | element => inner
  | annotationTree => Decoder.annotationOf symbols inner
  | annotations => Decoder.counted (Decoder.annotationOf symbols inner)
  | typeAnnotationTree => Decoder.typeAnnotationOf symbols inner
  | typeAnnotations => Decoder.counted (Decoder.typeAnnotationOf symbols inner)

theorem decoder_eq_nesting (symbols : SymbolTable) (item : Item) :
    item.decoder symbols = Decoder.nesting symbols fun inner => item.around symbols inner := by
  cases item <;> rfl

/-- The bytes that stand for the item's trees. -/
def grammar (symbols : SymbolTable) : (item : Item) → Grammar item.Tree
  | element => ElementGrammar symbols
  | annotationTree => AnnotationGrammar symbols
  | annotations => Grammar.counted (AnnotationGrammar symbols)
  | typeAnnotationTree => TypedGrammar symbols
  | typeAnnotations => Grammar.counted (TypedGrammar symbols)

theorem recognizes (symbols : SymbolTable) (item : Item) (bound : Nat) :
    (item.decoder symbols).Recognizes bound (item.grammar symbols) := by
  cases item with
  | element => exact Decoder.recognizes_element symbols bound
  | annotationTree => exact Decoder.recognizes_annotationTree symbols bound
  | annotations => exact Decoder.recognizes_annotations symbols bound
  | typeAnnotationTree => exact Decoder.recognizes_typeAnnotationTree symbols bound
  | typeAnnotations => exact Decoder.recognizes_typeAnnotations symbols bound

/-- A tree that was decoded stands in the bytes right behind the place it was decoded from. -/
theorem derived_of_decoded {symbols : SymbolTable} {item : Item} {cursor next : Cursor}
    {tree : item.Tree} (decoded : item.decoder symbols cursor = .ok tree next) :
    ∃ bytes, cursor.ahead = bytes ++ next.ahead ∧ next.position = cursor.position + bytes.length ∧
      item.grammar symbols bytes tree := by
  obtain ⟨bytes, rest, split, rfl, derived⟩ :=
    (item.recognizes symbols _ cursor.position cursor.ahead (Nat.lt_succ_self _) tree next).mp decoded
  exact ⟨bytes, split, rfl, derived⟩

/-- Layouts run in lockstep wherever the decoders of the values in them do. -/
theorem lockstep_around (symbols : SymbolTable) (item : Item) {bound : Nat}
    {shorter longer : Decoder Value} (inside : Decoder.Lockstep bound shorter longer) :
    Decoder.Lockstep bound (item.around symbols shorter) (item.around symbols longer) := by
  cases item with
  | element => exact inside
  | annotationTree => exact Decoder.lockstep_annotationOf (inside.mono (Nat.sub_le _ 2))
  | annotations =>
      exact Decoder.lockstep_counted (Decoder.lockstep_annotationOf (inside.mono (by omega)))
  | typeAnnotationTree => exact Decoder.lockstep_typeAnnotationOf inside
  | typeAnnotations =>
      exact Decoder.lockstep_counted
        ((Decoder.lockstep_typeAnnotationOf inside).mono (Nat.sub_le _ 2))

theorem lockstep (symbols : SymbolTable) (item : Item) (bound : Nat) :
    Decoder.Lockstep bound (item.decoder symbols) (item.decoder symbols) := by
  rw [decoder_eq_nesting]
  exact Decoder.lockstep_nesting symbols
    (fun _ _ _ inside => lockstep_around symbols item inside) bound

end Item

/-! ## The values of a tree -/

mutual

/-- The value and all values inside it, in the order of their bytes. -/
def Value.values : Value → List Value
  | .primitive kind constant => [.primitive kind constant]
  | .classLiteral name => [.classLiteral name]
  | .enumConstant type name => [.enumConstant type name]
  | .array type elements => .array type elements :: Value.valuesList elements
  | .nested node => .nested node :: node.values

def Value.valuesList : List Value → List Value
  | [] => []
  | value :: rest => value.values ++ Value.valuesList rest

def Annotation.values : Annotation → List Value
  | ⟨_, pairs⟩ => ElementPair.valuesList pairs

def ElementPair.valuesList : List ElementPair → List Value
  | [] => []
  | pair :: rest => pair.values ++ ElementPair.valuesList rest

def ElementPair.values : ElementPair → List Value
  | ⟨_, value⟩ => value.values

end

def TypeAnnotation.values (typed : TypeAnnotation) : List Value :=
  typed.node.values

/-- The values of an item's tree. -/
def Item.values : (item : Item) → item.Tree → List Value
  | element, value => Value.values value
  | annotationTree, node => Annotation.values node
  | annotations, nodes => List.flatMap Annotation.values nodes
  | typeAnnotationTree, typed => TypeAnnotation.values typed
  | typeAnnotations, list => List.flatMap TypeAnnotation.values list

section Derived

variable {symbols : SymbolTable}

mutual

theorem Value.values_derived : ∀ (value : Value) (bytes : List UInt8),
    ElementGrammar symbols bytes value →
      ∀ inner ∈ value.values, ∃ part, ElementGrammar symbols part inner
  | .primitive kind constant, bytes, derived, inner, member => by
      obtain rfl := List.mem_singleton.mp member
      exact ⟨bytes, derived⟩
  | .classLiteral name, bytes, derived, inner, member => by
      obtain rfl := List.mem_singleton.mp member
      exact ⟨bytes, derived⟩
  | .enumConstant type name, bytes, derived, inner, member => by
      obtain rfl := List.mem_singleton.mp member
      exact ⟨bytes, derived⟩
  | .array type elements, bytes, derived, inner, member => by
      rcases List.mem_cons.mp member with rfl | below
      · exact ⟨bytes, derived⟩
      · obtain ⟨payload⟩ := derived
        cases payload with
        | array _ pieces => exact Value.valuesList_derived elements _ pieces inner below
  | .nested node, bytes, derived, inner, member => by
      rcases List.mem_cons.mp member with rfl | below
      · exact ⟨bytes, derived⟩
      · obtain ⟨payload⟩ := derived
        cases payload with
        | nested inside => exact Annotation.values_derived node _ inside inner below

theorem Value.valuesList_derived : ∀ (elements : List Value) (pieces : List (List UInt8)),
    List.Forall₂ (ElementGrammar symbols) pieces elements →
      ∀ inner ∈ Value.valuesList elements, ∃ part, ElementGrammar symbols part inner
  | value :: rest, piece :: pieces, .cons first others, inner, member => by
      rcases List.mem_append.mp member with here | later
      · exact Value.values_derived value piece first inner here
      · exact Value.valuesList_derived rest pieces others inner later

theorem Annotation.values_derived : ∀ (node : Annotation) (bytes : List UInt8),
    AnnotationGrammar symbols bytes node →
      ∀ inner ∈ node.values, ∃ part, ElementGrammar symbols part inner
  | ⟨typeName, pairs⟩, bytes, derived, inner, member => by
      cases derived with
      | listed _ _ members => exact ElementPair.valuesList_derived pairs _ members inner member

theorem ElementPair.valuesList_derived : ∀ (pairs : List ElementPair) (pieces : List (List UInt8)),
    List.Forall₂ (PairGrammar symbols) pieces pairs →
      ∀ inner ∈ ElementPair.valuesList pairs, ∃ part, ElementGrammar symbols part inner
  | pair :: rest, piece :: pieces, .cons first others, inner, member => by
      rcases List.mem_append.mp member with here | later
      · exact ElementPair.values_derived pair piece first inner here
      · exact ElementPair.valuesList_derived rest pieces others inner later

theorem ElementPair.values_derived : ∀ (pair : ElementPair) (bytes : List UInt8),
    PairGrammar symbols bytes pair →
      ∀ inner ∈ pair.values, ∃ part, ElementGrammar symbols part inner
  | ⟨name, value⟩, bytes, derived, inner, member => by
      cases derived with
      | named _ element => exact Value.values_derived value _ element inner member

end

theorem TypeAnnotation.values_derived {typed : TypeAnnotation} {bytes : List UInt8}
    (derived : TypedGrammar symbols bytes typed) {inner : Value} (member : inner ∈ typed.values) :
    ∃ part, ElementGrammar symbols part inner := by
  cases derived with
  | listed _ _ _ inside => exact Annotation.values_derived _ _ inside inner member

/-- Each item of a counted list stands in bytes of its own. -/
theorem Grammar.counted_derived {α : Type} {item : Grammar α} {bytes : List UInt8} {values : List α}
    (derived : Grammar.counted item bytes values) {value : α} (member : value ∈ values) :
    ∃ part, item part value := by
  obtain ⟨_, _, -, -, pieces, -, matched⟩ := derived
  have each : List.Forall₂ (fun value piece => (∃ part, item part value) ∧ item piece value)
      values pieces :=
    matched.flip.imp fun _ piece stands => ⟨⟨piece, stands⟩, stands⟩
  exact ((List.forall₂_and_left ..).mp each).1 value member

/-- Every value of a decoded tree stands in bytes of its own. -/
theorem Item.values_derived {item : Item} {bytes : List UInt8} {tree : item.Tree}
    (derived : item.grammar symbols bytes tree) {inner : Value} (member : inner ∈ item.values tree) :
    ∃ part, ElementGrammar symbols part inner := by
  cases item with
  | element => exact Value.values_derived _ _ derived inner member
  | annotationTree => exact Annotation.values_derived _ _ derived inner member
  | annotations =>
      obtain ⟨node, isNode, inside⟩ := List.mem_flatMap.mp member
      obtain ⟨part, derivedNode⟩ := Grammar.counted_derived derived isNode
      exact Annotation.values_derived node part derivedNode inner inside
  | typeAnnotationTree => exact TypeAnnotation.values_derived derived member
  | typeAnnotations =>
      obtain ⟨typed, isTyped, inside⟩ := List.mem_flatMap.mp member
      obtain ⟨part, derivedTyped⟩ := Grammar.counted_derived derived isTyped
      exact TypeAnnotation.values_derived derivedTyped inside

end Derived

end Decompiler.ClassFile
