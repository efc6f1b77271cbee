/- # Decompiler.Proofs.RoundTrip — what is encoded decodes to itself

An encoder appends constants to a pool while it writes the indices it is given for them.
The bytes are read much later, against the pool as it then is. So the meaning of written
bytes is stated for every table that extends the pool right after the writing
(`Encoder.Writes`), and it survives whatever is appended next; `writes_bind` is where this
is used. The same statement says which constants an encoder appends, and that it succeeds
whenever the pool admits them all.

`WellFormed` has the conditions under which a tree is its own decoding: names that a
descriptor can hold, array types that follow from the elements, counts that fit their
fields. `decode_encoded` is the result for whole attributes.
-/
import Decompiler.Proofs.AttributeBody
import Decompiler.Proofs.Descriptor
import Decompiler.Proofs.PoolGrowth

namespace Decompiler.ClassFile

set_option autoImplicit false

/-! ## Trees that can be written -/

mutual

/-- The constants that a value refers to, in the order of its bytes. -/
def Value.constants : Value → List Constant
  | .primitive _ constant => [constant]
  | .classLiteral name => [.text (JavaType.literalText name)]
  | .enumConstant type name => [.text type.descriptor, .text name]
  | .array _ elements => Value.constantsList elements
  | .nested node => node.constants

def Value.constantsList : List Value → List Constant
  | [] => []
  | value :: rest => value.constants ++ Value.constantsList rest

def Annotation.constants : Annotation → List Constant
  | ⟨typeName, pairs⟩ =>
      .text ("L" ++ typeName ++ ";") :: ElementPair.constantsList pairs

def ElementPair.constantsList : List ElementPair → List Constant
  | [] => []
  | pair :: rest => pair.constants ++ ElementPair.constantsList rest

def ElementPair.constants : ElementPair → List Constant
  | ⟨name, value⟩ => .text name :: value.constants

end

mutual

/-- Names can be told from their descriptors, arrays have the type of their elements, and counts fit
in 16 bits. -/
def Value.WellFormed : Value → Prop
  | .primitive _ _ => True
  | .classLiteral name => name ≠ "" ∧ ';' ∉ name.toList
  | .enumConstant type _ => JavaType.parse type.descriptor = .ok type
  | .array type elements =>
      type = Value.arrayType elements ∧ elements.length ≤ 65535 ∧ Value.WellFormedList elements
  | .nested node => node.WellFormed

def Value.WellFormedList : List Value → Prop
  | [] => True
  | value :: rest => value.WellFormed ∧ Value.WellFormedList rest

def Annotation.WellFormed : Annotation → Prop
  | ⟨typeName, pairs⟩ =>
      typeName ≠ "" ∧ pairs.length ≤ 65535 ∧ ElementPair.WellFormedList pairs

def ElementPair.WellFormedList : List ElementPair → Prop
  | [] => True
  | pair :: rest => pair.WellFormed ∧ ElementPair.WellFormedList rest

def ElementPair.WellFormed : ElementPair → Prop
  | ⟨_, value⟩ => value.WellFormed

end

/-- The information fits its target, and counts fit in 16 bits, or in 8 for the path. -/
structure TypeAnnotation.WellFormed (typed : TypeAnnotation) : Prop where
  shape : typed.info.shape = typed.target.shape
  ranges : ∀ ranges, typed.info = .localVar ranges → ranges.length ≤ 65535
  path : typed.path.length ≤ 255
  node : typed.node.WellFormed

namespace Encoder

variable {α β : Type}

/-- From every pool that admits the constants, the encoder succeeds, leaves the pool with exactly
those appended, and what it writes stands for something under every table that extends that pool. -/
def Writes (encoder : Encoder α) (constants : List Constant)
    (stands : SymbolTable → α → Prop) : Prop :=
  ∀ pool next, pool.pushAll constants = some next →
    ∃ written, encoder pool = some (written, next) ∧
      ∀ symbols, SymbolTable.Extends symbols next.symbols → stands symbols written

theorem Writes.imp {encoder : Encoder α} {constants : List Constant}
    {stands other : SymbolTable → α → Prop} (writes : encoder.Writes constants stands)
    (weaker : ∀ symbols written, stands symbols written → other symbols written) :
    encoder.Writes constants other := by
  intro pool next admitted
  obtain ⟨written, run, holds⟩ := writes pool next admitted
  exact ⟨written, run, fun symbols extension => weaker symbols written (holds symbols extension)⟩

/-! ## Steps of an encoder -/

theorem writes_pure (value : α) :
    (pure value : Encoder α).Writes [] fun _ written => written = value := by
  intro pool next admitted
  cases admitted
  exact ⟨value, rfl, fun _ _ => rfl⟩

/-- What the first encoder wrote keeps its meaning while the second appends. -/
theorem writes_bind {first : Encoder α} {second : α → Encoder β} {front back : List Constant}
    {stands : SymbolTable → α → Prop} {next : α → SymbolTable → β → Prop}
    (writes : first.Writes front stands)
    (continues : ∀ value, (second value).Writes back (next value)) :
    (first >>= second).Writes (front ++ back) fun symbols written =>
      ∃ value, stands symbols value ∧ next value symbols written := by
  intro pool last admitted
  rw [Pool.pushAll_append, Option.bind_eq_some_iff] at admitted
  obtain ⟨middle, admittedFront, admittedBack⟩ := admitted
  obtain ⟨value, runFirst, holdsFirst⟩ := writes pool middle admittedFront
  obtain ⟨written, runSecond, holdsSecond⟩ := continues value middle last admittedBack
  have run : (first >>= second) pool = some (written, last) := by
    simp only [bind, StateT.bind, runFirst, Option.bind_some, runSecond]
  refine ⟨written, run, fun symbols extension => ?_⟩
  exact ⟨value, holdsFirst symbols (extension.trans (Pool.extends_pushAll admittedBack)),
    holdsSecond symbols extension⟩

/-- Something made from what was written. -/
theorem writes_map {encoder : Encoder α} {constants : List Constant}
    {stands : SymbolTable → α → Prop} (make : α → β) (writes : encoder.Writes constants stands) :
    (do let value ← encoder; return make value : Encoder β).Writes constants
      fun symbols written => ∃ value, stands symbols value ∧ written = make value := by
  have both := writes_bind writes fun value => writes_pure (make value)
  rwa [List.append_nil] at both

theorem writes_constant (found : Constant) :
    (constant found).Writes [found] fun symbols bytes => symbols.Refers bytes found := by
  intro pool next admitted
  rw [Pool.pushAll] at admitted
  unfold constant
  generalize pushed : pool.push? found = outcome at admitted ⊢
  obtain ⟨index, middle⟩ := outcome
  cases index with
  | none => cases admitted
  | some index =>
      cases admitted
      refine ⟨wordBytes index, rfl, fun symbols extension => ⟨index, rfl, ?_⟩⟩
      exact extension index found (Pool.symbols_push?_new pushed)

theorem writes_text (found : String) :
    (text found).Writes [.text found] fun symbols bytes => symbols.Refers bytes (.text found) :=
  writes_constant (.text found)

/-- A count that fits is written as the number it is. -/
theorem writes_count {number : Nat} (fits : number ≤ 65535) :
    (count number).Writes [] fun _ bytes =>
      ∃ word : UInt16, word.toNat = number ∧ bytes = wordBytes word := by
  have small : number < 65536 := by omega
  unfold count
  rw [if_pos small]
  refine (writes_pure _).imp fun _ bytes written => ?_
  exact ⟨UInt16.ofNat number, UInt16.toNat_ofNat_of_lt small, written⟩

/-- An item in front of others, as lists inside a tree are written. -/
theorem writes_cons {item others : Encoder (List UInt8)} {front back : List Constant}
    {grammar : SymbolTable → Grammar α} {value : α} {rest : List α}
    (first : item.Writes front fun symbols bytes => grammar symbols bytes value)
    (later : others.Writes back fun symbols bytes => (grammar symbols).listOf bytes rest) :
    (do let left ← item; return left ++ (← others) : Encoder (List UInt8)).Writes (front ++ back)
      fun symbols bytes => (grammar symbols).listOf bytes (value :: rest) := by
  refine (writes_bind first fun left => writes_map (left ++ ·) later).imp ?_
  rintro symbols _ ⟨left, derived, right, derivedRest, rfl⟩
  exact (Grammar.listOf_cons ..).mpr ⟨left, right, rfl, derived, derivedRest⟩

/-- Items written one after the other, each with its own constants. -/
theorem writes_mapM {item : α → Encoder (List UInt8)} {constants : α → List Constant}
    {grammar : SymbolTable → Grammar α} (items : List α)
    (writes : ∀ value ∈ items, (item value).Writes (constants value) fun symbols bytes =>
      grammar symbols bytes value) :
    (items.mapM item).Writes (items.flatMap constants) fun symbols pieces =>
      List.Forall₂ (grammar symbols) pieces items := by
  induction items with
  | nil => exact (writes_pure []).imp fun _ pieces none => none ▸ .nil
  | cons value rest ih =>
      rw [List.mapM_cons, List.flatMap_cons]
      have first := writes value List.mem_cons_self
      have others := ih fun other member => writes other (List.mem_cons_of_mem _ member)
      refine (writes_bind first fun bytes => writes_map (bytes :: ·) others).imp ?_
      rintro symbols _ ⟨bytes, stands, pieces, matched, rfl⟩
      exact .cons stands matched

theorem writes_counted {item : α → Encoder (List UInt8)} {constants : α → List Constant}
    {grammar : SymbolTable → Grammar α} {items : List α} (fits : items.length ≤ 65535)
    (writes : ∀ value ∈ items, (item value).Writes (constants value) fun symbols bytes =>
      grammar symbols bytes value) :
    (counted item items).Writes (items.flatMap constants) fun symbols bytes =>
      (grammar symbols).counted bytes items := by
  have body := writes_mapM items writes
  refine (writes_bind (writes_count fits) fun count =>
    writes_map (fun pieces => count ++ pieces.flatten) body).imp ?_
  rintro symbols _ ⟨_, ⟨word, isLength, rfl⟩, pieces, matched, rfl⟩
  exact ⟨word, pieces.flatten, isLength, rfl, pieces, rfl, matched⟩

end Encoder

open Encoder

/-! ## Annotations -/

/-- The byte that is written for a tag announces its payload. -/
theorem ElementGrammar.ofByte {symbols : SymbolTable} {tag : ElementTag} {bytes : List UInt8}
    {value : Value} (payload : PayloadGrammar symbols tag bytes value) :
    ElementGrammar symbols (tag.byte :: bytes) value := by
  rw [tag.byte_eq_letter]
  exact .tagged payload

mutual

theorem Value.writes_encode : ∀ value : Value, value.WellFormed →
    value.encode.Writes value.constants fun symbols bytes => ElementGrammar symbols bytes value
  | .primitive kind constant, _ => by
      rw [Value.encode, Value.constants]
      refine (writes_map (kind.tag :: ·) (writes_constant constant)).imp ?_
      rintro symbols _ ⟨bytes, refers, rfl⟩
      show ElementGrammar symbols ((ElementTag.primitive kind).byte :: bytes) _
      exact .ofByte (.primitive refers)
  | .classLiteral name, wellFormed => by
      rw [Value.WellFormed] at wellFormed
      obtain ⟨nonempty, closed⟩ := wellFormed
      rw [Value.encode, Value.constants, ← JavaType.descriptor_ofReflectiveName]
      refine (writes_map (ElementTag.classLiteral.byte :: ·) (writes_text _)).imp ?_
      rintro symbols _ ⟨bytes, refers, rfl⟩
      have denotes := JavaType.parse_ofReflectiveName nonempty closed
      have derived := PayloadGrammar.classLiteral refers denotes
      rw [JavaType.ofBase, BaseType.reflectiveName_ofReflectiveName] at derived
      exact .ofByte derived
  | .enumConstant type name, wellFormed => by
      rw [Value.WellFormed] at wellFormed
      rw [Value.encode, Value.constants]
      refine (writes_bind (writes_text type.descriptor) fun typeBytes =>
        writes_map (fun nameBytes => ElementTag.enumConstant.byte :: (typeBytes ++ nameBytes))
          (writes_text name)).imp ?_
      rintro symbols _ ⟨typeBytes, typeText, nameBytes, nameText, rfl⟩
      exact .ofByte (.enumConstant typeText nameText wellFormed)
  | .array type elements, wellFormed => by
      rw [Value.WellFormed] at wellFormed
      obtain ⟨rfl, fits, inside⟩ := wellFormed
      rw [Value.encode, Value.constants]
      have body := Value.writes_encodeList elements inside
      refine (writes_bind (writes_count fits) fun count =>
        writes_map (fun bytes => ElementTag.array.byte :: (count ++ bytes)) body).imp ?_
      rintro symbols _ ⟨_, ⟨word, isLength, rfl⟩, _, ⟨pieces, rfl, matched⟩, rfl⟩
      exact .ofByte (.array isLength matched)
  | .nested node, wellFormed => by
      rw [Value.WellFormed] at wellFormed
      rw [Value.encode, Value.constants]
      have inside := Annotation.writes_encode node wellFormed
      refine (writes_map (ElementTag.nested.byte :: ·) inside).imp ?_
      rintro symbols _ ⟨bytes, derived, rfl⟩
      exact .ofByte (.nested derived)

theorem Value.writes_encodeList : ∀ values : List Value, Value.WellFormedList values →
    (Value.encodeList values).Writes (Value.constantsList values) fun symbols bytes =>
      Grammar.listOf (ElementGrammar symbols) bytes values
  | [], _ => by
      rw [Value.encodeList, Value.constantsList]
      exact (writes_pure []).imp fun symbols bytes none => (Grammar.listOf_nil ..).mpr none
  | value :: rest, wellFormed => by
      rw [Value.WellFormedList] at wellFormed
      rw [Value.encodeList, Value.constantsList]
      exact writes_cons (Value.writes_encode value wellFormed.1)
        (Value.writes_encodeList rest wellFormed.2)

theorem Annotation.writes_encode : ∀ node : Annotation, node.WellFormed →
    node.encode.Writes node.constants fun symbols bytes => AnnotationGrammar symbols bytes node
  | ⟨typeName, pairs⟩, wellFormed => by
      unfold Annotation.WellFormed at wellFormed
      obtain ⟨nonempty, fits, inside⟩ := wellFormed
      unfold Annotation.encode Annotation.constants
      rw [← JavaType.descriptor_object]
      have body := ElementPair.writes_encodeList pairs inside
      refine (writes_bind (writes_text (JavaType.object typeName).descriptor) fun type =>
        writes_bind (writes_count fits) fun count =>
          writes_map (fun bytes => type ++ count ++ bytes) body).imp ?_
      rintro symbols _ ⟨type, typeText, _, ⟨word, isLength, rfl⟩, _, ⟨pieces, rfl, matched⟩, rfl⟩
      have derived := AnnotationGrammar.listed typeText isLength matched
      rw [annotationClassName_descriptor nonempty, ← List.append_assoc] at derived
      exact derived

theorem ElementPair.writes_encodeList : ∀ pairs : List ElementPair,
    ElementPair.WellFormedList pairs →
    (ElementPair.encodeList pairs).Writes (ElementPair.constantsList pairs) fun symbols bytes =>
      Grammar.listOf (PairGrammar symbols) bytes pairs
  | [], _ => by
      rw [ElementPair.encodeList, ElementPair.constantsList]
      exact (writes_pure []).imp fun symbols bytes none => (Grammar.listOf_nil ..).mpr none
  | pair :: rest, wellFormed => by
      rw [ElementPair.WellFormedList] at wellFormed
      rw [ElementPair.encodeList, ElementPair.constantsList]
      exact writes_cons (ElementPair.writes_encode pair wellFormed.1)
        (ElementPair.writes_encodeList rest wellFormed.2)

theorem ElementPair.writes_encode : ∀ pair : ElementPair, pair.WellFormed →
    pair.encode.Writes pair.constants fun symbols bytes => PairGrammar symbols bytes pair
  | ⟨name, value⟩, wellFormed => by
      rw [ElementPair.WellFormed] at wellFormed
      rw [ElementPair.encode, ElementPair.constants]
      have inside := Value.writes_encode value wellFormed
      refine (writes_bind (writes_text name) fun nameBytes =>
        writes_map (nameBytes ++ ·) inside).imp ?_
      rintro symbols _ ⟨nameBytes, nameText, bytes, derived, rfl⟩
      exact .named nameText derived

end

/-! ## Type annotations -/

theorem TargetInfo.writes_encode (info : TargetInfo)
    (fits : ∀ ranges, info = .localVar ranges → ranges.length ≤ 65535) :
    info.encode.Writes [] fun _ bytes => InfoGrammar bytes info := by
  cases info with
  | localVar ranges =>
      refine (writes_map (· ++ ranges.flatMap LocalVarRange.bytes)
        (writes_count (fits ranges rfl))).imp ?_
      rintro symbols _ ⟨_, ⟨word, isLength, rfl⟩, rfl⟩
      exact ⟨word, _, isLength, rfl, (Grammar.listOf_written ..).mpr rfl⟩
  | _ => exact writes_pure _

theorem Encoder.writes_path {steps : List PathStep} (fits : steps.length ≤ 255) :
    (Encoder.path steps).Writes [] fun _ bytes => PathGrammar bytes steps := by
  have small : steps.length < 256 := by omega
  unfold Encoder.path
  rw [if_pos small]
  refine (writes_pure _).imp fun _ bytes written => ?_
  exact ⟨UInt8.ofNat steps.length, UInt8.toNat_ofNat_of_lt small, written⟩

theorem TypeAnnotation.writes_encode {typed : TypeAnnotation} (wellFormed : typed.WellFormed) :
    typed.encode.Writes typed.node.constants fun symbols bytes =>
      TypedGrammar symbols bytes typed := by
  have info := typed.info.writes_encode wellFormed.ranges
  have node := Annotation.writes_encode typed.node wellFormed.node
  have path := writes_path wellFormed.path
  refine (writes_bind info fun infoBytes => writes_bind path fun pathBytes => writes_map
    (fun nodeBytes => typed.target.tag :: (infoBytes ++ pathBytes ++ nodeBytes)) node).imp ?_
  rintro symbols _ ⟨infoBytes, infoLayout, pathBytes, pathLayout, nodeBytes, derived, rfl⟩
  rw [List.append_assoc]
  exact .listed wellFormed.shape infoLayout pathLayout derived

/-! ## Whole attributes -/

/-- **What is encoded decodes to itself.** Take a list of well-formed annotations (type annotations)
that is not too long, whose constants, appended in the order of the bytes, all find room in a new
pool. Then encoding it from a new pool succeeds and leaves the pool with those constants, and the
bytes, decoded against that pool, give the list back. -/
theorem Attribute.decode_encoded :
    (∀ (nodes : List Annotation) (pool : Pool), nodes.length ≤ 65535 →
      (∀ node ∈ nodes, node.WellFormed) →
      Pool.empty.pushAll (nodes.flatMap Annotation.constants) = some pool →
      ∃ body, Encoder.annotations nodes .empty = some (body, pool) ∧
        annotations pool.symbols body = .ok nodes) ∧
    (∀ (list : List TypeAnnotation) (pool : Pool), list.length ≤ 65535 →
      (∀ typed ∈ list, typed.WellFormed) →
      Pool.empty.pushAll (list.flatMap (·.node.constants)) = some pool →
      ∃ body, Encoder.typeAnnotations list .empty = some (body, pool) ∧
        typeAnnotations pool.symbols body = .ok list) := by
  constructor
  · intro nodes pool fits wellFormed admitted
    have writes := writes_counted fits fun node member =>
      Annotation.writes_encode node (wellFormed node member)
    obtain ⟨body, run, stands⟩ := writes .empty pool admitted
    exact ⟨body, run, (annotations_eq_ok_iff ..).mpr (stands pool.symbols (.refl _))⟩
  · intro list pool fits wellFormed admitted
    have writes := writes_counted fits fun typed member =>
      TypeAnnotation.writes_encode (wellFormed typed member)
    obtain ⟨body, run, stands⟩ := writes .empty pool admitted
    exact ⟨body, run, (typeAnnotations_eq_ok_iff ..).mpr (stands pool.symbols (.refl _))⟩

/-- A constant of two slots before an enum constant in one array, a class literal, a nested annotation
and a class name with a `;`; and a type annotation with a range and a path. -/
theorem Attribute.decode_encoded_wide :
    let elements : List Value :=
      [.primitive .long (.long 5), .enumConstant ⟨.object "E", 2⟩ "X", .classLiteral "void"]
    let nodes : List Annotation :=
      [⟨"a;b", [⟨"v", .ofElements elements⟩, ⟨"n", .nested ⟨"N", []⟩⟩]⟩]
    let list : List TypeAnnotation := [⟨.localVariable, .localVar [⟨0, 4, 1⟩], [⟨3, 1⟩], ⟨"T", []⟩⟩]
    (∃ pool, Pool.empty.pushAll (nodes.flatMap Annotation.constants) = some pool ∧
      ∃ body, Encoder.annotations nodes .empty = some (body, pool) ∧
        annotations pool.symbols body = .ok nodes) ∧
    (∃ pool, Pool.empty.pushAll (list.flatMap (·.node.constants)) = some pool ∧
      ∃ body, Encoder.typeAnnotations list .empty = some (body, pool) ∧
        typeAnnotations pool.symbols body = .ok list) := by
  intro elements nodes list
  have enumType : JavaType.parse (JavaType.descriptor ⟨.object "E", 2⟩) = .ok ⟨.object "E", 2⟩ :=
    JavaType.parse_descriptor ⟨by simp [BaseType.Valid], nofun⟩
  have wellFormed : ∀ node ∈ nodes, node.WellFormed := by
    simp [nodes, elements, Annotation.WellFormed, ElementPair.WellFormedList, ElementPair.WellFormed,
      Value.ofElements, Value.WellFormed, Value.WellFormedList, enumType]
  have typedWellFormed : ∀ typed ∈ list, typed.WellFormed := by
    intro typed member
    obtain rfl := List.mem_singleton.mp member
    exact ⟨rfl, by simp, by decide, by simp [ElementPair.WellFormedList, Annotation.WellFormed]⟩
  obtain ⟨pool, admitted⟩ : ∃ pool,
      Pool.empty.pushAll (nodes.flatMap Annotation.constants) = some pool := ⟨_, by cbv⟩
  obtain ⟨typedPool, typedAdmitted⟩ : ∃ pool,
      Pool.empty.pushAll (list.flatMap (·.node.constants)) = some pool := ⟨_, by cbv⟩
  exact ⟨⟨pool, admitted, decode_encoded.1 nodes pool (by decide) wellFormed admitted⟩,
    typedPool, typedAdmitted,
    decode_encoded.2 list typedPool (by decide) typedWellFormed typedAdmitted⟩

end Decompiler.ClassFile
