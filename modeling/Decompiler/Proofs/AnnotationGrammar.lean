/- # Decompiler.Proofs.AnnotationGrammar — annotations are decoded by their grammar

The grammar says which bytes stand for which value tree under a symbol table. It is a
relation of its own: it knows no cursor, no depth and no error. A tag is followed by its
payload; indices and counts are two bytes, high byte first; the pieces of an array, or of
an annotation's list of pairs, stand side by side and are as many as the count before
them says.

The decoder of a value is built from decoders of values inside it up to a depth, and that
depth is a third of the bytes ahead. `recognizes_elementWithin` shows that so much is
enough: a value inside another has three bytes of its parent before it, so each level
down takes three from the bound. `element_iff_grammar` is the result for whole byte
sequences.
-/
import Decompiler.ClassFile.Annotation.Decode
import Decompiler.Proofs.Recognition

namespace Decompiler.ClassFile

set_option autoImplicit false

/-- The bytes are the index of a constant. -/
def SymbolTable.Refers (symbols : SymbolTable) : Grammar Constant := fun bytes constant =>
  ∃ index, bytes = wordBytes index ∧ symbols index = some constant

/-- The letter that announces a value in the class-file format. -/
def ElementTag.letter : ElementTag → Char
  | primitive .byte => 'B'
  | primitive .char => 'C'
  | primitive .double => 'D'
  | primitive .float => 'F'
  | primitive .int => 'I'
  | primitive .long => 'J'
  | primitive .short => 'S'
  | primitive .boolean => 'Z'
  | primitive .string => 's'
  | enumConstant => 'e'
  | classLiteral => 'c'
  | array => '['
  | nested => '@'

mutual

/-- Bytes that stand for a value: a letter and the payload it announces. -/
inductive ElementGrammar (symbols : SymbolTable) : List UInt8 → Value → Prop
  | tagged {tag : ElementTag} {bytes : List UInt8} {value : Value}
      (payload : PayloadGrammar symbols tag bytes value) :
      ElementGrammar symbols (tag.letter.toUInt8 :: bytes) value

/-- Bytes that stand for a value behind a given tag. -/
inductive PayloadGrammar (symbols : SymbolTable) : ElementTag → List UInt8 → Value → Prop
  | primitive {kind : PrimitiveKind} {bytes : List UInt8} {constant : Constant}
      (refers : symbols.Refers bytes constant) :
      PayloadGrammar symbols (.primitive kind) bytes (.primitive kind constant)
  | enumConstant {typeBytes nameBytes : List UInt8} {descriptor name : String} {type : JavaType}
      (typeText : symbols.Refers typeBytes (.text descriptor))
      (nameText : symbols.Refers nameBytes (.text name))
      (denotes : JavaType.parse descriptor = .ok type) :
      PayloadGrammar symbols .enumConstant (typeBytes ++ nameBytes) (.enumConstant type name)
  | classLiteral {bytes : List UInt8} {descriptor : String} {type : JavaType}
      (typeText : symbols.Refers bytes (.text descriptor))
      (denotes : JavaType.parse descriptor = .ok type) :
      PayloadGrammar symbols .classLiteral bytes (.classLiteral type.base.reflectiveName)
  | array {count : UInt16} {pieces : List (List UInt8)} {values : List Value}
      (counted : count.toNat = values.length)
      (elements : List.Forall₂ (ElementGrammar symbols) pieces values) :
      PayloadGrammar symbols .array (wordBytes count ++ pieces.flatten) (.ofElements values)
  | nested {bytes : List UInt8} {node : Annotation}
      (inside : AnnotationGrammar symbols bytes node) :
      PayloadGrammar symbols .nested bytes (.nested node)

/-- Bytes that stand for an annotation: its type, then its pairs. -/
inductive AnnotationGrammar (symbols : SymbolTable) : List UInt8 → Annotation → Prop
  | listed {typeBytes : List UInt8} {descriptor : String} {count : UInt16}
      {pieces : List (List UInt8)} {pairs : List ElementPair}
      (typeText : symbols.Refers typeBytes (.text descriptor))
      (counted : count.toNat = pairs.length)
      (members : List.Forall₂ (PairGrammar symbols) pieces pairs) :
      AnnotationGrammar symbols (typeBytes ++ (wordBytes count ++ pieces.flatten))
        ⟨annotationClassName descriptor, pairs⟩

/-- Bytes that stand for one pair: its name, then its value. -/
inductive PairGrammar (symbols : SymbolTable) : List UInt8 → ElementPair → Prop
  | named {nameBytes bytes : List UInt8} {name : String} {value : Value}
      (nameText : symbols.Refers nameBytes (.text name))
      (element : ElementGrammar symbols bytes value) :
      PairGrammar symbols (nameBytes ++ bytes) ⟨name, value⟩

end

theorem SymbolTable.Refers.length {symbols : SymbolTable} {bytes : List UInt8}
    {constant : Constant} (refers : symbols.Refers bytes constant) : bytes.length = 2 := by
  obtain ⟨index, rfl, -⟩ := refers
  exact length_wordBytes index

theorem ElementGrammar.nonempty {symbols : SymbolTable} {value : Value} :
    ¬ ElementGrammar symbols [] value :=
  nofun

theorem AnnotationGrammar.nonempty {symbols : SymbolTable} {node : Annotation} :
    ¬ AnnotationGrammar symbols [] node := by
  intro derived
  generalize empty : ([] : List UInt8) = bytes at derived
  cases derived with
  | listed typeText =>
      have := congrArg List.length empty
      simp only [List.length_append, typeText.length, List.length_nil] at this
      omega

theorem ElementTag.byte_eq_letter (tag : ElementTag) : tag.byte = tag.letter.toUInt8 := by
  cases tag with
  | primitive kind => cases kind <;> rfl
  | _ => rfl

/-- The tag of a byte is the one whose letter the byte is. -/
theorem ElementTag.ofByte?_eq_some_iff (byte : UInt8) (tag : ElementTag) :
    ofByte? byte = some tag ↔ tag.letter.toUInt8 = byte := by
  rw [← byte_eq_letter]
  constructor
  · intro found
    simpa using List.find?_some found
  · rintro rfl
    cases tag with
    | primitive kind => cases kind <;> decide
    | _ => decide

namespace Decoder

variable {symbols : SymbolTable} {inner : Decoder Value}

/-! ## The parts of an element -/

theorem recognizes_constant (symbols : SymbolTable) (bound : Nat) :
    (constant symbols).Recognizes bound symbols.Refers := by
  refine (recognizes_seq (recognizes_u16 bound) fun index =>
    recognizes_lift bound (symbols.constant index)).congr ?_
  intro bytes found
  have resolves (index : UInt16) :
      symbols.constant index = .ok found ↔ symbols index = some found := by
    cases entry : symbols index <;> simp [SymbolTable.constant, entry]
  simp [Grammar.andThen, SymbolTable.Refers, resolves]

theorem recognizes_text (symbols : SymbolTable) (bound : Nat) :
    (text symbols).Recognizes bound fun bytes found => symbols.Refers bytes (.text found) := by
  refine (recognizes_seq (recognizes_u16 bound) fun index =>
    recognizes_lift bound (symbols.text index)).congr ?_
  intro bytes found
  have resolves (index : UInt16) :
      symbols.text index = .ok found ↔ symbols index = some (.text found) := by
    unfold SymbolTable.text
    split <;> simp_all
  simp [Grammar.andThen, SymbolTable.Refers, resolves]

theorem recognizes_pairOf {bound : Nat}
    (inside : inner.Recognizes bound (ElementGrammar symbols)) :
    (pairOf symbols inner).Recognizes bound (PairGrammar symbols) := by
  refine (recognizes_seq (recognizes_text symbols bound) fun name =>
    recognizes_map (ElementPair.mk name) inside).congr ?_
  intro bytes pair
  constructor
  · rintro ⟨nameBytes, name, body, rfl, nameText, value, element, rfl⟩
    exact .named nameText element
  · rintro ⟨nameText, element⟩
    exact ⟨_, _, _, rfl, nameText, _, element, rfl⟩

/-- The index of the type takes two bytes from the bound of the values inside. -/
theorem recognizes_annotationOf {bound : Nat}
    (inside : inner.Recognizes (bound - 2) (ElementGrammar symbols)) :
    (annotationOf symbols inner).Recognizes bound (AnnotationGrammar symbols) := by
  have pairs := recognizes_counted (recognizes_pairOf (inside.mono (Nat.sub_le _ 2)))
  refine (recognizes_bind (recognizes_text symbols bound)
    (fun _ _ refers => Nat.le_of_eq refers.length.symm)
    fun descriptor => recognizes_map
      (fun pairs => (⟨annotationClassName descriptor, pairs⟩ : Annotation)) pairs).congr ?_
  intro bytes node
  constructor
  · rintro ⟨typeBytes, descriptor, _, rfl, typeText, pairs, counted, rfl⟩
    obtain ⟨count, _, long, rfl, pieces, rfl, members⟩ := counted
    exact .listed typeText long members
  · rintro ⟨typeText, counted, members⟩
    exact ⟨_, _, _, rfl, typeText, _, ⟨_, _, counted, rfl, _, rfl, members⟩, rfl⟩

theorem recognizes_enumConstant (symbols : SymbolTable) (bound : Nat) :
    (enumConstant symbols).Recognizes bound (PayloadGrammar symbols .enumConstant) := by
  refine (recognizes_seq (recognizes_text symbols bound) fun descriptor =>
    recognizes_seq (recognizes_text symbols bound) fun name =>
      recognizes_map (Value.enumConstant · name)
        (recognizes_lift bound (JavaType.parse descriptor))).congr ?_
  intro bytes value
  constructor
  · rintro ⟨typeBytes, descriptor, _, rfl, typeText, nameBytes, name, _, rfl, nameText, type,
      ⟨rfl, denotes⟩, rfl⟩
    rw [List.append_nil]
    exact .enumConstant typeText nameText denotes
  · intro derived
    cases derived with
    | enumConstant typeText nameText denotes =>
        exact ⟨_, _, _, rfl, typeText, _, _, [], (List.append_nil _).symm, nameText, _,
          ⟨rfl, denotes⟩, rfl⟩

theorem recognizes_classLiteral (symbols : SymbolTable) (bound : Nat) :
    (classLiteral symbols).Recognizes bound (PayloadGrammar symbols .classLiteral) := by
  refine (recognizes_seq (recognizes_text symbols bound) fun descriptor =>
    recognizes_map (Value.classLiteral ·.base.reflectiveName)
      (recognizes_lift bound (JavaType.parse descriptor))).congr ?_
  intro bytes value
  constructor
  · rintro ⟨typeBytes, descriptor, _, rfl, typeText, type, ⟨rfl, denotes⟩, rfl⟩
    rw [List.append_nil]
    exact .classLiteral typeText denotes
  · intro derived
    cases derived with
    | classLiteral typeText denotes =>
        exact ⟨_, _, [], (List.append_nil _).symm, typeText, _, ⟨rfl, denotes⟩, rfl⟩

/-- Behind a tag, two more bytes precede any value inside. -/
theorem recognizes_payloadOf {bound : Nat}
    (inside : inner.Recognizes (bound - 2) (ElementGrammar symbols)) (tag : ElementTag) :
    (payloadOf symbols inner tag).Recognizes bound (PayloadGrammar symbols tag) := by
  cases tag with
  | primitive kind =>
      refine (recognizes_map (Value.primitive kind) (recognizes_constant symbols bound)).congr ?_
      intro bytes value
      constructor
      · rintro ⟨constant, refers, rfl⟩
        exact .primitive refers
      · intro derived
        cases derived with
        | primitive refers => exact ⟨_, refers, rfl⟩
  | enumConstant => exact recognizes_enumConstant symbols bound
  | classLiteral => exact recognizes_classLiteral symbols bound
  | array =>
      refine (recognizes_map Value.ofElements (recognizes_counted inside)).congr ?_
      intro bytes value
      constructor
      · rintro ⟨values, ⟨count, _, long, rfl, pieces, rfl, elements⟩, rfl⟩
        exact .array long elements
      · intro derived
        cases derived with
        | array counted elements =>
            exact ⟨_, ⟨_, _, counted, rfl, _, rfl, elements⟩, rfl⟩
  | nested =>
      refine (recognizes_map Value.nested (recognizes_annotationOf inside)).congr ?_
      intro bytes value
      constructor
      · rintro ⟨node, derived, rfl⟩
        exact .nested derived
      · intro derived
        cases derived with
        | nested inside => exact ⟨_, inside, rfl⟩

theorem recognizes_elementOf {bound : Nat}
    (inside : inner.Recognizes (bound - 3) (ElementGrammar symbols)) :
    (elementOf symbols inner).Recognizes bound (ElementGrammar symbols) := by
  refine (recognizes_bind (recognizes_u8 bound) (fun _ _ isByte => Nat.le_of_eq (by rw [isByte]; rfl))
    fun byte => recognizes_known (ElementTag.ofByte? byte)
      (fun tag isTag => by rw [isTag]; exact recognizes_payloadOf inside tag)
      (fun isNone => ⟨.invalidElementTag byte, by rw [isNone]⟩)).congr ?_
  intro bytes value
  constructor
  · rintro ⟨_, byte, rest, rfl, rfl, tag, isTag, derived⟩
    rw [ElementTag.ofByte?_eq_some_iff] at isTag
    subst isTag
    exact .tagged derived
  · rintro ⟨derived⟩
    exact ⟨_, _, _, rfl, rfl, _, (ElementTag.ofByte?_eq_some_iff ..).mpr rfl, derived⟩

/-! ## Whole values -/

/-- A third of the bytes ahead is depth enough. -/
theorem recognizes_elementWithin (symbols : SymbolTable) (depth : Nat) :
    (elementWithin symbols noneAhead depth).Recognizes (3 * depth) (ElementGrammar symbols) := by
  induction depth with
  | zero =>
      -- The bound is 0, so the decoder that stands at the bottom is never asked.
      intro position ahead short
      exact absurd short (Nat.not_lt_zero _)
  | succ depth ih => exact recognizes_elementOf (ih.mono (by omega))

/-- A decoder of something with values inside recognizes its grammar under every bound, once it does
so wherever the decoder of those values does. -/
theorem recognizes_nesting {α : Type} (symbols : SymbolTable) {outer : Decoder Value → Decoder α}
    {grammar : Grammar α}
    (around : ∀ inner bound, inner.Recognizes bound (ElementGrammar symbols) →
      (outer inner).Recognizes bound grammar) (bound : Nat) :
    (nesting symbols outer).Recognizes bound grammar := by
  intro position ahead _
  have enough := recognizes_elementWithin symbols (ahead.length / 3 + 1)
  exact around _ _ enough position ahead (by omega)

theorem recognizes_element (symbols : SymbolTable) (bound : Nat) :
    (element symbols).Recognizes bound (ElementGrammar symbols) :=
  recognizes_nesting symbols (fun _ _ inside => inside) bound

theorem recognizes_annotationTree (symbols : SymbolTable) (bound : Nat) :
    (annotationTree symbols).Recognizes bound (AnnotationGrammar symbols) :=
  recognizes_nesting symbols (fun _ _ inside =>
    recognizes_annotationOf (inside.mono (Nat.sub_le _ 2))) bound

theorem recognizes_annotations (symbols : SymbolTable) (bound : Nat) :
    (annotations symbols).Recognizes bound (Grammar.counted (AnnotationGrammar symbols)) :=
  recognizes_nesting symbols (fun _ _ inside =>
    recognizes_counted (recognizes_annotationOf (inside.mono (by omega)))) bound

/-- **Values and annotations are decoded by their grammar.** From any place in any bytes, a value
(an annotation) is the answer exactly if some slice that starts there stands for it, and the cursor is
left at the end of that slice. -/
theorem element_iff_grammar (symbols : SymbolTable) (bytes : List UInt8) (start : Nat) :
    (∀ value next, element symbols (Cursor.ofBytes bytes start) = .ok value next ↔
      ∃ stop, next = Cursor.ofBytes bytes stop ∧ start ≤ stop ∧ stop ≤ bytes.length ∧
        ElementGrammar symbols (bytes.extract start stop) value) ∧
    (∀ node next, annotationTree symbols (Cursor.ofBytes bytes start) = .ok node next ↔
      ∃ stop, next = Cursor.ofBytes bytes stop ∧ start ≤ stop ∧ stop ≤ bytes.length ∧
        AnnotationGrammar symbols (bytes.extract start stop) node) :=
  ⟨recognizes_iff_slice bytes start (recognizes_element symbols _) fun _ => ElementGrammar.nonempty,
    recognizes_iff_slice bytes start (recognizes_annotationTree symbols _)
      fun _ => AnnotationGrammar.nonempty⟩

end Decoder

end Decompiler.ClassFile
