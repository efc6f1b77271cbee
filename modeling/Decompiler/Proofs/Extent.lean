/- # Decompiler.Proofs.Extent — how deep a decoder goes and how far it reads

*Depth.* A value decodes by decoding the values inside it, and how deep these go is up to
the bytes. Each level takes three bytes before the next begins, so a third of the bytes
ahead, and one more, bounds the depth of every run, whether it succeeds or fails and
whatever counts it reads on the way: a decoder with so much depth never gets to what stands
at its bottom (`around_elementWithin`). The recursion therefore has a solution, and only
the one (`eq_elementOf_iff`).

*Width.* The bytes that a tree was decoded from are as many as its shape says
(`Item.length_eq_width`), under every symbol table. Three of them at least go to each value
(`Item.three_values_le_width`).
-/
import Decompiler.Proofs.Item

namespace Decompiler.ClassFile

set_option autoImplicit false

/-! ## Depth -/

namespace Decoder

variable {α : Type}

/-- Two runs with nothing more around the one than around the other are the same. -/
theorem Lockstep.run_eq {bound : Nat} {shorter longer : Decoder α}
    (lockstep : Lockstep bound shorter longer) {cursor : Cursor} (short : cursor.remaining < bound) :
    longer cursor = shorter cursor := by
  have unmoved (place : Cursor) : place.placed 0 [] = place := by simp [Cursor.placed]
  have outcome := lockstep 0 [] cursor short
  rw [unmoved] at outcome
  generalize shorter cursor = result at outcome ⊢
  generalize longer cursor = other at outcome ⊢
  cases outcome with
  | answered => rw [unmoved]
  | refused => rw [unmoved]
  | starved _ _ same => rw [same rfl, unmoved, Nat.zero_add]

variable (symbols : SymbolTable)

/-- With depth enough for the bytes ahead, the bottom is not reached. -/
theorem around_elementWithin (item : Item) (exhausted : Decoder Value) {depth : Nat} {cursor : Cursor}
    (enough : cursor.remaining / 3 + 1 ≤ depth) :
    item.around symbols (elementWithin symbols exhausted depth) cursor =
      item.decoder symbols cursor := by
  obtain ⟨extra, rfl⟩ := Nat.exists_eq_add_of_le enough
  have inside :=
    lockstep_elementWithin symbols noneAhead exhausted (cursor.remaining / 3 + 1) extra
  rw [item.decoder_eq_nesting]
  exact (item.lockstep_around symbols inside).run_eq (by omega)

theorem elementWithin_eq_element (exhausted : Decoder Value) {depth : Nat} {cursor : Cursor}
    (enough : cursor.remaining / 3 + 1 ≤ depth) :
    elementWithin symbols exhausted depth cursor = element symbols cursor :=
  around_elementWithin symbols .element exhausted enough

/-- A decoder of limited depth beside the one without a limit. -/
theorem lockstep_element_unlimited (exhausted : Decoder Value) (depth : Nat) :
    Lockstep (3 * depth) (elementWithin symbols exhausted depth) (element symbols) := by
  intro before after start short
  -- The bytes around it may be few or many, so the depth of the other run is raised past both.
  have raised := elementWithin_eq_element symbols noneAhead
    (Nat.le_add_left ((start.placed before after).remaining / 3 + 1) depth)
  rw [← raised]
  exact lockstep_elementWithin symbols exhausted noneAhead depth _ before after start short

/-- A value is decoded by decoding the values inside it in the same way. -/
theorem element_eq_elementOf : element symbols = elementOf symbols (element symbols) := by
  funext cursor
  have unlimited := lockstep_element_unlimited symbols noneAhead (cursor.remaining / 3)
  have oneLevel : Lockstep (3 * (cursor.remaining / 3) + 3)
      (elementWithin symbols noneAhead (cursor.remaining / 3 + 1))
      (elementOf symbols (element symbols)) := lockstep_elementOf unlimited
  exact (oneLevel.run_eq (by omega)).symm

theorem elementWithin_of_eq_elementOf {decoder : Decoder Value}
    (solves : decoder = elementOf symbols decoder) (depth : Nat) :
    elementWithin symbols decoder depth = decoder := by
  induction depth with
  | zero => rfl
  | succ depth ih => rw [elementWithin, ih, ← solves]

/-- The recursion has one solution. -/
theorem eq_elementOf_iff (decoder : Decoder Value) :
    decoder = elementOf symbols decoder ↔ decoder = element symbols := by
  constructor
  · intro solves
    funext cursor
    calc decoder cursor
        = elementWithin symbols decoder (cursor.remaining / 3 + 1) cursor := by
          rw [elementWithin_of_eq_elementOf symbols solves]
      _ = element symbols cursor := elementWithin_eq_element symbols decoder (Nat.le_refl _)
  · rintro rfl
    exact element_eq_elementOf symbols

end Decoder

/-! ## Width -/

mutual

/-- The number of bytes that a value takes. -/
def Value.width : Value → Nat
  | .primitive _ _ => 3
  | .classLiteral _ => 3
  | .enumConstant _ _ => 5
  | .array _ elements => 3 + Value.widthList elements
  | .nested node => 1 + node.width

def Value.widthList : List Value → Nat
  | [] => 0
  | value :: rest => value.width + Value.widthList rest

def Annotation.width : Annotation → Nat
  | ⟨_, pairs⟩ => 4 + ElementPair.widthList pairs

def ElementPair.widthList : List ElementPair → Nat
  | [] => 0
  | pair :: rest => pair.width + ElementPair.widthList rest

def ElementPair.width : ElementPair → Nat
  | ⟨_, value⟩ => 2 + value.width

end

def TargetInfo.width : TargetInfo → Nat
  | typeParameter _ => 1
  | supertype _ => 2
  | typeParameterBound _ _ => 2
  | empty => 0
  | formalParameter _ => 1
  | throws _ => 2
  | localVar ranges => 2 + 6 * ranges.length
  | exceptionHandler _ => 2
  | offset _ => 2
  | typeArgument _ _ => 3

def TypeAnnotation.width (typed : TypeAnnotation) : Nat :=
  1 + typed.info.width + (1 + 2 * typed.path.length) + typed.node.width

/-- The number of bytes of a counted list. -/
def countedWidth {α : Type} (width : α → Nat) (items : List α) : Nat :=
  2 + items.foldr (width · + ·) 0

/-- The number of bytes that an item's tree takes. -/
def Item.width : (item : Item) → item.Tree → Nat
  | element, value => Value.width value
  | annotationTree, node => Annotation.width node
  | annotations, nodes => countedWidth Annotation.width nodes
  | typeAnnotationTree, typed => TypeAnnotation.width typed
  | typeAnnotations, list => countedWidth TypeAnnotation.width list

section Lengths

variable {symbols : SymbolTable}

mutual

theorem ElementGrammar.length_eq_width : ∀ (value : Value) (bytes : List UInt8),
    ElementGrammar symbols bytes value → bytes.length = value.width
  | .primitive kind constant, _, .tagged payload => by
      cases payload with
      | primitive refers => rw [List.length_cons, refers.length, Value.width]
  | .classLiteral name, _, .tagged payload => by
      cases payload with
      | classLiteral typeText => rw [List.length_cons, typeText.length, Value.width]
  | .enumConstant type name, _, .tagged payload => by
      cases payload with
      | enumConstant typeText nameText =>
          rw [List.length_cons, List.length_append, typeText.length, nameText.length, Value.width]
  | .array type elements, _, .tagged payload => by
      cases payload with
      | array _ pieces =>
          rw [List.length_cons, List.length_append, length_wordBytes,
            ElementGrammar.length_flatten elements _ pieces, Value.width]
          omega
  | .nested node, _, .tagged payload => by
      cases payload with
      | nested inside =>
          rw [List.length_cons, AnnotationGrammar.length_eq_width node _ inside, Value.width]
          omega

theorem ElementGrammar.length_flatten : ∀ (elements : List Value) (pieces : List (List UInt8)),
    List.Forall₂ (ElementGrammar symbols) pieces elements →
      pieces.flatten.length = Value.widthList elements
  | [], [], .nil => rfl
  | value :: rest, piece :: pieces, .cons first others => by
      rw [List.flatten_cons, List.length_append, ElementGrammar.length_eq_width value piece first,
        ElementGrammar.length_flatten rest pieces others, Value.widthList]

theorem AnnotationGrammar.length_eq_width : ∀ (node : Annotation) (bytes : List UInt8),
    AnnotationGrammar symbols bytes node → bytes.length = node.width
  | ⟨typeName, pairs⟩, _, derived => by
      cases derived with
      | listed typeText _ members =>
          rw [List.length_append, List.length_append, typeText.length, length_wordBytes,
            PairGrammar.length_flatten pairs _ members, Annotation.width]
          omega

theorem PairGrammar.length_flatten : ∀ (pairs : List ElementPair) (pieces : List (List UInt8)),
    List.Forall₂ (PairGrammar symbols) pieces pairs →
      pieces.flatten.length = ElementPair.widthList pairs
  | [], [], .nil => rfl
  | pair :: rest, piece :: pieces, .cons first others => by
      rw [List.flatten_cons, List.length_append, PairGrammar.length_eq_width pair piece first,
        PairGrammar.length_flatten rest pieces others, ElementPair.widthList]

theorem PairGrammar.length_eq_width : ∀ (pair : ElementPair) (bytes : List UInt8),
    PairGrammar symbols bytes pair → bytes.length = pair.width
  | ⟨name, value⟩, _, .named nameText element => by
      rw [List.length_append, nameText.length, ElementGrammar.length_eq_width value _ element,
        ElementPair.width]

end

/-- Where each item has the width given for it, so has the list of them. -/
theorem Grammar.counted_length {α : Type} {item : Grammar α} {width : α → Nat}
    (exact : ∀ bytes value, item bytes value → bytes.length = width value) {bytes : List UInt8}
    {values : List α} (derived : Grammar.counted item bytes values) :
    bytes.length = countedWidth width values := by
  obtain ⟨count, _, -, rfl, pieces, rfl, matched⟩ := derived
  have body : pieces.flatten.length = values.foldr (width · + ·) 0 := by
    clear * - exact matched
    induction matched with
    | nil => rfl
    | cons first _ ih =>
        rw [List.flatten_cons, List.length_append, exact _ _ first, ih, List.foldr_cons]
  rw [List.length_append, length_wordBytes, body, countedWidth]

/-- Items that are written in so many bytes each. -/
theorem length_flatMap_of_const {α : Type} {write : α → List UInt8} {width : Nat}
    (fixed : ∀ item, (write item).length = width) (items : List α) :
    (items.flatMap write).length = width * items.length := by
  induction items with
  | nil => rfl
  | cons item rest ih =>
      rw [List.flatMap_cons, List.length_append, fixed, ih, List.length_cons, Nat.mul_succ,
        Nat.add_comm]

theorem LocalVarRange.length_bytes (range : LocalVarRange) : range.bytes.length = 6 := rfl

theorem PathStep.length_bytes (step : PathStep) : step.bytes.length = 2 := rfl

theorem InfoGrammar.length_eq_width {bytes : List UInt8} {info : TargetInfo}
    (layout : InfoGrammar bytes info) : bytes.length = info.width := by
  cases info with
  | localVar ranges =>
      obtain ⟨count, body, -, rfl, listed⟩ := layout
      obtain rfl := (Grammar.listOf_written LocalVarRange.bytes body ranges).mp listed
      rw [List.length_append, length_wordBytes,
        length_flatMap_of_const LocalVarRange.length_bytes, TargetInfo.width]
  | typeParameter | supertype | typeParameterBound | empty | formalParameter | throws
  | exceptionHandler | offset | typeArgument =>
      obtain rfl := layout
      rfl

theorem PathGrammar.length_eq {bytes : List UInt8} {steps : List PathStep}
    (layout : PathGrammar bytes steps) : bytes.length = 1 + 2 * steps.length := by
  obtain ⟨length, -, rfl⟩ := layout
  rw [List.length_cons, length_flatMap_of_const PathStep.length_bytes, Nat.add_comm]

theorem TypedGrammar.length_eq_width (typed : TypeAnnotation) (bytes : List UInt8)
    (derived : TypedGrammar symbols bytes typed) : bytes.length = typed.width := by
  cases derived with
  | listed _ infoLayout pathLayout inside =>
      rw [List.length_cons, List.length_append, List.length_append, infoLayout.length_eq_width,
        pathLayout.length_eq, AnnotationGrammar.length_eq_width _ _ inside]
      unfold TypeAnnotation.width
      dsimp only
      omega

theorem Item.length_eq_width {item : Item} {bytes : List UInt8} {tree : item.Tree}
    (derived : item.grammar symbols bytes tree) : bytes.length = item.width tree := by
  cases item with
  | element => exact ElementGrammar.length_eq_width _ _ derived
  | annotationTree => exact AnnotationGrammar.length_eq_width _ _ derived
  | annotations =>
      exact Grammar.counted_length (fun _ node => AnnotationGrammar.length_eq_width node _) derived
  | typeAnnotationTree => exact TypedGrammar.length_eq_width _ _ derived
  | typeAnnotations =>
      exact Grammar.counted_length (fun _ typed => TypedGrammar.length_eq_width typed _) derived

end Lengths

/-! ## Values and bytes -/

mutual

theorem Value.three_values_le_width : ∀ value : Value, 3 * value.values.length ≤ value.width
  | .primitive _ _ => Nat.le_refl 3
  | .classLiteral _ => Nat.le_refl 3
  | .enumConstant _ _ => by
      show 3 ≤ 5
      omega
  | .array type elements => by
      have inside := Value.three_valuesList_le_width elements
      rw [Value.values, Value.width, List.length_cons]
      omega
  | .nested node => by
      have inside := Annotation.three_values_le_width node
      rw [Value.values, Value.width, List.length_cons]
      omega

theorem Value.three_valuesList_le_width : ∀ elements : List Value,
    3 * (Value.valuesList elements).length ≤ Value.widthList elements
  | [] => Nat.le_refl 0
  | value :: rest => by
      have first := Value.three_values_le_width value
      have others := Value.three_valuesList_le_width rest
      rw [Value.valuesList, Value.widthList, List.length_append]
      omega

/-- The four bytes at the head of an annotation are left over. -/
theorem Annotation.three_values_le_width : ∀ node : Annotation,
    3 * node.values.length + 4 ≤ node.width
  | ⟨_, pairs⟩ => by
      have inside := ElementPair.three_valuesList_le_width pairs
      unfold Annotation.values Annotation.width
      omega

theorem ElementPair.three_valuesList_le_width : ∀ pairs : List ElementPair,
    3 * (ElementPair.valuesList pairs).length ≤ ElementPair.widthList pairs
  | [] => Nat.le_refl 0
  | pair :: rest => by
      have first := ElementPair.three_values_le_width pair
      have others := ElementPair.three_valuesList_le_width rest
      rw [ElementPair.valuesList, ElementPair.widthList, List.length_append]
      omega

theorem ElementPair.three_values_le_width : ∀ pair : ElementPair,
    3 * pair.values.length ≤ pair.width
  | ⟨_, value⟩ => by
      have inside := Value.three_values_le_width value
      rw [ElementPair.values, ElementPair.width]
      omega

end

theorem three_flatMap_le_countedWidth {α : Type} {values : α → List Value} {width : α → Nat}
    (each : ∀ item, 3 * (values item).length ≤ width item) (items : List α) :
    3 * (items.flatMap values).length ≤ countedWidth width items := by
  have body : 3 * (items.flatMap values).length ≤ items.foldr (width · + ·) 0 := by
    induction items with
    | nil => exact Nat.le_refl 0
    | cons item rest ih =>
        have first := each item
        rw [List.flatMap_cons, List.length_append, List.foldr_cons]
        omega
  rw [countedWidth]
  omega

theorem Item.three_values_le_width (item : Item) (tree : item.Tree) :
    3 * (item.values tree).length ≤ item.width tree := by
  have node (node : Annotation) : 3 * node.values.length ≤ node.width := by
    have := node.three_values_le_width
    omega
  have typed (typed : TypeAnnotation) : 3 * typed.values.length ≤ typed.width := by
    have := node typed.node
    unfold TypeAnnotation.values TypeAnnotation.width
    omega
  cases item with
  | element => exact Value.three_values_le_width tree
  | annotationTree => exact node tree
  | annotations => exact three_flatMap_le_countedWidth node tree
  | typeAnnotationTree => exact typed tree
  | typeAnnotations => exact three_flatMap_le_countedWidth typed tree

/-- **Recursion is bounded and consumption exact**, under every symbol table. Decoding a value by
decoding the values inside it has one solution. With a third of the bytes ahead and one more as depth,
none of the decoders gets to what stands at the bottom, however its run ends. On success, a decoder
goes forward by the width of its tree, which has at most a third as many values as bytes. -/
theorem decoders_bounded (symbols : SymbolTable) :
    (∀ decoder : Decoder Value,
      decoder = Decoder.elementOf symbols decoder ↔ decoder = Decoder.element symbols) ∧
    (∀ (item : Item) (exhausted : Decoder Value) (depth : Nat) (cursor : Cursor),
      cursor.remaining / 3 + 1 ≤ depth →
        item.around symbols (Decoder.elementWithin symbols exhausted depth) cursor =
          item.decoder symbols cursor) ∧
    (∀ (item : Item) (cursor next : Cursor) (tree : item.Tree),
      item.decoder symbols cursor = .ok tree next →
        next = ⟨cursor.position + item.width tree, cursor.ahead.drop (item.width tree)⟩ ∧
          item.width tree ≤ cursor.remaining ∧ 3 * (item.values tree).length ≤ item.width tree) := by
  refine ⟨Decoder.eq_elementOf_iff symbols, fun item exhausted depth cursor =>
    Decoder.around_elementWithin symbols item exhausted, fun item cursor next tree decoded => ?_⟩
  obtain ⟨bytes, split, position, derived⟩ := Item.derived_of_decoded decoded
  have length := Item.length_eq_width derived
  refine ⟨?_, ?_, item.three_values_le_width tree⟩
  · rw [← length, split, List.drop_left, ← position]
  · rw [← length, Cursor.remaining, split, List.length_append]
    omega

/-- An empty array inside an array takes three bytes for each value. Of arrays that claim 65535
elements and have none, a depth of three is enough to find that the bytes end. -/
theorem nested_arrays_bounded :
    let symbols : SymbolTable := fun _ => none
    let tree : Value := .ofElements [.ofElements []]
    let short : Cursor := Cursor.start [91, 255, 255, 91, 255, 255]
    Decoder.element symbols (Cursor.start [91, 0, 1, 91, 0, 0]) = .ok tree ⟨6, []⟩ ∧
      tree.width ≤ 6 ∧ 3 * tree.values.length ≤ tree.width ∧
      short.remaining / 3 + 1 ≤ 3 ∧
      ∀ exhausted : Decoder Value,
        Decoder.elementWithin symbols exhausted 3 short = .error (.unexpectedEnd 6 1 0) ⟨6, []⟩ := by
  intro symbols tree short
  have decoded : Decoder.element symbols (Cursor.start [91, 0, 1, 91, 0, 0]) = .ok tree ⟨6, []⟩ := by
    with_unfolding_all rfl
  have starved : Decoder.element symbols short = .error (.unexpectedEnd 6 1 0) ⟨6, []⟩ := by
    with_unfolding_all rfl
  obtain ⟨-, deepEnough, extent⟩ := decoders_bounded symbols
  obtain ⟨-, within, values⟩ := extent .element _ _ tree decoded
  exact ⟨decoded, within, values, by decide, fun exhausted =>
    (deepEnough .element exhausted 3 short (by decide)).trans starved⟩

end Decompiler.ClassFile
