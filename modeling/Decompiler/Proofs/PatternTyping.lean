/- # Decompiler.Proofs.PatternTyping — every compiled pattern is well-formed

A text that compiles has rules only where they belong: each is on a property of its node's
kind, with a value of the form that the property admits. Free text is cut from a word at
colons, so it is not empty and has no blank and no colon in it, and it is a variable
whenever it has the form of one. `Rule.fitsOn_of_parse` says so of one token, and
`Line.fitsOn_of_parse` of a line. Trees are assembled from rows one at a time, and
`Forest.wellFormed_attach` is the step that keeps them well-formed.
-/
import Decompiler.Proofs.RuleToken

namespace Decompiler.Idiom

set_option autoImplicit false

/-! ## Values -/

namespace RuleValue

/-- Free text is taken for a variable whenever it has the form of one. -/
theorem isFree_ofFreeText {text : List Char} (field : Text.IsField text) :
    (ofFreeText text).IsFree := by
  unfold ofFreeText
  cases found : variableName? text with
  | some name =>
      obtain ⟨nonempty, rfl⟩ := variableName?_eq_some found
      refine .var ?_
      rw [String.toList_ofList]
      exact ⟨nonempty, fun c member => field.2 c (by simp [member])⟩
  | none =>
      refine .literal (by rwa [String.toList_ofList]) ?_
      intro name nonempty same
      have spelt : text = '$' :: (name.toList ++ ['$']) := by
        rw [← toList_print_var, print, ← same, String.toList_ofList]
      rw [spelt, variableName?_var _ (by simpa using nonempty)] at found
      cases found

end RuleValue

/-- What a property reads from a field is a value that it admits. -/
theorem Property.admits_of_value? {property : Property} {text : List Char} {value : RuleValue}
    (field : Text.IsField text) (read : property.value? text = some value) :
    property.Admits value := by
  cases property with
  | statementType | statementIfType | exprType | exprFuncType | exprExitType | exprConstType
  | statementStatSize | statementExprSize =>
      obtain ⟨member, -, rfl⟩ := Option.map_eq_some_iff.mp read
      exact ⟨member, rfl⟩
  | statementRet | statementPosition | exprRet | exprPosition | exprConstValue | invocationClass
  | invocationSignature | invocationParameter | varIndex | fieldName =>
      obtain rfl := Option.some.inj read
      exact RuleValue.isFree_ofFreeText field

/-! ## Tokens and lines -/

section Successes

variable {α β ε : Type}

theorem bind_eq_ok_iff (first : Except ε α) (second : α → Except ε β) (result : β) :
    (first >>= second) = .ok result ↔ ∃ value, first = .ok value ∧ second value = .ok result := by
  cases first <;> simp [bind, Except.bind]

/-- Whatever a list is mapped to comes from one of its items. -/
theorem exists_of_mem_mapM {f : α → Except ε β} {items : List α} {values : List β}
    (mapped : items.mapM f = .ok values) : ∀ value ∈ values, ∃ item ∈ items, f item = .ok value := by
  induction items generalizing values with
  | nil =>
      cases mapped
      exact nofun
  | cons first rest ih =>
      simp only [List.mapM_cons, bind_eq_ok_iff] at mapped
      obtain ⟨head, readHead, others, readOthers, same⟩ := mapped
      cases same
      intro value member
      rcases List.mem_cons.mp member with rfl | later
      · exact ⟨first, List.mem_cons_self, readHead⟩
      · obtain ⟨item, isItem, read⟩ := ih readOthers value later
        exact ⟨item, List.mem_cons_of_mem _ isItem, read⟩

end Successes

namespace Rule

/-- The last field of a word has no blank in it either. -/
theorem Fields.isField_value {token name value : List Char} {parameter : Option (List Char)}
    (fields : Fields token name parameter value) (isWord : Text.IsWord token) :
    Text.IsField value := by
  have part : IsPart value ∧ ∀ c ∈ value, c ∈ token := by
    cases fields with
    | two _ isValue => exact ⟨isValue, fun c member => by simp [member]⟩
    | three _ _ isValue => exact ⟨isValue, fun c member => by simp [member]⟩
  obtain ⟨⟨nonempty, noColon⟩, within⟩ := part
  refine ⟨nonempty, fun c member => ⟨isWord.2 c (within c member), ?_⟩⟩
  rintro rfl
  exact noColon member

theorem fitsOn_of_parse {kind : NodeKind} {token : List Char} {rule : Rule}
    (isWord : Text.IsWord token) (read : parse kind token = .ok rule) : rule.FitsOn kind := by
  unfold parse at read
  split at read
  · cases read
  · next name parameter text shape =>
      have field := ((split?_eq_some_iff ..).mp shape).isField_value isWord
      split at read
      · cases read
      · next property known =>
          obtain ⟨number, -, read⟩ := (bind_eq_ok_iff ..).mp read
          split at read
          · cases read
          · next value admitted =>
              cases read
              exact ⟨((Property.ofName?_eq_some_iff ..).mp known).1,
                Property.admits_of_value? field admitted⟩

end Rule

/-- Every rule that a line spells fits on a node of the kind that the line spells. -/
theorem Line.fitsOn_of_parse {content : List Char} {kind : NodeKind} {rules : List Rule}
    (read : parse content = .ok (kind, rules)) : ∀ rule ∈ rules, rule.FitsOn kind := by
  unfold parse at read
  split at read
  · cases read
    exact nofun
  · next word tokens words =>
      obtain ⟨found, mapped, same⟩ := (bind_eq_ok_iff ..).mp read
      cases same
      intro rule member
      obtain ⟨token, isToken, readRule⟩ := exists_of_mem_mapM mapped rule member
      have isWord : Text.IsWord token :=
        Text.isWord_of_mem_words (words ▸ List.mem_cons_of_mem _ isToken)
      exact Rule.fitsOn_of_parse isWord readRule

/-! ## The tree -/

theorem Node.wellFormedList_iff (nodes : List Node) :
    Node.WellFormedList nodes ↔ ∀ node ∈ nodes, node.WellFormed := by
  induction nodes with
  | nil => simp [Node.WellFormedList]
  | cons node rest ih => simp [Node.WellFormedList, ih]

namespace Forest

/-- Every tree of the forest is well-formed. -/
def WellFormed (forest : Forest) : Prop :=
  ∀ entry ∈ forest, entry.2.WellFormed

theorem wellFormed_attach {row : Row} {forest : Forest}
    (fit : ∀ rule ∈ row.rules, rule.FitsOn row.kind) (wellFormed : forest.WellFormed) :
    (attach row forest).WellFormed := by
  intro entry member
  rcases List.mem_cons.mp member with rfl | other
  · refine ⟨fit, (Node.wellFormedList_iff _).mpr ?_⟩
    intro child isChild
    obtain ⟨below, isBelow, rfl⟩ := List.mem_map.mp isChild
    exact wellFormed below ((List.takeWhile_prefix _).mem isBelow)
  · exact wellFormed entry ((List.dropWhile_suffix _).mem other)

theorem wellFormed_ofRows (rows : List Row)
    (fit : ∀ row ∈ rows, ∀ rule ∈ row.rules, rule.FitsOn row.kind) : (ofRows rows).WellFormed := by
  induction rows with
  | nil => exact nofun
  | cons row rest ih =>
      rw [List.forall_mem_cons] at fit
      exact wellFormed_attach fit.1 (ih fit.2)

end Forest

/-- Well-formedness reaches every node along every path. -/
theorem Node.WellFormed.descendant {node below : Node} (wellFormed : node.WellFormed)
    {path : List Nat} (found : node.descendant? path = some below) :
    ∀ rule ∈ below.rules, rule.FitsOn below.kind := by
  induction path generalizing node with
  | nil =>
      cases found
      obtain ⟨kind, rules, children⟩ := below
      exact wellFormed.1
  | cons index path ih =>
      unfold descendant? at found
      split at found
      · next child isChild =>
          obtain ⟨kind, rules, children⟩ := node
          have inside := (Node.wellFormedList_iff _).mp wellFormed.2
          exact ih (inside child (List.mem_of_getElem? isChild)) found
      · cases found

namespace Pattern

theorem wellFormed_of_compile {text : String} {pattern : Pattern}
    (compiled : compile text = .ok pattern) : pattern.root.WellFormed := by
  obtain ⟨rows, read, built⟩ := (compile_eq_ok_iff ..).mp compiled
  obtain ⟨-, -, -, spelled⟩ := (Line.rows_ofPattern_eq_ok_iff ..).mp read
  have each : List.Forall₂ (fun row line => (∀ rule ∈ row.rules, rule.FitsOn row.kind) ∧
      Spells (margin (writtenLines text.toList)) line row) rows (writtenLines text.toList) :=
    spelled.flip.imp fun row line spells => ⟨Line.fitsOn_of_parse spells.2, spells⟩
  have fit := ((List.forall₂_and_left ..).mp each).1
  obtain ⟨entry, isFirst, same⟩ := Option.map_eq_some_iff.mp built
  rw [← same]
  exact Forest.wellFormed_ofRows rows fit entry (List.mem_of_head? isFirst)

/-- **Every compiled pattern is well-typed**: all over its tree, a rule is on a property of its node's
kind and has a value of the form that the property admits. -/
theorem compile_wellTyped (text : String) (pattern : Pattern)
    (compiled : compile text = .ok pattern) (path : List Nat) (node : Node)
    (found : pattern.root.descendant? path = some node) (rule : Rule) (isRule : rule ∈ node.rules) :
    rule.property.nodeKind = node.kind ∧ rule.property.Admits rule.value := by
  obtain ⟨nodeKind, value⟩ := (wellFormed_of_compile compiled).descendant found rule isRule
  exact ⟨nodeKind, value⟩

/-- The same name on a node of either kind, a literal that nearly is a variable, and a variable with a
`$` in its name. -/
theorem nested_rules_wellTyped :
    let leaf : Node := ⟨.expression, [⟨.exprRet, 0, .literal "$$"⟩, ⟨.varIndex, 2, .var "a$b"⟩], []⟩
    let root : Node := ⟨.statement, [⟨.statementRet, 0, .var "r"⟩], [leaf]⟩
    compile " statement ret:$r$\n  expression ret:$$ index:2:$a$b$" = .ok ⟨root⟩ ∧
      root.descendant? [0] = some leaf ∧
      ∀ rule ∈ leaf.rules, rule.property.nodeKind = leaf.kind ∧ rule.property.Admits rule.value := by
  intro leaf root
  have compiled : compile " statement ret:$r$\n  expression ret:$$ index:2:$a$b$" = .ok ⟨root⟩ := by
    with_unfolding_all rfl
  exact ⟨compiled, rfl, compile_wellTyped _ _ compiled [0] leaf rfl⟩

end Pattern

end Decompiler.Idiom
