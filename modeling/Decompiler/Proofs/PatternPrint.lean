/- # Decompiler.Proofs.PatternPrint — every well-formed tree has a text that compiles to it

A tree is well-formed if each rule is on a property of its node's kind and has a value of
the form that the property admits, in letters that a token can hold. `compile_print` says
that the text printed for such a tree, under any margin, compiles to exactly that tree.

The proof follows the text from the inside out. A value is read back by its property
(`read_print`), a rule from its token (`parse_print`), a row from its line
(`parse_content`), and the printed lines are placed as the rows of a tree are. Building
the tree from the rows is the matter of `Decompiler.Proofs.PatternTree`.
-/
import Decompiler.Idiom.Print
import Decompiler.Proofs.PatternText
import Decompiler.Proofs.WrittenText

namespace Decompiler.Idiom

set_option autoImplicit false

/-! ## Well-formed trees -/

/-- Free text that is read back as it is: the name of a variable, or a literal that does not have the
form of one. -/
inductive RuleValue.IsFree : RuleValue → Prop
  | var {name : String} (field : Text.IsField name.toList) : IsFree (.var name)
  | literal {text : String} (field : Text.IsField text.toList)
      (notVar : ∀ name, name ≠ "" → text ≠ "$" ++ name ++ "$") : IsFree (.literal text)

/-- The values that a property admits. -/
def Property.Admits (property : Property) (value : RuleValue) : Prop :=
  match property with
  | statementType => ∃ type, value = .statementType type
  | statementIfType => ∃ type, value = .ifType type
  | exprType => ∃ type, value = .exprType type
  | exprFuncType => ∃ type, value = .functionType type
  | exprExitType => ∃ type, value = .exitType type
  | exprConstType => ∃ type, value = .constType type
  | statementStatSize | statementExprSize => ∃ count, value = .size count
  | statementRet | statementPosition | exprRet | exprPosition | exprConstValue | invocationClass
  | invocationSignature | invocationParameter | varIndex | fieldName => value.IsFree

/-- The rule can stand on a node of that kind. -/
structure Rule.FitsOn (kind : NodeKind) (rule : Rule) : Prop where
  nodeKind : rule.property.nodeKind = kind
  value : rule.property.Admits rule.value

mutual

/-- Every rule in the tree fits on its node. -/
def Node.WellFormed : Node → Prop
  | ⟨kind, rules, children⟩ => (∀ rule ∈ rules, rule.FitsOn kind) ∧ Node.WellFormedList children

def Node.WellFormedList : List Node → Prop
  | [] => True
  | node :: rest => node.WellFormed ∧ Node.WellFormedList rest

end

mutual

theorem Node.WellFormed.rows (depth : Nat) : ∀ node : Node, node.WellFormed →
    ∀ row ∈ node.preorder depth, ∀ rule ∈ row.rules, rule.FitsOn row.kind
  | ⟨kind, rules, children⟩, wellFormed, row, member => by
      rw [Node.WellFormed] at wellFormed
      rw [Node.preorder] at member
      rcases List.mem_cons.mp member with rfl | below
      · exact wellFormed.1
      · exact Node.WellFormedList.rows (depth + 1) children wellFormed.2 row below

theorem Node.WellFormedList.rows (depth : Nat) : ∀ nodes : List Node, Node.WellFormedList nodes →
    ∀ row ∈ Node.preorderList depth nodes, ∀ rule ∈ row.rules, rule.FitsOn row.kind
  | node :: rest, wellFormed, row, member => by
      rw [Node.WellFormedList] at wellFormed
      rw [Node.preorderList] at member
      rcases List.mem_append.mp member with first | others
      · exact Node.WellFormed.rows depth node wellFormed.1 row first
      · exact Node.WellFormedList.rows depth rest wellFormed.2 row others

end

/-! ## Values -/

/-- Members are spelt apart from each other, in letters that a token can hold. -/
class Vocabulary.Lawful (α : Type) [Vocabulary α] : Prop where
  ofName?_name : ∀ member : α, ofName? (name member) = some member
  isField_name : ∀ member : α, Text.IsField (name member).toList

instance : Vocabulary.Lawful StatementType where
  ofName?_name member := by cases member <;> decide
  isField_name member := by cases member <;> decide

instance : Vocabulary.Lawful IfType where
  ofName?_name member := by cases member <;> decide
  isField_name member := by cases member <;> decide

instance : Vocabulary.Lawful ExprType where
  ofName?_name member := by cases member <;> decide
  isField_name member := by cases member <;> decide

instance : Vocabulary.Lawful FunctionType where
  ofName?_name | .equal => by decide
  isField_name | .equal => by decide

instance : Vocabulary.Lawful ExitType where
  ofName?_name member := by cases member <;> decide
  isField_name member := by cases member <;> decide

instance : Vocabulary.Lawful ConstType where
  ofName?_name member := by cases member <;> decide
  isField_name member := by cases member <;> decide

/-- A word of a vocabulary is read back, under whatever case of value it is kept. -/
theorem Vocabulary.read_name {α : Type} [Vocabulary α] [Vocabulary.Lawful α] (keep : α → RuleValue)
    (member : α) :
    (ofName? (String.ofList (name member).toList)).map keep = some (keep member) ∧
      Text.IsField (name member).toList := by
  rw [String.ofList_toList, Lawful.ofName?_name]
  exact ⟨rfl, Lawful.isField_name member⟩

namespace RuleValue

theorem variableName?_var (name : List Char) (nonempty : name ≠ []) :
    variableName? ('$' :: (name ++ ['$'])) = some name := by
  simp [variableName?, nonempty]

/-- Only text between two `$` names a variable. -/
theorem variableName?_eq_some {text name : List Char} (found : variableName? text = some name) :
    name ≠ [] ∧ text = '$' :: (name ++ ['$']) := by
  unfold variableName? at found
  split at found
  · next rest =>
      split at found
      · next closed =>
          obtain rfl : rest.dropLast = name := by simpa using found
          exact ⟨closed.2, by rw [List.dropLast_append_getLast? '$' closed.1]⟩
      · cases found
  · cases found

theorem toList_print_var (name : String) :
    (print (.var name)).toList = '$' :: (name.toList ++ ['$']) := by
  simp [print]

theorem ofFreeText_print {value : RuleValue} (free : value.IsFree) :
    ofFreeText value.print.toList = value := by
  cases free with
  | @var name field =>
      rw [toList_print_var, ofFreeText, variableName?_var _ field.1]
      simp
  | @literal text field notVar =>
      have literal : variableName? text.toList = none := by
        cases found : variableName? text.toList with
        | none => rfl
        | some name =>
            obtain ⟨nonempty, same⟩ := variableName?_eq_some found
            refine absurd ?_ (notVar (String.ofList name) (by simpa using nonempty))
            rw [← String.toList_inj, same]
            simp
      simp [print, ofFreeText, literal]

theorem IsFree.isField_print {value : RuleValue} (free : value.IsFree) :
    Text.IsField value.print.toList := by
  cases free with
  | literal field _ => exact field
  | @var name field =>
      rw [toList_print_var]
      refine ⟨by simp, fun c member => ?_⟩
      have dollar : Text.isBlank '$' = false ∧ '$' ≠ ':' := by decide
      simp only [List.mem_cons, List.mem_append, List.not_mem_nil, or_false] at member
      rcases member with rfl | inside | rfl
      · exact dollar
      · exact field.2 c inside
      · exact dollar

end RuleValue

namespace Property

theorem ofName?_name (property : Property) :
    ofName? property.nodeKind property.name = some property := by
  cases property <;> decide

theorem isField_name (property : Property) : Text.IsField property.name.toList := by
  cases property <;> decide

/-- A property reads back the values that it admits, and they can stand in a token. -/
theorem read_print {property : Property} {value : RuleValue} (admits : property.Admits value) :
    property.value? value.print.toList = some value ∧ Text.IsField value.print.toList := by
  cases property with
  | statementType | statementIfType | exprType | exprFuncType | exprExitType | exprConstType =>
      obtain ⟨type, rfl⟩ := admits
      exact Vocabulary.read_name _ type
  | statementStatSize | statementExprSize =>
      obtain ⟨count, rfl⟩ := admits
      have read : (Text.int32? (toString count.toInt).toList).map RuleValue.size =
          some (.size count) := by
        rw [Text.int32?_toString]
        rfl
      exact ⟨read, Text.isField_toString count.toInt⟩
  | statementRet | statementPosition | exprRet | exprPosition | exprConstValue | invocationClass
  | invocationSignature | invocationParameter | varIndex | fieldName =>
      exact ⟨congrArg some (RuleValue.ofFreeText_print admits),
        RuleValue.IsFree.isField_print admits⟩

end Property

/-! ## Rules -/

namespace Rule

theorem toList_print (rule : Rule) :
    rule.print.toList = rule.property.name.toList ++
      ':' :: (Nat.toDigits 10 rule.parameter.toNat ++ ':' :: rule.value.print.toList) := by
  have numeral : (toString rule.parameter.toNat).toList = Nat.toDigits 10 rule.parameter.toNat :=
    Nat.toList_repr
  simp only [print, String.toList_append, numeral, List.append_assoc]
  rfl

theorem isWord_print {kind : NodeKind} {rule : Rule} (fits : rule.FitsOn kind) :
    Text.IsWord rule.print.toList := by
  rw [toList_print]
  exact Text.IsField.isWord_three rule.property.isField_name
    (Text.isField_toDigits rule.parameter.toNat) (Property.read_print fits.value).2

/-- A rule is read back from its token. -/
theorem parse_print {kind : NodeKind} {rule : Rule} (fits : rule.FitsOn kind) :
    parse kind rule.print.toList = .ok rule := by
  obtain ⟨property, parameter, value⟩ := rule
  obtain ⟨rfl, admits⟩ := fits
  have name := property.isField_name
  have numeral := Text.isField_toDigits parameter.toNat
  obtain ⟨read, field⟩ := Property.read_print admits
  have split : split? (print ⟨property, parameter, value⟩).toList =
      some (property.name.toList, some (Nat.toDigits 10 parameter.toNat), value.print.toList) := by
    rw [toList_print, split?, Text.fields_three name.no_colon numeral.no_colon field.no_colon]
    exact if_pos ⟨name.1, numeral.1, field.1⟩
  have parameterRead : parseParameter (some (Nat.toDigits 10 parameter.toNat)) = .ok parameter := by
    have number := Text.uint32?_toString parameter
    rw [show (toString parameter.toNat).toList = Nat.toDigits 10 parameter.toNat from
      Nat.toList_repr] at number
    rw [parseParameter, number]
  rw [parse, split]
  simp only [String.ofList_toList, Property.ofName?_name, parameterRead]
  simp only [bind, Except.bind, read]

/-- Rules are read back from their tokens, in order. -/
theorem mapM_parse_print {kind : NodeKind} (rules : List Rule)
    (fit : ∀ rule ∈ rules, rule.FitsOn kind) :
    (rules.map (·.print.toList)).mapM (parse kind) = .ok rules := by
  induction rules with
  | nil => rfl
  | cons rule rest ih =>
      rw [List.map_cons, List.mapM_cons, parse_print (fit rule List.mem_cons_self),
        ih fun other member => fit other (List.mem_cons_of_mem _ member)]
      rfl

end Rule

/-! ## Lines -/

theorem NodeKind.isWord_name (kind : NodeKind) : Text.IsWord kind.name.toList := by
  cases kind <;> decide

theorem NodeKind.ofWord_name (kind : NodeKind) :
    ofWord (String.ofList kind.name.toList) = kind := by
  cases kind <;> decide

namespace Row

/-- What follows the spaces on the line of a row. -/
def content (row : Row) : List Char :=
  row.kind.name.toList ++ row.rules.flatMap fun rule => ' ' :: rule.print.toList

/-- The line of a row, without the line feed. -/
def line (margin : Nat) (row : Row) : List Char :=
  List.replicate (margin + row.depth) ' ' ++ row.content

theorem toList_print (margin : Nat) (row : Row) :
    (row.print margin).toList = row.line margin ++ ['\n'] := by
  simp [print, line, content, String.toList_join, List.flatMap_map]

/-- A line does not begin with a blank after its leading spaces. -/
theorem content_eq_cons (row : Row) :
    ∃ first rest, row.content = first :: rest ∧ Text.isBlank first = false := by
  obtain ⟨nonempty, unblank⟩ := row.kind.isWord_name
  obtain ⟨first, rest, spelt⟩ := List.exists_cons_of_ne_nil nonempty
  rw [content, spelt]
  exact ⟨first, _, rfl, unblank first (spelt ▸ List.mem_cons_self)⟩

theorem parse_content {row : Row} (fit : ∀ rule ∈ row.rules, rule.FitsOn row.kind) :
    Line.parse row.content = .ok (row.kind, row.rules) := by
  have tokens : ∀ token ∈ row.rules.map (·.print.toList), Text.IsWord token := by
    intro token member
    obtain ⟨rule, isRule, rfl⟩ := List.mem_map.mp member
    exact Rule.isWord_print (fit rule isRule)
  have words := Text.words_written row.kind.name.toList _ row.kind.isWord_name tokens
  rw [List.flatMap_map] at words
  rw [Line.parse, content, words]
  simp only [NodeKind.ofWord_name, Rule.mapM_parse_print row.rules fit]
  rfl

theorem spaces_before (margin : Nat) (row : Row) :
    ∀ c ∈ List.replicate (margin + row.depth) ' ', (c == ' ') = true := by
  intro c member
  simp [List.eq_of_mem_replicate member]

theorem content_no_space (row : Row) :
    row.content.takeWhile (· == ' ') = [] ∧ row.content.dropWhile (· == ' ') = row.content := by
  obtain ⟨first, rest, spelt, unblank⟩ := row.content_eq_cons
  have other : (first == ' ') = false := by
    rw [beq_eq_false_iff_ne]
    rintro rfl
    exact absurd unblank (by decide)
  rw [spelt, List.takeWhile_cons, List.dropWhile_cons, other]
  exact ⟨rfl, rfl⟩

@[simp] theorem leadingSpaces_line (margin : Nat) (row : Row) :
    leadingSpaces (row.line margin) = margin + row.depth := by
  rw [leadingSpaces, line, List.takeWhile_append_of_pos (spaces_before margin row),
    row.content_no_space.1, List.append_nil, List.length_replicate]

@[simp] theorem pastSpaces_line (margin : Nat) (row : Row) :
    pastSpaces (row.line margin) = row.content := by
  rw [pastSpaces, line, List.dropWhile_append_of_pos (spaces_before margin row),
    row.content_no_space.2]

theorem untabbed (row : Row) : row.content.head? ≠ some '\t' := by
  obtain ⟨first, rest, spelt, unblank⟩ := row.content_eq_cons
  rw [spelt]
  rintro ⟨⟩
  exact absurd unblank (by decide)

/-- The only blanks on a line are spaces. -/
theorem line_blank {margin : Nat} {row : Row} (fit : ∀ rule ∈ row.rules, rule.FitsOn row.kind)
    {c : Char} (member : c ∈ row.line margin) : c = ' ' ∨ Text.isBlank c = false := by
  simp only [line, content, List.mem_append, List.mem_flatMap, List.mem_cons] at member
  rcases member with space | inKind | ⟨rule, isRule, rfl | inRule⟩
  · exact .inl (List.eq_of_mem_replicate space)
  · exact .inr (row.kind.isWord_name.2 c inKind)
  · exact .inl rfl
  · exact .inr ((Rule.isWord_print (fit rule isRule)).2 c inRule)

theorem line_unbroken {margin : Nat} {row : Row} (fit : ∀ rule ∈ row.rules, rule.FitsOn row.kind) :
    '\n' ∉ row.line margin ∧ (row.line margin).getLast? ≠ some '\r' := by
  constructor
  · intro member
    exact absurd (line_blank fit member) (by decide)
  · intro last
    exact absurd (line_blank fit (List.mem_of_getLast? last)) (by decide)

theorem line_not_blank (margin : Nat) (row : Row) :
    (row.line margin).all Text.isBlank = false := by
  obtain ⟨first, rest, spelt, unblank⟩ := row.content_eq_cons
  simp [line, spelt, unblank]

end Row

/-! ## The whole text -/

theorem Node.toList_print (margin : Nat) (node : Node) :
    (node.print margin).toList =
      ((node.preorder 0).map (Row.line margin)).flatMap (· ++ ['\n']) := by
  simp only [Node.print, String.toList_join, List.flatMap_map, Row.toList_print]

/-- The lines of the printed text are those of the rows, and none of them is blank. -/
theorem writtenLines_print {node : Node} (wellFormed : node.WellFormed) (margin : Nat) :
    writtenLines (node.print margin).toList = (node.preorder 0).map (Row.line margin) := by
  have fit := Node.WellFormed.rows 0 node wellFormed
  have unbroken : ∀ line ∈ (node.preorder 0).map (Row.line margin),
      '\n' ∉ line ∧ line.getLast? ≠ some '\r' := by
    intro line member
    obtain ⟨row, isRow, rfl⟩ := List.mem_map.mp member
    exact Row.line_unbroken (fit row isRow)
  rw [writtenLines, written, Node.toList_print, Text.lines_written _ unbroken, List.filter_eq_self]
  intro line member
  obtain ⟨row, -, rfl⟩ := List.mem_map.mp member
  rw [Row.line_not_blank]
  rfl

/-- **Every well-formed tree has a text that compiles to it**: the one printed for it, under a margin
of any width. -/
theorem Pattern.compile_print (node : Node) (margin : Nat) (wellFormed : node.WellFormed) :
    compile (node.print margin) = .ok ⟨node⟩ := by
  have fit := Node.WellFormed.rows 0 node wellFormed
  have root : Idiom.margin ((node.preorder 0).map (Row.line margin)) = margin := by
    rw [Node.preorder_eq_cons]
    simp [Idiom.margin]
  have read : Line.rows (Line.ofPattern (node.print margin).toList) = .ok (node.preorder 0) := by
    rw [Line.rows_ofPattern_eq_ok_iff, writtenLines_print wellFormed, root]
    refine ⟨?_, ?_, ?_, ?_⟩
    · intro line member
      obtain ⟨row, -, rfl⟩ := List.mem_map.mp member
      rw [Row.pastSpaces_line]
      exact row.untabbed
    · rw [← List.map_tail, Node.preorder_eq_cons, List.tail_cons]
      intro line member
      obtain ⟨row, isRow, rfl⟩ := List.mem_map.mp member
      have below := Node.le_depth_preorderList 1 node.children row isRow
      rw [Row.leadingSpaces_line]
      omega
    · rw [List.isChain_map]
      refine (Node.isChain_preorder 0 node).imp fun before row step => ?_
      rw [OneDeeper, Row.leadingSpaces_line, Row.leadingSpaces_line]
      omega
    · rw [List.forall₂_map_left_iff, List.forall₂_same]
      intro row isRow
      exact ⟨by simp, by rw [Row.pastSpaces_line]; exact Row.parse_content (fit row isRow)⟩
  rw [compile_eq_ok_iff]
  exact ⟨node.preorder 0, read, by rw [Forest.ofRows_preorder]; rfl⟩

/-- A literal that nearly is a variable, a variable with `$` in its name, and the extreme numbers, on
a tree that goes down and up again. -/
theorem Pattern.compile_print_extreme :
    let leaf : Node := ⟨.expression, [⟨.fieldName, 4294967295, .literal "$$"⟩,
      ⟨.varIndex, 0, .var "a$b"⟩, ⟨.exprType, 7, .exprType .creation⟩], []⟩
    let node : Node := ⟨.statement, [⟨.statementStatSize, 0, .size (-2147483648)⟩],
      [⟨.statement, [], [leaf]⟩, leaf]⟩
    node.WellFormed ∧ compile (node.print 3) = .ok ⟨node⟩ := by
  intro leaf node
  have notVar : ∀ name, name ≠ "" → "$$" ≠ "$" ++ name ++ "$" := by
    intro name nonempty same
    have literal : RuleValue.variableName? "$$".toList = none := by decide
    rw [same, ← RuleValue.print, RuleValue.toList_print_var,
      RuleValue.variableName?_var _ (by simpa using nonempty)] at literal
    cases literal
  have leafFits : ∀ rule ∈ leaf.rules, rule.FitsOn .expression := by
    intro rule member
    simp only [leaf, List.mem_cons, List.not_mem_nil, or_false] at member
    rcases member with rfl | rfl | rfl
    · exact ⟨rfl, .literal (by decide) notVar⟩
    · exact ⟨rfl, .var (by decide)⟩
    · exact ⟨rfl, _, rfl⟩
  have rootFits : ∀ rule ∈ node.rules, rule.FitsOn .statement := by
    intro rule member
    obtain rfl := List.mem_singleton.mp member
    exact ⟨rfl, _, rfl⟩
  have wellFormed : node.WellFormed :=
    ⟨rootFits, ⟨nofun, ⟨leafFits, trivial⟩, trivial⟩, ⟨leafFits, trivial⟩, trivial⟩
  exact ⟨wellFormed, compile_print node 3 wellFormed⟩

end Decompiler.Idiom
