/- # Decompiler.Idiom.Property — what a rule can ask of a node, and of which values

Statements and expressions have properties of their own, under names that may repeat:
`type` is one property of statements and another of expressions. A property's value is
a word of its vocabulary, a size, or free text; free text between two `$` is a
variable.
-/
import Decompiler.Text.Numeral
import Decompiler.Idiom.Vocabulary

namespace Decompiler.Idiom

set_option autoImplicit false

/-- The two kinds of node. -/
inductive NodeKind where
  | statement
  | expression
deriving DecidableEq, Repr

namespace NodeKind

def name : NodeKind → String
  | statement => "statement"
  | expression => "expression"

/-- Only `statement` names a statement; every other word names an expression. -/
def ofWord (word : String) : NodeKind :=
  if word = "statement" then statement else expression

end NodeKind

/-- A property that a rule can constrain. -/
inductive Property where
  | statementType
  | statementRet
  | statementPosition
  | statementStatSize
  | statementExprSize
  | statementIfType
  | exprType
  | exprRet
  | exprPosition
  | exprFuncType
  | exprExitType
  | exprConstType
  | exprConstValue
  | invocationClass
  | invocationSignature
  | invocationParameter
  | varIndex
  | fieldName
deriving DecidableEq, Repr

/-- The value of a rule. -/
inductive RuleValue where
  | statementType (type : StatementType)
  | ifType (type : IfType)
  | exprType (type : ExprType)
  | functionType (type : FunctionType)
  | exitType (type : ExitType)
  | constType (type : ConstType)
  | size (count : Int32)
  /-- Compared as it is with what the target shows. -/
  | literal (text : String)
  /-- Bound where it first occurs, compared wherever it occurs again. -/
  | var (name : String)
deriving DecidableEq, Repr

namespace RuleValue

def var? : RuleValue → Option String
  | var name => some name
  | _ => none

def literal? : RuleValue → Option String
  | literal text => some text
  | _ => none

/-- The name between two `$`, if the text has that form and the name is not empty. -/
def variableName? : List Char → Option (List Char)
  | '$' :: rest =>
      if rest.getLast? = some '$' ∧ rest.dropLast ≠ [] then some rest.dropLast else none
  | _ => none

/-- Free text: a variable if it has the form of one, else a literal. -/
def ofFreeText (text : List Char) : RuleValue :=
  match variableName? text with
  | some name => var (String.ofList name)
  | none => literal (String.ofList text)

end RuleValue

namespace Property

/-- The kind of node that has the property. -/
def nodeKind : Property → NodeKind
  | statementType | statementRet | statementPosition | statementStatSize | statementExprSize
  | statementIfType => .statement
  | exprType | exprRet | exprPosition | exprFuncType | exprExitType | exprConstType
  | exprConstValue | invocationClass | invocationSignature | invocationParameter | varIndex
  | fieldName => .expression

def name : Property → String
  | statementType | exprType => "type"
  | statementRet | exprRet => "ret"
  | statementPosition | exprPosition => "position"
  | statementStatSize => "statsize"
  | statementExprSize => "exprsize"
  | statementIfType => "iftype"
  | exprFuncType => "functype"
  | exprExitType => "exittype"
  | exprConstType => "consttype"
  | exprConstValue => "constvalue"
  | invocationClass => "invclass"
  | invocationSignature => "signature"
  | invocationParameter => "parameter"
  | varIndex => "index"
  | fieldName => "name"

/-- The properties that rules can name on nodes of a kind. -/
def table : NodeKind → List (String × Property)
  | .statement =>
      [("type", statementType), ("ret", statementRet), ("position", statementPosition),
        ("statsize", statementStatSize), ("exprsize", statementExprSize),
        ("iftype", statementIfType)]
  | .expression =>
      [("type", exprType), ("ret", exprRet), ("position", exprPosition),
        ("functype", exprFuncType), ("exittype", exprExitType), ("consttype", exprConstType),
        ("constvalue", exprConstValue), ("invclass", invocationClass),
        ("signature", invocationSignature), ("parameter", invocationParameter),
        ("index", varIndex), ("name", fieldName)]

/-- The property of that name on nodes of that kind. -/
def ofName? (kind : NodeKind) (name : String) : Option Property :=
  (table kind).lookup name

/-- Each table holds the properties of its kind, all of them, under the names they have. -/
theorem mem_table_iff (kind : NodeKind) (name : String) (property : Property) :
    (name, property) ∈ table kind ↔ property.nodeKind = kind ∧ property.name = name := by
  constructor
  · have entries : ∀ entry ∈ table kind, entry.2.nodeKind = kind ∧ entry.2.name = entry.1 := by
      cases kind <;> decide
    exact entries (name, property)
  · rintro ⟨rfl, rfl⟩
    cases property <;> decide

/-- The value that a text denotes for the property, if it denotes one. -/
def value? (property : Property) (text : List Char) : Option RuleValue :=
  match property with
  | statementType => (Vocabulary.ofName? (String.ofList text)).map .statementType
  | statementIfType => (Vocabulary.ofName? (String.ofList text)).map .ifType
  | exprType => (Vocabulary.ofName? (String.ofList text)).map .exprType
  | exprFuncType => (Vocabulary.ofName? (String.ofList text)).map .functionType
  | exprExitType => (Vocabulary.ofName? (String.ofList text)).map .exitType
  | exprConstType => (Vocabulary.ofName? (String.ofList text)).map .constType
  | statementStatSize | statementExprSize => (Text.int32? text).map .size
  | statementRet | statementPosition | exprRet | exprPosition | exprConstValue | invocationClass
  | invocationSignature | invocationParameter | varIndex | fieldName =>
      some (.ofFreeText text)

end Property

end Decompiler.Idiom
