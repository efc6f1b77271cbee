/- # Decompiler.Idiom.Vocabulary — the words a rule's value can be

Properties with a closed set of values take one of these words. A misspelt word is
then a fault of the pattern, and never a rule that silently matches nothing.
-/

namespace Decompiler.Idiom

set_option autoImplicit false

/-- A finite set of words. -/
class Vocabulary (α : Type) where
  /-- The members, in the order in which they are listed. -/
  all : List α
  /-- How pattern text spells a member. -/
  name : α → String

/-- The member that is spelt so. -/
def Vocabulary.ofName? {α : Type} [Vocabulary α] (text : String) : Option α :=
  (Vocabulary.all : List α).find? fun member => Vocabulary.name member == text

/-- Kinds of statement. -/
inductive StatementType where
  | ifThen | doLoop | switch | tryCatch | basicBlock | sequence
deriving DecidableEq, Repr

instance : Vocabulary StatementType where
  all := [.ifThen, .doLoop, .switch, .tryCatch, .basicBlock, .sequence]
  name
    | .ifThen => "if"
    | .doLoop => "do"
    | .switch => "switch"
    | .tryCatch => "trycatch"
    | .basicBlock => "basicblock"
    | .sequence => "sequence"

/-- Whether a conditional statement has an alternative. -/
inductive IfType where
  | ifThen | ifElse
deriving DecidableEq, Repr

instance : Vocabulary IfType where
  all := [.ifThen, .ifElse]
  name
    | .ifThen => "if"
    | .ifElse => "ifelse"

/-- Kinds of expression. -/
inductive ExprType where
  | array | assignment | constant | exit | field | function | condition | invocation | monitor
  | creation | switch | var | annotationExpr | assertion
deriving DecidableEq, Repr

instance : Vocabulary ExprType where
  all := [.array, .assignment, .constant, .exit, .field, .function, .condition, .invocation,
    .monitor, .creation, .switch, .var, .annotationExpr, .assertion]
  name
    | .array => "array"
    | .assignment => "assignment"
    | .constant => "constant"
    | .exit => "exit"
    | .field => "field"
    | .function => "function"
    | .condition => "if"
    | .invocation => "invocation"
    | .monitor => "monitor"
    | .creation => "new"
    | .switch => "switch"
    | .var => "var"
    | .annotationExpr => "annotation"
    | .assertion => "assert"

/-- Operators of function expressions. -/
inductive FunctionType where
  | equal
deriving DecidableEq, Repr

instance : Vocabulary FunctionType where
  all := [.equal]
  name
    | .equal => "eq"

/-- Kinds of exit expression. -/
inductive ExitType where
  | ret | throw
deriving DecidableEq, Repr

instance : Vocabulary ExitType where
  all := [.ret, .throw]
  name
    | .ret => "return"
    | .throw => "throw"

/-- Types of constant expressions. -/
inductive ConstType where
  | null | string
deriving DecidableEq, Repr

instance : Vocabulary ConstType where
  all := [.null, .string]
  name
    | .null => "null"
    | .string => "string"

end Decompiler.Idiom
