/- # Decompiler.Idiom.Print — pattern text for a tree

One line per node in preorder, indented by its depth, every rule in the form with a
parameter.
-/
import Decompiler.Idiom.Pattern

namespace Decompiler.Idiom

set_option autoImplicit false

def RuleValue.print : RuleValue → String
  | statementType type => Vocabulary.name type
  | ifType type => Vocabulary.name type
  | exprType type => Vocabulary.name type
  | functionType type => Vocabulary.name type
  | exitType type => Vocabulary.name type
  | constType type => Vocabulary.name type
  | size count => toString count.toInt
  | literal text => text
  | var name => "$" ++ name ++ "$"

def Rule.print (rule : Rule) : String :=
  rule.property.name ++ ":" ++ toString rule.parameter.toNat ++ ":" ++ rule.value.print

/-- The line of a row under a margin of spaces. -/
def Row.print (margin : Nat) (row : Row) : String :=
  String.ofList (List.replicate (margin + row.depth) ' ') ++ row.kind.name
    ++ String.join (row.rules.map fun rule => " " ++ rule.print) ++ "\n"

/-- The text of a tree under a margin of spaces. -/
def Node.print (margin : Nat) (node : Node) : String :=
  String.join ((node.preorder 0).map (Row.print margin))

end Decompiler.Idiom
