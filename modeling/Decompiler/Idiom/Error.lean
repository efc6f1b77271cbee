/- # Decompiler.Idiom.Error — what can be wrong with pattern text

A text without nodes is `empty`; every other fault belongs to one line, counted from
one with blank lines included.
-/
import Decompiler.Idiom.Property

namespace Decompiler.Idiom

set_option autoImplicit false

/-- What is wrong with a rule. -/
inductive RuleFault where
  /-- Not two or three nonempty fields. -/
  | malformed (token : String)
  | unknownProperty (kind : NodeKind) (name : String)
  | invalidParameter (text : String)
  | invalidValue (property : Property) (text : String)
deriving DecidableEq, Repr

/-- What is wrong with a line. -/
inductive LineFault where
  /-- A tab right after the leading spaces. -/
  | tabIndent
  /-- A line after the first that is indented no more than the first. -/
  | multipleRoots
  /-- A line indented more than one space past the line before it. -/
  | indentTooDeep
  | rule (fault : RuleFault)
deriving DecidableEq, Repr

/-- What is wrong with a pattern text. -/
inductive PatternError where
  | empty
  | line (number : Nat) (fault : LineFault)
deriving DecidableEq, Repr

def RuleFault.message : RuleFault → String
  | malformed token => s!"malformed rule `{token}`"
  | unknownProperty kind name => s!"unknown matching property `{name}` for {kind.name} node"
  | invalidParameter text => s!"rule parameter `{text}` is not a non-negative integer"
  | invalidValue property text => s!"invalid value `{text}` for property `{property.name}`"

def LineFault.message : LineFault → String
  | tabIndent => "indentation must use spaces"
  | multipleRoots => "pattern has more than one root node"
  | indentTooDeep => "indentation skips a nesting level"
  | rule fault => fault.message

def PatternError.message : PatternError → String
  | empty => "match pattern has no nodes"
  | line number fault => s!"line {number}: {fault.message}"

end Decompiler.Idiom
