/- # Decompiler.Idiom.Sketch — a plain tree to match patterns against

A sketch node has a kind, properties by name, and children apart by kind. A rule is met
by the property of its name: by the item at the rule's parameter if the property is a
list, and by the property itself otherwise. A rule on a property that is not there
fails.
-/
import Decompiler.Form
import Decompiler.Idiom.Request

namespace Decompiler.Idiom

set_option autoImplicit false

structure Sketch where
  id : String
  kind : NodeKind
  properties : List (String × Form)
  statements : List Sketch
  expressions : List Sketch

namespace Sketch

/-- What a sketch shows for a rule. -/
def shown? (sketch : Sketch) (rule : Rule) : Option Form :=
  match sketch.properties.lookup rule.property.name with
  | some (.list items) => items[rule.parameter.toNat]?
  | shown => shown

/-- The request that a value makes of what is shown. -/
def requestFor (shown : Form) : RuleValue → Request Form
  | .statementType type => .check (shown == .text (Vocabulary.name type))
  | .ifType type => .check (shown == .text (Vocabulary.name type))
  | .exprType type => .check (shown == .text (Vocabulary.name type))
  | .functionType type => .check (shown == .text (Vocabulary.name type))
  | .exitType type => .check (shown == .text (Vocabulary.name type))
  | .constType type => .check (shown == .text (Vocabulary.name type))
  | .size count => .check (shown == .integer count.toInt)
  | .literal text => .check (shown == .text text)
  | .var name => .bind name shown

/-- The request of a rule. -/
def request (sketch : Sketch) (rule : Rule) : Request Form :=
  match sketch.shown? rule with
  | some shown => requestFor shown rule.value
  | none => .check false

/-- First the kind, then the rules. -/
def requests (kind : NodeKind) (rules : List Rule) (sketch : Sketch) : List (Request Form) :=
  .check (sketch.kind == kind) :: rules.map sketch.request

def childAt (kind : NodeKind) (index : Nat) (sketch : Sketch) : Option Sketch :=
  match kind with
  | .statement => sketch.statements[index]?
  | .expression => sketch.expressions[index]?

/-- The view through which a sketch is matched. -/
def view {m : Type → Type} [Monad m] : View (StateT (Bindings Form) m) Sketch :=
  .ofRequests requests childAt

end Sketch

end Decompiler.Idiom
