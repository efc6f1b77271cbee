/- # Decompiler.Idiom.Match — matching a pattern against a tree

A match goes depth first and never back. At a pattern node the target says whether it
satisfies the node's rules; then each child of the node is matched against the target's
child of the same kind and the same position among its kind. The first failure ends the
match.

The target is seen through a `View`, whose answers may have effects: binding variables
is one of them. An `Engine` keeps a pattern together with the bindings its last match
left, also where that match failed.
-/
import Decompiler.Idiom.Pattern
import Decompiler.Idiom.Bindings

namespace Decompiler.Idiom

set_option autoImplicit false

/-- What a match can ask of target nodes of type `τ`. -/
structure View (m : Type → Type) (τ : Type) where
  /-- Whether the target satisfies all rules of a pattern node. -/
  satisfies : Node → τ → m Bool
  /-- The target's child for a pattern node, given its position among the children of its kind. -/
  childAt : Node → Nat → τ → m (Option τ)

/-- How many children of each kind have been met. -/
structure Tally where
  statements : Nat
  expressions : Nat
deriving DecidableEq, Repr

namespace Tally

def zero : Tally := ⟨0, 0⟩

def count (tally : Tally) : NodeKind → Nat
  | .statement => tally.statements
  | .expression => tally.expressions

def add (tally : Tally) : NodeKind → Tally
  | .statement => { tally with statements := tally.statements + 1 }
  | .expression => { tally with expressions := tally.expressions + 1 }

end Tally

namespace View

variable {m : Type → Type} {τ : Type} [Monad m]

mutual

/-- Whether a pattern node and everything below it match a target. -/
def matchNode (view : View m τ) : Node → τ → m Bool
  | ⟨kind, rules, children⟩, target => do
      if ← view.satisfies ⟨kind, rules, children⟩ target then
        view.matchChildren children .zero target
      else
        return false

/-- Whether children match those of a target, after the earlier ones in the tally. -/
def matchChildren (view : View m τ) : List Node → Tally → τ → m Bool
  | [], _, _ => return true
  | child :: rest, tally, target => do
      match ← view.childAt child (tally.count child.kind) target with
      | none => return false
      | some found =>
          if ← view.matchNode child found then
            view.matchChildren rest (tally.add child.kind) target
          else
            return false

end

end View

/-- A pattern and the bindings of its last match. -/
structure Engine (V : Type) where
  pattern : Pattern
  bindings : Bindings V

namespace Engine

variable {V : Type}

def ofPattern (pattern : Pattern) : Engine V := ⟨pattern, .empty⟩

/-- An engine for the pattern that a text stands for. -/
def compile (text : String) : Except PatternError (Engine V) :=
  (Pattern.compile text).map ofPattern

/-- Matches the pattern against a target, from empty bindings. -/
def run {m : Type → Type} {τ : Type} [Monad m] (engine : Engine V)
    (view : View (StateT (Bindings V) m) τ) (target : τ) : m (Bool × Engine V) := do
  let (matched, bindings) ← (view.matchNode engine.pattern.root target).run .empty
  return (matched, { engine with bindings })

/-- The value that the last match bound to a name. -/
def value? (engine : Engine V) (name : String) : Option V :=
  engine.bindings.get? name

end Engine

end Decompiler.Idiom
