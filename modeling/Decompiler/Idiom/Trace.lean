/- # Decompiler.Idiom.Trace — watching a match

An observed view answers as the view it is made from and reports each question as it is
put, so the order of a match's questions can be seen. `Engine.runObserved` keeps the
reports of a whole match.
-/
import Decompiler.Idiom.Match

namespace Decompiler.Idiom

set_option autoImplicit false

/-- A question of a match, reported with the answer where the answer is decided by rules. -/
inductive Event (τ : Type) where
  | examined (target : τ) (satisfied : Bool)
  | childSought (target : τ) (kind : NodeKind) (index : Nat)

def View.observed {m : Type → Type} {τ : Type} [Monad m] (view : View m τ)
    (report : Event τ → m Unit) : View m τ where
  satisfies node target := do
    let satisfied ← view.satisfies node target
    report (.examined target satisfied)
    return satisfied
  childAt node index target := do
    report (.childSought target node.kind index)
    view.childAt node index target

/-- Adds a question to a list of them that is kept beside the bindings. -/
def Event.note {V τ : Type} (event : Event τ) : StateT (Bindings V) (StateM (Array (Event τ))) Unit :=
  StateT.lift (modify (·.push event))

/-- Runs an engine and lists the questions it put, in order. -/
def Engine.runObserved {V τ : Type} (engine : Engine V)
    (view : View (StateT (Bindings V) (StateM (Array (Event τ)))) τ) (target : τ) :
    (Bool × Engine V) × Array (Event τ) :=
  (engine.run (view.observed Event.note) target).run #[]

end Decompiler.Idiom
