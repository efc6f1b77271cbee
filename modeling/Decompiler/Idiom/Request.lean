/- # Decompiler.Idiom.Request — targets that answer rule by rule

Most targets decide a node by going through a list of requests: a check that holds or
fails whatever is bound, or a value offered for a variable. The requests are fixed by
the target and by the pattern node's kind and rules; they are met in order and the first
that fails ends the list, with the bindings made so far left in place.
-/
import Decompiler.Idiom.Match

namespace Decompiler.Idiom

set_option autoImplicit false

inductive Request (V : Type) where
  | check (holds : Bool)
  | bind (name : String) (value : V)

namespace Request

variable {V : Type} [BEq V]

/-- Meets one request. -/
def meet : Request V → Bindings V → Bool × Bindings V
  | check holds, bindings => (holds, bindings)
  | bind name value, bindings => bindings.unify name value

/-- Meets requests in order, up to the first that fails. -/
def meetAll : List (Request V) → Bindings V → Bool × Bindings V
  | [], bindings => (true, bindings)
  | request :: rest, bindings =>
      match request.meet bindings with
      | (true, next) => meetAll rest next
      | (false, next) => (false, next)

end Request

/-- The view of a target that answers by requests and whose children are found by kind and
position. -/
def View.ofRequests {m : Type → Type} [Monad m] {V τ : Type} [BEq V]
    (requests : NodeKind → List Rule → τ → List (Request V))
    (childAt : NodeKind → Nat → τ → Option τ) : View (StateT (Bindings V) m) τ where
  satisfies node target := modifyGet (Request.meetAll (requests node.kind node.rules target))
  childAt node index target := pure (childAt node.kind index target)

end Decompiler.Idiom
