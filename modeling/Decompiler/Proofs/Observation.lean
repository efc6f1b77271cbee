/- # Decompiler.Proofs.Observation — watching a match does not change it

A match is the same program in every monad its view answers in, so two views whose answers
correspond give matches that correspond (`View.Corresponds.matchNode`), whatever the
correspondence, as long as it goes along with `pure` and `bind`. An observed view
corresponds to whatever its view corresponds to if the reports correspond to doing nothing
(`View.Corresponds.observed`).

A log that reports are added to is forgotten at the end, and until then no answer depends
on it (`Correspondence.forgetting`). So an engine that is run with its questions listed
answers, and is left, as it is without (`Engine.runObserved_eq_run`).
-/
import Decompiler.Idiom.Request
import Decompiler.Idiom.Trace

namespace Decompiler.Idiom

set_option autoImplicit false

/-- A relation between the computations of two monads that goes along with their steps. -/
structure Correspondence (m n : Type → Type) [Monad m] [Monad n] where
  Rel : {α : Type} → m α → n α → Prop
  pure : ∀ {α : Type} (value : α), Rel (pure value) (pure value)
  bind : ∀ {α β : Type} {first : m α} {other : n α} {next : α → m β} {otherNext : α → n β},
    Rel first other → (∀ value, Rel (next value) (otherNext value)) →
      Rel (first >>= next) (other >>= otherNext)

namespace View

variable {m n : Type → Type} [Monad m] [Monad n] {τ : Type} {correspondence : Correspondence m n}

/-- Two views of the same targets with corresponding answers. -/
structure Corresponds (correspondence : Correspondence m n) (view : View m τ) (other : View n τ) :
    Prop where
  satisfies : ∀ node target,
    correspondence.Rel (view.satisfies node target) (other.satisfies node target)
  childAt : ∀ node index target,
    correspondence.Rel (view.childAt node index target) (other.childAt node index target)

namespace Corresponds

variable {view : View m τ} {other : View n τ}

/-- Reports that correspond to doing nothing change no answer. -/
theorem observed [LawfulMonad n] (corresponds : Corresponds correspondence view other)
    {report : Event τ → m Unit} (silent : ∀ event, correspondence.Rel (report event) (pure ())) :
    Corresponds correspondence (view.observed report) other where
  satisfies node target := by
    rw [← bind_pure (other.satisfies node target)]
    refine correspondence.bind (corresponds.satisfies node target) fun satisfied => ?_
    rw [← pure_bind (m := n) () fun _ => pure satisfied]
    exact correspondence.bind (silent _) fun _ => correspondence.pure satisfied
  childAt node index target := by
    rw [← pure_bind (m := n) () fun _ => other.childAt node index target]
    exact correspondence.bind (silent _) fun _ => corresponds.childAt node index target

mutual

theorem matchNode (corresponds : Corresponds correspondence view other) :
    ∀ (node : Node) (target : τ),
      correspondence.Rel (view.matchNode node target) (other.matchNode node target)
  | ⟨kind, rules, children⟩, target => by
      rw [View.matchNode, View.matchNode]
      refine correspondence.bind (corresponds.satisfies _ target) fun satisfied => ?_
      cases satisfied with
      | false => exact correspondence.pure false
      | true => exact corresponds.matchChildren children .zero target

theorem matchChildren (corresponds : Corresponds correspondence view other) :
    ∀ (children : List Node) (tally : Tally) (target : τ),
      correspondence.Rel (view.matchChildren children tally target)
        (other.matchChildren children tally target)
  | [], _, _ => by
      rw [View.matchChildren, View.matchChildren]
      exact correspondence.pure true
  | child :: rest, tally, target => by
      rw [View.matchChildren, View.matchChildren]
      refine correspondence.bind (corresponds.childAt child _ target) fun found => ?_
      cases found with
      | none => exact correspondence.pure false
      | some found =>
          refine correspondence.bind (corresponds.matchNode child found) fun matched => ?_
          cases matched with
          | false => exact correspondence.pure false
          | true => exact corresponds.matchChildren rest _ target

end

end Corresponds

end View

/-! ## Keeping a log -/

/-- The same answer and the same state from every state, whatever is in the log. -/
def Correspondence.forgetting (σ ω : Type) : Correspondence (StateT σ (StateM ω)) (StateM σ) where
  Rel logged plain := ∀ state log, ((logged.run state).run log).1 = plain.run state
  pure _ _ _ := rfl
  bind related later := by
    intro state log
    rw [StateT.run_bind, StateT.run_bind, StateT.run_bind, ← related state log]
    -- The log that the first computation leaves is as good as any other for the second.
    exact later _ _ _

/-- Answers by requests do not look at the log. -/
theorem View.ofRequests_corresponds {V τ ω : Type} [BEq V]
    (requests : NodeKind → List Rule → τ → List (Request V))
    (childAt : NodeKind → Nat → τ → Option τ) :
    Corresponds (.forgetting (Bindings V) ω) (.ofRequests requests childAt)
      (.ofRequests requests childAt) where
  satisfies _ _ _ _ := rfl
  childAt _ _ _ _ _ := rfl

/-- **Listing the questions of a match changes neither its answer nor the bindings it leaves.** -/
theorem Engine.runObserved_eq_run {V τ : Type} [BEq V] (engine : Engine V)
    (requests : NodeKind → List Rule → τ → List (Request V))
    (childAt : NodeKind → Nat → τ → Option τ) (target : τ) :
    (engine.runObserved (.ofRequests requests childAt) target).1 =
      Id.run (engine.run (.ofRequests requests childAt) target) := by
  have watched : View.Corresponds (.forgetting (Bindings V) (Array (Event τ)))
      (View.observed (.ofRequests requests childAt) Event.note) (.ofRequests requests childAt) :=
    (View.ofRequests_corresponds requests childAt).observed fun _ _ _ => rfl
  have same := watched.matchNode engine.pattern.root target .empty #[]
  exact congrArg (fun left => (left.1, { engine with bindings := left.2 })) same

end Decompiler.Idiom
