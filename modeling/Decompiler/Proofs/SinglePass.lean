/- # Decompiler.Proofs.SinglePass — a match tries nodes in preorder, each at most once

That a match equals one pass over the alignment (`matchNode_eq_visit`) leaves open how it
gets there. Here the questions themselves are recorded: `recorded` answers as the target
does and notes each node it is asked about, the target asked, and the state before and
after. `matchNode_single_pass` says of every match, also of one that fails, that

* its answer and the state it leaves are those of the pass over the alignment, whose nodes
  are the pattern's nodes in preorder;
* the nodes tried are a first part of the alignment, so none is skipped, tried twice or
  tried after a failure;
* each trial starts from exactly the state that the one before it left, and the last one
  left the final state, so nothing is taken back.
-/
import Decompiler.Proofs.Alignment

namespace Decompiler.Idiom

set_option autoImplicit false

variable {σ τ V : Type}

/-- One question of a match, with the state before and after it. -/
structure Trial (σ τ : Type) where
  node : Node
  target : τ
  given : σ
  left : σ

/-- The place of a trial in an alignment. -/
def Trial.aligned (trial : Trial σ τ) : Node × Option τ :=
  (trial.node, some trial.target)

/-- Each trial starts from what the one before it left, the first one from `first`, and the last one
leaves `last`. -/
def Threaded (first : σ) : List (Trial σ τ) → σ → Prop
  | [], last => first = last
  | trial :: rest, last => trial.given = first ∧ Threaded trial.left rest last

/-- The answers of `satisfies`, with every trial noted behind the earlier ones. -/
def recorded (satisfies : Node → τ → σ → Bool × σ) (node : Node) (target : τ) :
    σ × List (Trial σ τ) → Bool × (σ × List (Trial σ τ))
  | (state, trials) =>
      let (satisfied, next) := satisfies node target state
      (satisfied, next, trials ++ [⟨node, target, state, next⟩])

/-- Recording changes neither the answer nor the state. The trials of a pass are a first part of what
it goes through, and the state runs through them without a break. -/
theorem visit_recorded (satisfies : Node → τ → σ → Bool × σ) (pairs : List (Node × Option τ))
    (state : σ) (earlier : List (Trial σ τ)) :
    ∃ trials, visit (recorded satisfies) pairs (state, earlier) =
        ((visit satisfies pairs state).1, (visit satisfies pairs state).2, earlier ++ trials) ∧
      trials.map Trial.aligned <+: pairs ∧
      Threaded state trials (visit satisfies pairs state).2 := by
  induction pairs generalizing state earlier with
  | nil => exact ⟨[], by simp [visit], List.prefix_rfl, rfl⟩
  | cons pair rest ih =>
      obtain ⟨node, target⟩ := pair
      cases target with
      | none => exact ⟨[], by simp [visit], List.nil_prefix, rfl⟩
      | some target =>
          simp only [visit, recorded]
          generalize satisfies node target state = outcome
          obtain ⟨satisfied, next⟩ := outcome
          cases satisfied with
          | false =>
              refine ⟨[⟨node, target, state, next⟩], rfl, ?_, rfl, rfl⟩
              exact List.prefix_append _ rest
          | true =>
              obtain ⟨trials, recordedRest, firstPart, threaded⟩ :=
                ih next (earlier ++ [⟨node, target, state, next⟩])
              refine ⟨⟨node, target, state, next⟩ :: trials, ?_, ?_, rfl, threaded⟩
              · rw [List.append_assoc] at recordedRest
                exact recordedRest
              · exact List.cons_prefix_cons.mpr ⟨rfl, firstPart⟩

mutual

/-- An alignment lists the nodes of the tree in preorder, whatever the targets. -/
theorem Node.aligned_preorder (childAt : Node → Nat → τ → Option τ) (depth : Nat)
    (target : Option τ) : ∀ node : Node,
    (node.aligned childAt target).map (fun pair => (pair.1.kind, pair.1.rules)) =
      (node.preorder depth).map fun row => (row.kind, row.rules)
  | ⟨kind, rules, children⟩ => by
      rw [Node.aligned, Node.preorder, List.map_cons, List.map_cons,
        Node.alignedChildren_preorder childAt (depth + 1) target children []]

theorem Node.alignedChildren_preorder (childAt : Node → Nat → τ → Option τ) (depth : Nat)
    (target : Option τ) : ∀ children earlier : List Node,
    (Node.alignedChildren childAt earlier children target).map
        (fun pair => (pair.1.kind, pair.1.rules)) =
      (Node.preorderList depth children).map fun row => (row.kind, row.rules)
  | [], _ => rfl
  | child :: rest, earlier => by
      rw [Node.alignedChildren, Node.preorderList, List.map_append, List.map_append,
        Node.aligned_preorder childAt depth _ child,
        Node.alignedChildren_preorder childAt depth target rest (earlier ++ [child])]

end

/-- **A match is a single pass.** For every pattern tree, every target with any answers and any
children, and all bindings to start from: the match gives the answer, and leaves the bindings, of one
pass over the pattern's nodes in preorder, each with its aligned target, that stops at the first node
without a target or not satisfied by it. The trials it makes are a first part of that list, and the
bindings run through them from the first to the last. -/
theorem View.matchNode_single_pass (satisfies : Node → τ → Bindings V → Bool × Bindings V)
    (childAt : Node → Nat → τ → Option τ) (pattern : Node) (target : τ) (bindings : Bindings V) :
    (stateful satisfies childAt).matchNode pattern target bindings =
      visit satisfies (pattern.aligned childAt (some target)) bindings ∧
    (pattern.aligned childAt (some target)).map (fun pair => (pair.1.kind, pair.1.rules)) =
      (pattern.preorder 0).map (fun row => (row.kind, row.rules)) ∧
    ∃ matched last trials,
      (stateful satisfies childAt).matchNode pattern target bindings = (matched, last) ∧
      (stateful (recorded satisfies) childAt).matchNode pattern target (bindings, []) =
        (matched, last, trials) ∧
      trials.map Trial.aligned <+: pattern.aligned childAt (some target) ∧
      Threaded bindings trials last := by
  have pass := matchNode_eq_visit satisfies childAt target bindings pattern
  refine ⟨pass, Node.aligned_preorder childAt 0 (some target) pattern, ?_⟩
  obtain ⟨trials, noted, firstPart, threaded⟩ :=
    visit_recorded satisfies (pattern.aligned childAt (some target)) bindings []
  refine ⟨_, _, trials, pass, ?_, firstPart, threaded⟩
  rw [matchNode_eq_visit (recorded satisfies) childAt target (bindings, []) pattern, noted]
  rfl

end Decompiler.Idiom
