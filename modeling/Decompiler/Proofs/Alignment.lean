/- # Decompiler.Proofs.Alignment — which target a pattern node is compared with

The alignment of a pattern with a target lists the pattern's nodes in preorder, each with
the target it belongs to: the root with the target itself, and a child with the child of
its parent's target at the position that the child has among the siblings of its kind.
Where the target has no such child, the node and everything below it has none. The
alignment is fixed before any rule is looked at.

`matchNode_eq_visit` says that the recursive match is one pass over that list: it asks at
each node in turn, and it stops at the first that has no target or that its target does
not satisfy. The equation is between state transformers, so it covers what a failed match
leaves behind.
-/
import Decompiler.Idiom.Match

namespace Decompiler.Idiom

set_option autoImplicit false

variable {σ τ : Type}

mutual

/-- The nodes of a tree in preorder, each with its target, for a root that belongs to `target`. -/
def Node.aligned (childAt : Node → Nat → τ → Option τ) : Node → Option τ → List (Node × Option τ)
  | ⟨kind, rules, children⟩, target =>
      (⟨kind, rules, children⟩, target) :: Node.alignedChildren childAt [] children target

/-- The same for the children of a node that belongs to `target`, after those of `earlier`. -/
def Node.alignedChildren (childAt : Node → Nat → τ → Option τ) :
    List Node → List Node → Option τ → List (Node × Option τ)
  | _, [], _ => []
  | earlier, child :: rest, target =>
      let position := earlier.countP (·.kind == child.kind)
      child.aligned childAt (target.bind (childAt child position)) ++
        Node.alignedChildren childAt (earlier ++ [child]) rest target

end

theorem Node.aligned_eq_cons (childAt : Node → Nat → τ → Option τ) (node : Node)
    (target : Option τ) :
    node.aligned childAt target =
      (node, target) :: Node.alignedChildren childAt [] node.children target := by
  cases node
  rfl

/-- Goes through aligned nodes in order, up to the first that fails. -/
def visit (satisfies : Node → τ → σ → Bool × σ) : List (Node × Option τ) → σ → Bool × σ
  | [], state => (true, state)
  | (_, none) :: _, state => (false, state)
  | (node, some target) :: rest, state =>
      match satisfies node target state with
      | (true, next) => visit satisfies rest next
      | (false, next) => (false, next)

theorem visit_append (satisfies : Node → τ → σ → Bool × σ) (front back : List (Node × Option τ))
    (state : σ) :
    visit satisfies (front ++ back) state =
      match visit satisfies front state with
      | (true, next) => visit satisfies back next
      | (false, next) => (false, next) := by
  induction front generalizing state with
  | nil => rfl
  | cons pair rest ih =>
      obtain ⟨node, target⟩ := pair
      cases target with
      | none => rfl
      | some target =>
          simp only [List.cons_append, visit]
          cases satisfies node target state with
          | mk satisfied next =>
              cases satisfied with
              | false => rfl
              | true => exact ih next

/-- The counts of a tally are those of the siblings met so far. -/
def Tally.Counts (tally : Tally) (earlier : List Node) : Prop :=
  ∀ kind, tally.count kind = earlier.countP (·.kind == kind)

theorem Tally.counts_zero : Tally.zero.Counts [] := by
  intro kind
  cases kind <;> rfl

theorem Tally.counts_add {tally : Tally} {earlier : List Node} (counts : tally.Counts earlier)
    (child : Node) : (tally.add child.kind).Counts (earlier ++ [child]) := by
  intro kind
  rw [List.countP_append, List.countP_singleton, ← counts kind]
  cases child.kind <;> cases kind <;> rfl

namespace View

/-- The view of a target whose answers are functions, apart from the state that `satisfies` may
change. -/
def stateful (satisfies : Node → τ → σ → Bool × σ) (childAt : Node → Nat → τ → Option τ) :
    View (StateM σ) τ where
  satisfies node target := fun state => satisfies node target state
  childAt node index target := pure (childAt node index target)

variable (satisfies : Node → τ → σ → Bool × σ) (childAt : Node → Nat → τ → Option τ)

theorem matchNode_stateful (kind : NodeKind) (rules : List Rule) (children : List Node) (target : τ)
    (state : σ) :
    (stateful satisfies childAt).matchNode ⟨kind, rules, children⟩ target state =
      match satisfies ⟨kind, rules, children⟩ target state with
      | (true, next) => (stateful satisfies childAt).matchChildren children .zero target next
      | (false, next) => (false, next) := by
  simp only [matchNode, bind, StateT.bind, stateful]
  cases satisfies ⟨kind, rules, children⟩ target state with
  | mk satisfied next => cases satisfied <;> rfl

theorem matchChildren_stateful (child : Node) (rest : List Node) (tally : Tally) (target : τ)
    (state : σ) :
    (stateful satisfies childAt).matchChildren (child :: rest) tally target state =
      match childAt child (tally.count child.kind) target with
      | none => (false, state)
      | some found =>
          match (stateful satisfies childAt).matchNode child found state with
          | (true, next) =>
              (stateful satisfies childAt).matchChildren rest (tally.add child.kind) target next
          | (false, next) => (false, next) := by
  rw [matchChildren]
  generalize sought : childAt child (tally.count child.kind) target = found
  have asked : (stateful satisfies childAt).childAt child (tally.count child.kind) target =
      pure found := by rw [← sought]; rfl
  rw [asked, pure_bind]
  cases found with
  | none => rfl
  | some found =>
      simp only [bind, StateT.bind]
      generalize (stateful satisfies childAt).matchNode child found state = outcome
      obtain ⟨matched, next⟩ := outcome
      cases matched <;> rfl

mutual

/-- **A match is one pass over the alignment**, with the same answer and the same state left. -/
theorem matchNode_eq_visit (target : τ) (state : σ) : ∀ node : Node,
    (stateful satisfies childAt).matchNode node target state =
      visit satisfies (node.aligned childAt (some target)) state
  | ⟨kind, rules, children⟩ => by
      rw [matchNode_stateful, Node.aligned, visit]
      cases satisfies ⟨kind, rules, children⟩ target state with
      | mk satisfied next =>
          cases satisfied with
          | false => rfl
          | true => exact matchChildren_eq_visit target children [] .zero Tally.counts_zero next

theorem matchChildren_eq_visit (target : τ) : ∀ (children earlier : List Node) (tally : Tally),
    tally.Counts earlier → ∀ state : σ,
      (stateful satisfies childAt).matchChildren children tally target state =
        visit satisfies (Node.alignedChildren childAt earlier children (some target)) state
  | [], _, _, _, _ => rfl
  | child :: rest, earlier, tally, counts, state => by
      rw [matchChildren_stateful, Node.alignedChildren, visit_append, counts child.kind,
        Option.bind_some]
      cases childAt child (earlier.countP (·.kind == child.kind)) target with
      | none =>
          -- The alignment goes on below a child without a target, but the pass stops right at it.
          rw [Node.aligned_eq_cons, visit]
      | some found =>
          dsimp only
          rw [matchNode_eq_visit found state child]
          generalize visit satisfies (child.aligned childAt (some found)) state = outcome
          obtain ⟨matched, next⟩ := outcome
          cases matched with
          | false => rfl
          | true =>
              exact matchChildren_eq_visit target rest (earlier ++ [child]) (tally.add child.kind)
                (Tally.counts_add counts child) next

end

end View

end Decompiler.Idiom
