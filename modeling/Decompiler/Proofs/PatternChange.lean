/- # Decompiler.Proofs.PatternChange — reordered and weakened patterns

A pattern may be changed in two ways with a known effect on its matches, whatever the
target, as long as values are compared by equality.

* `Node.Reordered`: at any nodes, children are put in another order that keeps the order of
  the statements and the order of the expressions. The same targets are matched, with the
  same values of the variables (`outcome_reordered`).
* `Node.Weakened`: at any nodes, rules are left out, and of the children of each kind only
  the first are kept. No match is lost, and a variable that is still bound has the value it
  had (`outcome_weakened`).

Both changes leave a node where it was among the siblings of its kind, and so at its
target. `Node.Covers` states that much of a change: each node of the changed tree has a
counterpart in the original, of the same kind and with the same target, whose rules are as
the change allows. The rest follows from the requests of the nodes as a set
(`outcome_of_covers`). A change that deletes the first occurrence of a variable, or puts
another one first, is no special case there.
-/
import Mathlib.Data.List.Nodup
import Decompiler.Idiom.Sketch
import Decompiler.Proofs.Solution

namespace Decompiler.Idiom

set_option autoImplicit false

variable {V τ : Type}

/-! ## Alignment by kind -/

namespace Node

/-- The nodes of one kind, in order. -/
def ofKind (kind : NodeKind) (nodes : List Node) : List Node :=
  nodes.filter (·.kind == kind)

@[simp] theorem ofKind_nil (kind : NodeKind) : ofKind kind [] = [] := rfl

@[simp] theorem ofKind_cons (kind : NodeKind) (node : Node) (rest : List Node) :
    ofKind kind (node :: rest) =
      if node.kind = kind then node :: ofKind kind rest else ofKind kind rest := by
  simp [ofKind, List.filter_cons]

@[simp] theorem ofKind_append (kind : NodeKind) (front back : List Node) :
    ofKind kind (front ++ back) = ofKind kind front ++ ofKind kind back :=
  List.filter_append ..

theorem mem_alignedChildren_iff {childAt : Node → Nat → τ → Option τ} {target : Option τ}
    {pair : Node × Option τ} {earlier children : List Node} :
    pair ∈ Node.alignedChildren childAt earlier children target ↔
      ∃ (kind : NodeKind) (index : Nat) (child : Node),
        (ofKind kind children)[index]? = some child ∧
        pair ∈ child.aligned childAt
          (target.bind (childAt child (earlier.countP (·.kind == kind) + index))) := by
  induction children generalizing earlier with
  | nil => simp [Node.alignedChildren]
  | cons first rest ih =>
      -- A first child of the kind moves the later ones on by one, in both counts; another moves none.
      have shift (kind : NodeKind) (index : Nat) (same : first.kind = kind) :
          (earlier ++ [first]).countP (·.kind == kind) + index =
            earlier.countP (·.kind == kind) + (index + 1) := by
        simp [same]
        omega
      rw [Node.alignedChildren, List.mem_append, ih]
      constructor
      · rintro (here | ⟨kind, index, child, present, below⟩)
        · exact ⟨first.kind, 0, first, by simp, here⟩
        · by_cases same : first.kind = kind
          · rw [shift kind index same] at below
            exact ⟨kind, index + 1, child, by simpa [same] using present, below⟩
          · exact ⟨kind, index, child, by simpa [same] using present, by simpa [same] using below⟩
      · rintro ⟨kind, index, child, present, below⟩
        by_cases same : first.kind = kind
        · cases index with
          | zero =>
              obtain rfl : first = child := by simpa [same] using present
              subst same
              exact .inl below
          | succ index =>
              rw [← shift kind index same] at below
              exact .inr ⟨kind, index, child, by simpa [same] using present, below⟩
        · exact .inr ⟨kind, index, child, by simpa [same] using present, by simpa [same] using below⟩

/-- A node below the root stands below a child, at the target of that child: the one with the
position that the child has among its kind. -/
theorem mem_aligned_iff {childAt : Node → Nat → τ → Option τ} {node : Node} {target : Option τ}
    {pair : Node × Option τ} :
    pair ∈ node.aligned childAt target ↔ pair = (node, target) ∨
      ∃ (kind : NodeKind) (index : Nat) (child : Node),
        (ofKind kind node.children)[index]? = some child ∧
        pair ∈ child.aligned childAt (target.bind (childAt child index)) := by
  rw [aligned_eq_cons, List.mem_cons, mem_alignedChildren_iff]
  simp

/-! ## Counterparts -/

/-- Every node of `changed` has a counterpart in `node`: of the same kind, with the same target, and
with rules of which its own are an allowed change. -/
structure Covers (childAt : NodeKind → Nat → τ → Option τ)
    (allowed : List Rule → List Rule → Prop) (node changed : Node) : Prop where
  kind : node.kind = changed.kind
  counterpart : ∀ (target : Option τ), ∀ pair ∈ changed.aligned (fun node => childAt node.kind) target,
    ∃ former ∈ node.aligned (fun node => childAt node.kind) target,
      former.1.kind = pair.1.kind ∧ former.2 = pair.2 ∧ allowed pair.1.rules former.1.rules

namespace Covers

variable {childAt : NodeKind → Nat → τ → Option τ} {allowed : List Rule → List Rule → Prop}

theorem refl (reflexive : ∀ rules, allowed rules rules) (node : Node) :
    Covers childAt allowed node node :=
  ⟨rfl, fun _ pair member => ⟨pair, member, rfl, rfl, reflexive pair.1.rules⟩⟩

theorem trans {node changed last : Node}
    (transitive : ∀ {kept between rules}, allowed kept between → allowed between rules →
      allowed kept rules)
    (first : Covers childAt allowed node changed) (second : Covers childAt allowed changed last) :
    Covers childAt allowed node last := by
  refine ⟨first.kind.trans second.kind, fun target pair member => ?_⟩
  obtain ⟨between, isBetween, kind, sameTarget, rules⟩ := second.counterpart target pair member
  obtain ⟨former, isFormer, kind', sameTarget', rules'⟩ :=
    first.counterpart target between isBetween
  exact ⟨former, isFormer, kind'.trans kind, sameTarget'.trans sameTarget, transitive rules rules'⟩

/-- It is enough that each child is covered by the one with its kind and position. -/
theorem of_children {kind : NodeKind} {rules kept : List Rule} {children changed : List Node}
    (allows : allowed kept rules)
    (each : ∀ (sort : NodeKind) (index : Nat) (child : Node),
      (ofKind sort changed)[index]? = some child →
        ∃ former, (ofKind sort children)[index]? = some former ∧
          Covers childAt allowed former child) :
    Covers childAt allowed ⟨kind, rules, children⟩ ⟨kind, kept, changed⟩ := by
  refine ⟨rfl, fun target pair member => ?_⟩
  rcases mem_aligned_iff.mp member with rfl | ⟨sort, index, child, present, below⟩
  · exact ⟨_, mem_aligned_iff.mpr (.inl rfl), rfl, rfl, allows⟩
  · obtain ⟨former, formerPresent, covers⟩ := each sort index child present
    rw [← covers.kind] at below
    obtain ⟨found, isFound, same⟩ := covers.counterpart _ pair below
    exact ⟨found, mem_aligned_iff.mpr (.inr ⟨sort, index, former, formerPresent, isFound⟩), same⟩

/-- A change of one child leaves the other children where they are. -/
theorem inner (reflexive : ∀ rules, allowed rules rules) (kind : NodeKind) (rules : List Rule)
    (front back : List Node) {child changed : Node} (covers : Covers childAt allowed child changed) :
    Covers childAt allowed ⟨kind, rules, front ++ child :: back⟩
      ⟨kind, rules, front ++ changed :: back⟩ := by
  refine of_children (reflexive rules) fun sort index found present => ?_
  have others : Covers childAt allowed found found := refl reflexive found
  by_cases same : child.kind = sort
  · have still : changed.kind = sort := covers.kind.symm.trans same
    simp only [ofKind_append, ofKind_cons, if_pos same, if_pos still] at present ⊢
    have replaced : ofKind sort front ++ changed :: ofKind sort back =
        (ofKind sort front ++ child :: ofKind sort back).set (ofKind sort front).length changed := by
      simp
    rw [replaced, List.getElem?_set] at present
    by_cases here : (ofKind sort front).length = index
    · subst here
      obtain rfl : changed = found := by simpa using present
      exact ⟨child, by simp, covers⟩
    · rw [if_neg here] at present
      exact ⟨found, present, others⟩
  · have still : ¬ changed.kind = sort := covers.kind ▸ same
    simp only [ofKind_append, ofKind_cons, if_neg same, if_neg still] at present ⊢
    exact ⟨found, present, others⟩

end Covers

/-! ## Changes of a pattern -/

/-- The tree with children in another order, at any of its nodes, where the statements keep their
order and the expressions keep theirs. -/
inductive Reordered : Node → Node → Prop
  | siblings (kind : NodeKind) (rules : List Rule) {children changed : List Node}
      (order : ∀ sort, ofKind sort changed = ofKind sort children) :
      Reordered ⟨kind, rules, children⟩ ⟨kind, rules, changed⟩
  | inner (kind : NodeKind) (rules : List Rule) (front back : List Node) {child changed : Node} :
      Reordered child changed →
      Reordered ⟨kind, rules, front ++ child :: back⟩ ⟨kind, rules, front ++ changed :: back⟩
  | trans {node between changed : Node} :
      Reordered node between → Reordered between changed → Reordered node changed

/-- The tree without some of its rules, and with only the first statements and the first expressions
among the children, at any of its nodes. -/
inductive Weakened : Node → Node → Prop
  | rules (kind : NodeKind) {rules kept : List Rule} (children : List Node)
      (fewer : kept.Sublist rules) : Weakened ⟨kind, rules, children⟩ ⟨kind, kept, children⟩
  | children (kind : NodeKind) (rules : List Rule) {children kept : List Node}
      (first : ∀ sort, ofKind sort kept <+: ofKind sort children) :
      Weakened ⟨kind, rules, children⟩ ⟨kind, rules, kept⟩
  | inner (kind : NodeKind) (rules : List Rule) (front back : List Node) {child weaker : Node} :
      Weakened child weaker →
      Weakened ⟨kind, rules, front ++ child :: back⟩ ⟨kind, rules, front ++ weaker :: back⟩
  | trans {node between weaker : Node} :
      Weakened node between → Weakened between weaker → Weakened node weaker

theorem Reordered.symm {node changed : Node} (reordered : Reordered node changed) :
    Reordered changed node := by
  induction reordered with
  | siblings kind rules order => exact .siblings kind rules fun sort => (order sort).symm
  | inner kind rules front back _ ih => exact .inner kind rules front back ih
  | trans _ _ first second => exact .trans second first

theorem Reordered.covers {node changed : Node} (childAt : NodeKind → Nat → τ → Option τ)
    (reordered : Reordered node changed) : Covers childAt Eq node changed := by
  induction reordered with
  | siblings kind rules order =>
      refine .of_children rfl fun sort index child present => ⟨child, ?_, .refl (fun _ => rfl) child⟩
      rw [← order sort]
      exact present
  | inner kind rules front back _ ih => exact ih.inner (fun _ => rfl) kind rules front back
  | trans _ _ first second => exact first.trans Eq.trans second

theorem Weakened.covers {node weaker : Node} (childAt : NodeKind → Nat → τ → Option τ)
    (weakened : Weakened node weaker) :
    Covers childAt (· ⊆ ·) node weaker := by
  have reflexive (rules : List Rule) : rules ⊆ rules := List.Subset.refl rules
  induction weakened with
  | rules kind children fewer =>
      exact .of_children fewer.subset fun sort index child present =>
        ⟨child, present, .refl reflexive child⟩
  | children kind rules first =>
      refine .of_children (reflexive rules) fun sort index child present => ?_
      obtain ⟨dropped, whole⟩ := first sort
      have within : index < (ofKind sort _).length := (List.getElem?_eq_some_iff.mp present).1
      refine ⟨child, ?_, .refl reflexive child⟩
      rw [← whole, List.getElem?_append_left within]
      exact present
  | inner kind rules front back _ ih => exact ih.inner reflexive kind rules front back
  | trans _ _ first second => exact first.trans List.Subset.trans second

end Node

/-! ## The effect on matches -/

namespace Request

/-- The requests of a target that first checks the kind of a node and then goes rule by rule. -/
def ruleByRule (admits : NodeKind → τ → Bool) (asked : Rule → τ → List (Request V))
    (kind : NodeKind) (rules : List Rule) (target : τ) : List (Request V) :=
  check (admits kind target) :: rules.flatMap (asked · target)

theorem ruleByRule_subset {admits : NodeKind → τ → Bool} {asked : Rule → τ → List (Request V)}
    {kind : NodeKind} {kept rules : List Rule} {target : τ} (fewer : kept ⊆ rules) :
    ruleByRule admits asked kind kept target ⊆ ruleByRule admits asked kind rules target :=
  List.cons_subset_cons _ fun _ member => by
    obtain ⟨rule, isKept, isAsked⟩ := List.mem_flatMap.mp member
    exact List.mem_flatMap.mpr ⟨rule, fewer isKept, isAsked⟩

end Request

/-- Sketches go rule by rule, with one request each. -/
theorem Sketch.requests_eq_ruleByRule :
    Sketch.requests = Request.ruleByRule (fun kind sketch => sketch.kind == kind)
      (fun rule sketch => [sketch.request rule]) := by
  funext kind rules sketch
  rw [Sketch.requests, Request.ruleByRule, List.map_eq_flatMap]

/-- Bindings without repeated names are determined by their values, up to order. -/
theorem Bindings.perm_of_get? {bindings others : Bindings V} (distinct : bindings.Distinct)
    (othersDistinct : others.Distinct) (same : ∀ name, bindings.get? name = others.get? name) :
    bindings.entries.Perm others.entries := by
  rw [List.perm_ext_iff_of_nodup (List.Nodup.of_map _ distinct) (List.Nodup.of_map _ othersDistinct)]
  rintro ⟨name, value⟩
  rw [mem_entries_iff distinct, mem_entries_iff othersDistinct, same name]

namespace Engine

variable [BEq V] [LawfulBEq V] {engine changed : Engine V}
  {requests : NodeKind → List Rule → τ → List (Request V)}
  {childAt : NodeKind → Nat → τ → Option τ}

/-- A change to fewer requests at the same targets keeps every match. -/
theorem outcome_of_covers {allowed : List Rule → List Rule → Prop} (target : τ)
    (fewer : ∀ kind kept rules target, allowed kept rules →
      requests kind kept target ⊆ requests kind rules target)
    (covers : Node.Covers childAt allowed engine.pattern.root changed.pattern.root)
    (matched : (engine.outcome requests childAt target).1 = true) :
    (changed.outcome requests childAt target).1 = true ∧
      ∀ name value, (changed.outcome requests childAt target).2.value? name = some value →
        (engine.outcome requests childAt target).2.value? name = some value := by
  have subset : changed.demands requests childAt target ⊆ engine.demands requests childAt target := by
    intro request member
    obtain ⟨node, found, aligned, asked⟩ := mem_demanded_iff.mp member
    obtain ⟨⟨former, place⟩, isFormer, kind, samePlace, allows⟩ := covers.counterpart _ _ aligned
    dsimp only at kind samePlace allows
    subst samePlace
    rw [← kind] at asked
    exact mem_demanded_iff.mpr ⟨former, found, isFormer, fewer _ _ _ _ allows asked⟩
  obtain ⟨placed, solution, solves⟩ := outcome_iff_solvable.mp matched
  have stillPlaced : changed.Placed childAt target := by
    intro pair member
    obtain ⟨former, isFormer, -, samePlace, -⟩ := covers.counterpart _ pair member
    rw [← samePlace]
    exact placed former isFormer
  have stillMatched := outcome_iff_solvable.mpr ⟨stillPlaced, solution, solves.subset subset⟩
  refine ⟨stillMatched, fun name value bound => ?_⟩
  rw [value?_outcome_iff stillMatched] at bound
  exact (value?_outcome_iff matched).mpr (subset bound)

/-- **Only the order within each kind matters.** Whatever the target that answers by requests on the
kind and the rules of a node, and whatever the engines matched before: a pattern and a reordered one
match the same targets, and after a match the same names are bound, each once and to the same value. -/
theorem outcome_reordered (engine changed : Engine V)
    (reordered : Node.Reordered engine.pattern.root changed.pattern.root)
    (requests : NodeKind → List Rule → τ → List (Request V))
    (childAt : NodeKind → Nat → τ → Option τ) (target : τ) :
    (changed.outcome requests childAt target).1 = (engine.outcome requests childAt target).1 ∧
    ((engine.outcome requests childAt target).1 = true →
      (∀ name, (changed.outcome requests childAt target).2.value? name =
        (engine.outcome requests childAt target).2.value? name) ∧
      (changed.outcome requests childAt target).2.bindings.entries.Perm
        (engine.outcome requests childAt target).2.bindings.entries) := by
  have fewer (kind : NodeKind) (kept rules : List Rule) (target : τ) (same : kept = rules) :
      requests kind kept target ⊆ requests kind rules target := by
    rw [same]
    exact List.Subset.refl _
  have there := outcome_of_covers target fewer (reordered.covers childAt)
  have back := outcome_of_covers target fewer (reordered.symm.covers childAt)
  refine ⟨Bool.eq_iff_iff.mpr ⟨fun matched => (back matched).1, fun matched => (there matched).1⟩, ?_⟩
  intro matched
  obtain ⟨stillMatched, kept⟩ := there matched
  have gained := (back stillMatched).2
  have same (name : String) : (changed.outcome requests childAt target).2.value? name =
      (engine.outcome requests childAt target).2.value? name :=
    Option.ext fun value => ⟨kept name value, gained name value⟩
  exact ⟨same, Bindings.perm_of_get? (distinct_outcome stillMatched) (distinct_outcome matched) same⟩

/-- Both levels of a pattern reordered, so that `v` is first bound elsewhere and after `w`: the values
are the same. -/
theorem reordered_twice_matches :
    let bound (kind : NodeKind) (name : String) : Node := ⟨kind, [⟨.varIndex, 0, .var name⟩], []⟩
    let inner : Node := ⟨.statement, [], [bound .statement "v", bound .expression "w"]⟩
    let turned : Node := ⟨.statement, [], [bound .expression "w", bound .statement "v"]⟩
    let engine : Engine Form := .ofPattern ⟨⟨.statement, [], [bound .expression "v", inner]⟩⟩
    let changed : Engine Form := .ofPattern ⟨⟨.statement, [], [turned, bound .expression "v"]⟩⟩
    let leaf (kind : NodeKind) (index : String) : Sketch :=
      ⟨"leaf", kind, [("index", .text index)], [], []⟩
    let target : Sketch := ⟨"root", .statement, [],
      [⟨"inner", .statement, [], [leaf .statement "1"], [leaf .expression "2"]⟩],
      [leaf .expression "1"]⟩
    let before := (engine.outcome Sketch.requests Sketch.childAt target).2
    let after := changed.outcome Sketch.requests Sketch.childAt target
    before.bindings.entries = [("v", .text "1"), ("w", .text "2")] ∧
      after.1 = true ∧ after.2.value? "v" = some (.text "1") ∧
      after.2.bindings.entries.Perm before.bindings.entries := by
  intro bound inner turned engine changed leaf target before after
  have reordered : Node.Reordered engine.pattern.root changed.pattern.root := by
    have siblings : Node.Reordered inner turned := .siblings _ _ (by intro sort; cases sort <;> rfl)
    exact .trans (.inner _ _ [bound .expression "v"] [] siblings)
      (.siblings _ _ (by intro sort; cases sort <;> rfl))
  have matched : (engine.outcome Sketch.requests Sketch.childAt target).1 = true := by decide +kernel
  obtain ⟨same, values⟩ :=
    outcome_reordered engine changed reordered Sketch.requests Sketch.childAt target
  obtain ⟨value, entries⟩ := values matched
  have first : before.bindings.entries = [("v", .text "1"), ("w", .text "2")] :=
    eq_of_beq (by decide +kernel)
  have held : before.value? "v" = some (.text "1") := by
    rw [value?, Bindings.get?, first]
    rfl
  exact ⟨first, same.trans matched, (value "v").trans held, entries⟩

/-- **Weakening never loses a match.** Whatever the target that answers by a check of the kind and then
rule by rule: if an engine matches it, so does an engine for a weakened pattern, and what that one binds
is bound to the same value by the first. -/
theorem outcome_weakened (engine weaker : Engine V)
    (weakened : Node.Weakened engine.pattern.root weaker.pattern.root)
    (admits : NodeKind → τ → Bool) (asked : Rule → τ → List (Request V))
    (childAt : NodeKind → Nat → τ → Option τ) (target : τ)
    (matched : (engine.outcome (Request.ruleByRule admits asked) childAt target).1 = true) :
    (weaker.outcome (Request.ruleByRule admits asked) childAt target).1 = true ∧
      ∀ name value,
        (weaker.outcome (Request.ruleByRule admits asked) childAt target).2.value? name = some value →
        (engine.outcome (Request.ruleByRule admits asked) childAt target).2.value? name =
          some value :=
  outcome_of_covers target (fun _ _ _ _ => Request.ruleByRule_subset) (weakened.covers childAt) matched

/-- Without the rule that bound `v` first, and without the last expression, `v` is bound by the child
that had to agree before. -/
theorem weakened_binds_later :
    let bound (name : String) : Node := ⟨.expression, [⟨.varIndex, 0, .var name⟩], []⟩
    let engine : Engine Form := .ofPattern
      ⟨⟨.statement, [⟨.statementRet, 0, .var "v"⟩, ⟨.statementType, 0, .statementType .ifThen⟩],
        [bound "v", bound "w"]⟩⟩
    let weaker : Engine Form := .ofPattern
      ⟨⟨.statement, [⟨.statementType, 0, .statementType .ifThen⟩], [bound "v"]⟩⟩
    let leaf (index : String) : Sketch := ⟨"leaf", .expression, [("index", .text index)], [], []⟩
    let target : Sketch := ⟨"root", .statement, [("type", .text "if"), ("ret", .text "1")], [],
      [leaf "1", leaf "2"]⟩
    (weaker.outcome Sketch.requests Sketch.childAt target).1 = true ∧
      (weaker.outcome Sketch.requests Sketch.childAt target).2.bindings.entries = [("v", .text "1")] ∧
      (engine.outcome Sketch.requests Sketch.childAt target).2.value? "v" = some (.text "1") := by
  intro bound engine weaker leaf target
  have weakened : Node.Weakened engine.pattern.root weaker.pattern.root := by
    refine .trans (.rules _ _ (List.sublist_cons_self _ _)) (.children _ _ fun sort => ?_)
    cases sort
    · exact List.prefix_rfl
    · exact ⟨[bound "w"], rfl⟩
  have matched : (engine.outcome Sketch.requests Sketch.childAt target).1 = true := by decide +kernel
  have left : (weaker.outcome Sketch.requests Sketch.childAt target).2.bindings.entries =
      [("v", .text "1")] := eq_of_beq (by decide +kernel)
  have held : (weaker.outcome Sketch.requests Sketch.childAt target).2.value? "v" =
      some (.text "1") := by
    rw [value?, Bindings.get?, left]
    rfl
  rw [Sketch.requests_eq_ruleByRule] at matched left held ⊢
  obtain ⟨still, values⟩ := outcome_weakened engine weaker weakened _ _ Sketch.childAt target matched
  exact ⟨still, left, values "v" _ held⟩

end Engine

end Decompiler.Idiom
