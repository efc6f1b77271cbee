/- # Decompiler.Proofs.PatternTree — trees and their rows in preorder

A forest is built from rows in preorder, the last of them first: each takes the trees
behind it that are deeper as its children. `Forest.ofRows` and `Node.preorder` undo each
other. Building from the rows of a tree gives that tree, whatever shallower trees follow it
(`foldr_attach_preorder`), so no two trees have the same rows. Listing what was built gives
the rows back, provided that no row is more than one level below the row before it
(`preorder_ofRows`): the rows of a forest under construction have roots of falling depth, so
the trees a new row takes as children are those exactly one level below it. The rows of a
tree meet that proviso themselves (`Node.isChain_preorder`).
-/
import Mathlib.Data.List.Chain
import Mathlib.Data.List.TakeWhile
import Decompiler.Idiom.Node

namespace Decompiler.Idiom

set_option autoImplicit false

theorem Node.preorder_eq_cons (depth : Nat) (node : Node) :
    node.preorder depth =
      ⟨depth, node.kind, node.rules⟩ :: Node.preorderList (depth + 1) node.children := by
  cases node
  rfl

/-- Trees side by side, each with the depth of its root. -/
abbrev Forest := List (Nat × Node)

namespace Forest

/-- Puts a node before a forest: the leading trees that are deeper become its children. -/
def attach (row : Row) (forest : Forest) : Forest :=
  let children := forest.takeWhile fun (depth, _) => row.depth < depth
  let others := forest.dropWhile fun (depth, _) => row.depth < depth
  (row.depth, ⟨row.kind, row.rules, children.map (·.2)⟩) :: others

/-- The trees that rows in preorder describe. -/
def ofRows (rows : List Row) : Forest :=
  rows.foldr attach []

/-- The rows of all trees of a forest, one tree after the other. -/
def preorder (forest : Forest) : List Row :=
  forest.flatMap fun (depth, node) => node.preorder depth

/-- The first tree of a forest, if it has one, is at most so deep. -/
def StartsWithin (depth : Nat) (forest : Forest) : Prop :=
  ∀ tree ∈ forest.head?, tree.1 ≤ depth

theorem StartsWithin.mono {depth deeper : Nat} {forest : Forest}
    (starts : forest.StartsWithin depth) (le : depth ≤ deeper) : forest.StartsWithin deeper :=
  fun tree first => Nat.le_trans (starts tree first) le

theorem StartsWithin.takeWhile_dropWhile {depth : Nat} {forest : Forest}
    (starts : forest.StartsWithin depth) :
    forest.takeWhile (fun tree => decide (depth < tree.1)) = [] ∧
      forest.dropWhile (fun tree => decide (depth < tree.1)) = forest := by
  cases forest with
  | nil => exact ⟨rfl, rfl⟩
  | cons tree rest =>
      have shallow : ¬ depth < tree.1 := Nat.not_lt.mpr (starts tree rfl)
      simp [shallow]

/-! ## From a tree to its rows and back -/

/-- A row takes the trees one level below it, up to a forest that starts no deeper than the row. -/
theorem attach_children (row : Row) (children : List Node) {forest : Forest}
    (starts : forest.StartsWithin row.depth) :
    attach row (children.map (row.depth + 1, ·) ++ forest) =
      (row.depth, ⟨row.kind, row.rules, children⟩) :: forest := by
  have below : ∀ tree ∈ children.map (row.depth + 1, ·), decide (row.depth < tree.1) = true := by
    intro tree member
    obtain ⟨child, -, rfl⟩ := List.mem_map.mp member
    exact decide_eq_true (Nat.lt_succ_self _)
  simp only [attach, List.takeWhile_append_of_pos below, List.dropWhile_append_of_pos below,
    starts.takeWhile_dropWhile]
  simp [Function.comp_def]

mutual

theorem foldr_attach_preorder (depth : Nat) (forest : Forest) (starts : forest.StartsWithin depth) :
    ∀ node : Node, (node.preorder depth).foldr attach forest = (depth, node) :: forest
  | ⟨kind, rules, children⟩ => by
      rw [Node.preorder, List.foldr_cons,
        foldr_attach_preorderList (depth + 1) forest (starts.mono (Nat.le_succ depth)) children]
      exact attach_children ⟨depth, kind, rules⟩ children starts

theorem foldr_attach_preorderList (depth : Nat) (forest : Forest)
    (starts : forest.StartsWithin depth) :
    ∀ nodes : List Node, (Node.preorderList depth nodes).foldr attach forest =
      nodes.map (depth, ·) ++ forest
  | [] => rfl
  | node :: rest => by
      have restStarts : StartsWithin depth (rest.map (depth, ·) ++ forest) := by
        cases rest with
        | nil => exact starts
        | cons => intro tree first; cases first; exact Nat.le_refl depth
      rw [Node.preorderList, List.foldr_append, foldr_attach_preorderList depth forest starts rest,
        foldr_attach_preorder depth _ restStarts node]
      rfl

end

/-- The rows of a tree build that tree. -/
theorem ofRows_preorder (depth : Nat) (node : Node) : ofRows (node.preorder depth) = [(depth, node)] :=
  foldr_attach_preorder depth [] nofun node

/-! ## From rows to a forest and back -/

/-- Roots of falling depth: a deeper tree would have become a child of the one before it. -/
def Falling (forest : Forest) : Prop :=
  forest.Pairwise fun tree later => later.1 ≤ tree.1

theorem Falling.bounded {depth : Nat} {forest : Forest} (falling : forest.Falling)
    (starts : forest.StartsWithin depth) : ∀ tree ∈ forest, tree.1 ≤ depth := by
  cases falling with
  | nil => exact nofun
  | cons later _ =>
      have first := starts _ rfl
      intro tree member
      rcases List.mem_cons.mp member with rfl | member
      · exact first
      · exact Nat.le_trans (later tree member) first

theorem falling_attach (row : Row) {forest : Forest} (falling : forest.Falling) :
    (attach row forest).Falling := by
  have rest : Falling (forest.dropWhile fun tree => row.depth < tree.1) :=
    falling.sublist (List.dropWhile_sublist _)
  -- The first tree that stays outside is the one at which the row stopped taking children.
  have starts : StartsWithin row.depth (forest.dropWhile fun tree => row.depth < tree.1) := by
    intro tree first
    have outside := List.head?_dropWhile_not (fun tree : Nat × Node => row.depth < tree.1) forest
    rw [Option.mem_def.mp first] at outside
    simpa using outside
  exact List.pairwise_cons.mpr ⟨rest.bounded starts, rest⟩

theorem falling_ofRows (rows : List Row) : (ofRows rows).Falling := by
  induction rows with
  | nil => exact .nil
  | cons row rows ih => exact falling_attach row ih

theorem ofRows_startsWithin {depth : Nat} (rows : List Row)
    (starts : ∀ row ∈ rows.head?, row.depth ≤ depth) : (ofRows rows).StartsWithin depth := by
  cases rows with
  | nil => exact nofun
  | cons row rows =>
      intro tree first
      cases first
      exact starts row rfl

/-- Trees that stand at one depth are listed as the children of a node above them. -/
theorem preorder_of_level {depth : Nat} (forest : Forest)
    (level : ∀ tree ∈ forest, tree.1 = depth) :
    forest.preorder = Node.preorderList depth (forest.map (·.2)) := by
  induction forest with
  | nil => rfl
  | cons tree rest ih =>
      obtain ⟨rfl⟩ := level tree List.mem_cons_self
      have others := ih fun other member => level other (List.mem_cons_of_mem _ member)
      simp [preorder, Node.preorderList, ← others]

/-- A row over trees that are at most one level below it is listed before them. -/
theorem preorder_attach (row : Row) {forest : Forest} (falling : forest.Falling)
    (starts : forest.StartsWithin (row.depth + 1)) :
    (attach row forest).preorder = row :: forest.preorder := by
  have level : ∀ tree ∈ forest.takeWhile (fun tree => row.depth < tree.1),
      tree.1 = row.depth + 1 := by
    intro tree member
    have above := falling.bounded starts tree ((List.takeWhile_sublist _).subset member)
    have below : row.depth < tree.1 := by simpa using List.mem_takeWhile_imp member
    omega
  have split : forest.preorder =
      preorder (forest.takeWhile fun tree => row.depth < tree.1) ++
        preorder (forest.dropWhile fun tree => row.depth < tree.1) := by
    simp only [preorder, ← List.flatMap_append, List.takeWhile_append_dropWhile]
  rw [split, preorder_of_level _ level]
  rfl

/-- **Listing undoes building** where no row is more than one level below the row before it. -/
theorem preorder_ofRows (rows : List Row)
    (steps : rows.IsChain fun before row => row.depth ≤ before.depth + 1) :
    (ofRows rows).preorder = rows := by
  induction rows with
  | nil => rfl
  | cons row rows ih =>
      obtain ⟨next, steps⟩ := List.isChain_cons.mp steps
      have listed := preorder_attach row (falling_ofRows rows) (ofRows_startsWithin rows next)
      rw [ih steps] at listed
      exact listed

/-- Rows that stay below the first one build a single tree. -/
theorem ofRows_single (first : Row) (rest : List Row)
    (steps : (first :: rest).IsChain fun before row => row.depth ≤ before.depth + 1)
    (below : ∀ row ∈ rest, first.depth < row.depth) :
    ∃ root, ofRows (first :: rest) = [(first.depth, root)] ∧
      root.preorder first.depth = first :: rest := by
  have listed := preorder_ofRows (first :: rest) steps
  have falling := falling_ofRows (first :: rest)
  rw [ofRows, List.foldr_cons, attach] at listed falling ⊢
  generalize List.dropWhile _ _ = others at listed falling ⊢
  generalize Node.mk _ _ _ = root at listed falling ⊢
  cases others with
  | nil => exact ⟨root, rfl, by simpa [preorder] using listed⟩
  | cons tree trees =>
      -- The root of a second tree is a row of `rest`, and yet it is no deeper than the first row.
      have shallow : tree.1 ≤ first.depth :=
        List.rel_of_pairwise_cons falling List.mem_cons_self
      have member : (⟨tree.1, tree.2.kind, tree.2.rules⟩ : Row) ∈ rest := by
        simp only [preorder, List.flatMap_cons, Node.preorder_eq_cons, List.cons_append,
          List.cons.injEq] at listed
        rw [← listed.2]
        simp
      exact absurd (below _ member) (Nat.not_lt.mpr shallow)

end Forest

/-! ## The depths of a tree's rows -/

namespace Node

mutual

theorem le_depth_preorder (depth : Nat) : ∀ (node : Node), ∀ row ∈ node.preorder depth,
    depth ≤ row.depth
  | ⟨_, _, children⟩, row, member => by
      rw [Node.preorder] at member
      rcases List.mem_cons.mp member with rfl | below
      · exact Nat.le_refl depth
      · exact Nat.le_of_succ_le (le_depth_preorderList (depth + 1) children row below)

theorem le_depth_preorderList (depth : Nat) : ∀ (nodes : List Node),
    ∀ row ∈ Node.preorderList depth nodes, depth ≤ row.depth
  | node :: rest, row, member => by
      rw [Node.preorderList] at member
      rcases List.mem_append.mp member with first | others
      · exact le_depth_preorder depth node row first
      · exact le_depth_preorderList depth rest row others

end

/-- Trees side by side begin with the root of the first. -/
theorem depth_head_preorderList {depth : Nat} {nodes : List Node} {row : Row}
    (first : row ∈ (Node.preorderList depth nodes).head?) : row.depth = depth := by
  cases nodes with
  | nil => cases first
  | cons node rest =>
      rw [Node.preorderList, preorder_eq_cons] at first
      cases first
      rfl

mutual

/-- No row of a tree is more than one level below the row before it. -/
theorem isChain_preorder (depth : Nat) : ∀ node : Node,
    (node.preorder depth).IsChain fun before row => row.depth ≤ before.depth + 1
  | ⟨_, _, children⟩ => by
      rw [Node.preorder, List.isChain_cons]
      exact ⟨fun _ first => Nat.le_of_eq (depth_head_preorderList first),
        isChain_preorderList (depth + 1) children⟩

theorem isChain_preorderList (depth : Nat) : ∀ nodes : List Node,
    (Node.preorderList depth nodes).IsChain fun before row => row.depth ≤ before.depth + 1
  | [] => .nil
  | node :: rest => by
      rw [Node.preorderList, List.isChain_append]
      refine ⟨isChain_preorder depth node, isChain_preorderList depth rest, ?_⟩
      -- The last row of a tree is no higher than its root, where its sibling's root stands too.
      intro last isLast first isFirst
      have low := le_depth_preorder depth node last (List.mem_of_mem_getLast? isLast)
      have same := depth_head_preorderList isFirst
      omega

end

end Node

end Decompiler.Idiom
