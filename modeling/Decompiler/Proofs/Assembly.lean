/- # Decompiler.Proofs.Assembly — the nodes kept open are those of the rows read so far

A pattern is read line by line with its unfinished nodes open, the innermost first. What a
line means can be said without them: whether it can stand where it stands depends on the
first line and the line before it (`Line.misplaced?`), it is a row at the depth it is
indented to (`Line.row`), and the rows of all lines describe a forest.

Open nodes stand for what becomes of them once the rest of the text is known: each takes
the later trees that are deeper than itself as further children (`Assembly.forest`).
Closing a node changes nothing in this as long as the later trees are no deeper
(`forest_closeTop`), and opening one puts its row before them (`forest_openAt`). So a line
that is added extends the forest by its row, or is refused for the fault of its row
(`Follows.add_cases`), and a whole text compiles to the first tree of its rows
(`compile_eq_rows`).
-/
import Decompiler.Idiom.Pattern
import Decompiler.Proofs.PatternTree

namespace Decompiler.Idiom

set_option autoImplicit false

/-! ## Lines as rows -/

namespace Line

/-- What is wrong with the place of a line, if anything is, below a root line indented by
`base`. -/
def misplaced? (base : Nat) (previous : Option Line) (line : Line) : Option LineFault :=
  if line.content.head? = some '\t' then some .tabIndent
  else
    match previous with
    | none => none
    | some before =>
        if line.indent ≤ base then some .multipleRoots
        else if before.indent + 1 < line.indent then some .indentTooDeep
        else none

/-- The row of a line, given the line before it. -/
def row (base : Nat) (previous : Option Line) (line : Line) : Except PatternError Row :=
  match line.misplaced? base previous with
  | some fault => .error (.line line.number fault)
  | none =>
      match parse line.content with
      | .error fault => .error (.line line.number (.rule fault))
      | .ok (kind, rules) => .ok ⟨line.indent - base, kind, rules⟩

/-- The rows of lines, given the line before the first of them. -/
def rowsAfter (base : Nat) : Option Line → List Line → Except PatternError (List Row)
  | _, [] => .ok []
  | previous, line :: rest => do
      let row ← line.row base previous
      let rows ← rowsAfter base (some line) rest
      return row :: rows

/-- The rows of all lines, each read after the one before it. -/
def rows (lines : List Line) : Except PatternError (List Row) :=
  rowsAfter ((lines.head?.map (·.indent)).getD 0) none lines

theorem misplaced?_eq_none_iff (base : Nat) (previous : Option Line) (line : Line) :
    line.misplaced? base previous = none ↔
      line.content.head? ≠ some '\t' ∧
        ∀ before ∈ previous, base < line.indent ∧ line.indent ≤ before.indent + 1 := by
  unfold misplaced?
  by_cases tab : line.content.head? = some '\t'
  · simp [tab]
  · cases previous with
    | none => simp [tab]
    | some before =>
        simp only [if_neg tab, Option.mem_def, Option.some.injEq, forall_eq']
        split
        · simp; omega
        · split <;> simp [tab] <;> omega

theorem row_eq_ok_iff (base : Nat) (previous : Option Line) (line : Line) (row : Row) :
    line.row base previous = .ok row ↔
      line.misplaced? base previous = none ∧
        row.depth = line.indent - base ∧ parse line.content = .ok (row.kind, row.rules) := by
  obtain ⟨depth, kind, rules⟩ := row
  unfold Line.row
  cases line.misplaced? base previous with
  | some fault => simp
  | none =>
      cases parse line.content with
      | error fault => simp
      | ok spelled => simp [Prod.ext_iff, eq_comm]

end Line

/-- The first tree of a forest, if it has one. -/
def Pattern.ofForest : Forest → Except PatternError Pattern
  | [] => .error .empty
  | (_, root) :: _ => .ok ⟨root⟩

/-! ## What open nodes stand for -/

namespace Forest

/-- The leading trees that are deeper become further children of a node at `depth`. -/
def extend (depth : Nat) (node : Node) (forest : Forest) : Forest :=
  let others := forest.takeWhile fun tree => depth < tree.1
  (depth, { node with children := node.children ++ others.map (·.2) }) ::
    forest.dropWhile fun tree => depth < tree.1

theorem attach_eq_extend (row : Row) (forest : Forest) :
    attach row forest = extend row.depth ⟨row.kind, row.rules, []⟩ forest := rfl

theorem extend_of_startsWithin {depth : Nat} (node : Node) {forest : Forest}
    (starts : forest.StartsWithin depth) : extend depth node forest = (depth, node) :: forest := by
  obtain ⟨kind, rules, children⟩ := node
  simp only [extend, starts.takeWhile_dropWhile, List.map_nil, List.append_nil]

/-- A tree one level below a node is the next of its children. -/
theorem extend_cons (depth : Nat) (node child : Node) (forest : Forest) :
    extend depth node ((depth + 1, child) :: forest) = extend depth (node.pushChild child) forest := by
  simp [extend, Node.pushChild]

/-- The later trees under open nodes: each of these, the innermost first, takes the trees that are
deeper than itself. -/
def under : List Node → Forest → Forest
  | [], later => later
  | node :: above, later => under above (extend above.length node later)

end Forest

namespace Assembly

/-- The trees that an assembly and the later trees make together. -/
def forest (assembly : Assembly) (later : Forest) : Forest :=
  match assembly.root with
  | some root => (0, root) :: later
  | none => Forest.under assembly.opened later

theorem forest_of_unfinished {assembly : Assembly} (unfinished : assembly.root = none)
    (later : Forest) : assembly.forest later = Forest.under assembly.opened later := by
  rw [forest, unfinished]

/-! ## Closing nodes -/

theorem length_closeTop (assembly : Assembly) :
    assembly.closeTop.opened.length = assembly.opened.length - 1 := by
  obtain ⟨base, _ | ⟨node, _ | ⟨parent, rest⟩⟩, root⟩ := assembly <;> rfl

/-- Only a node without a parent becomes the root. -/
theorem root_closeTop {assembly : Assembly} (inner : 1 < assembly.opened.length) :
    assembly.closeTop.root = assembly.root := by
  obtain ⟨base, _ | ⟨node, _ | ⟨parent, rest⟩⟩, root⟩ := assembly
  · exact absurd inner (by simp)
  · exact absurd inner (by simp)
  · rfl

/-- Closing the innermost node changes nothing if the trees behind it are no deeper. -/
theorem forest_closeTop {assembly : Assembly} {later : Forest} (unfinished : assembly.root = none)
    (starts : later.StartsWithin (assembly.opened.length - 1)) :
    assembly.closeTop.forest later = assembly.forest later := by
  obtain ⟨base, opened, root⟩ := assembly
  cases unfinished
  rcases opened with _ | ⟨node, _ | ⟨parent, rest⟩⟩
  · rfl
  · exact (Forest.extend_of_startsWithin node starts).symm
  · have child : Forest.extend (rest.length + 1) node later = (rest.length + 1, node) :: later :=
      Forest.extend_of_startsWithin node starts
    show Forest.under (parent.pushChild node :: rest) later = Forest.under (node :: parent :: rest) later
    rw [Forest.under, Forest.under, Forest.under, List.length_cons, child, Forest.extend_cons]

/-- The loop that closes nodes. -/
theorem closeTo_eq (depth : Nat) (assembly : Assembly) :
    assembly.closeTo depth =
      if depth < assembly.opened.length then assembly.closeTop.closeTo depth else assembly := by
  unfold closeTo
  split
  · next deeper =>
      obtain ⟨count, more⟩ := Nat.exists_eq_add_of_lt deeper
      have one : assembly.opened.length - depth = count + 1 := by omega
      have left : assembly.closeTop.opened.length - depth = count := by
        rw [length_closeTop]
        omega
      rw [one, left, close]
  · next within =>
      rw [Nat.sub_eq_zero_of_le (Nat.not_lt.mp within), close]

/-- What closing one node keeps while more than `depth` are open, the loop keeps, and it ends with no
more than `depth` open. -/
theorem closeTo_invariant (depth : Nat) (holds : Assembly → Prop)
    (step : ∀ assembly, depth < assembly.opened.length → holds assembly → holds assembly.closeTop)
    {assembly : Assembly} (before : holds assembly) :
    holds (assembly.closeTo depth) ∧ (assembly.closeTo depth).opened.length ≤ depth := by
  generalize size : assembly.opened.length = count
  induction count generalizing assembly with
  | zero =>
      rw [closeTo_eq, if_neg (by omega)]
      exact ⟨before, by omega⟩
  | succ count ih =>
      rw [closeTo_eq]
      split
      · next deeper =>
          exact ih (step assembly deeper before) (by rw [length_closeTop, size, Nat.add_sub_cancel])
      · next within => exact ⟨before, Nat.not_lt.mp within⟩

theorem length_closeTo {depth : Nat} {assembly : Assembly} (le : depth ≤ assembly.opened.length) :
    (assembly.closeTo depth).opened.length = depth := by
  obtain ⟨atLeast, atMost⟩ := closeTo_invariant depth (depth ≤ ·.opened.length)
    (fun closed deeper _ => by rw [length_closeTop]; omega) le
  exact Nat.le_antisymm atMost atLeast

/-- The root stays open if anything is to stay open. -/
theorem root_closeTo {depth : Nat} (assembly : Assembly) (inner : 0 < depth) :
    (assembly.closeTo depth).root = assembly.root :=
  (closeTo_invariant depth (·.root = assembly.root)
    (fun _ deeper same => (root_closeTop (by omega)).trans same) rfl).1

/-- Closing down to a depth changes nothing if the trees behind the open nodes are no deeper. -/
theorem forest_closeTo {depth : Nat} {assembly : Assembly} {later : Forest}
    (unfinished : assembly.root = none) (starts : later.StartsWithin depth) :
    (assembly.closeTo depth).forest later = assembly.forest later := by
  refine (closeTo_invariant depth
    (fun closed => (closed.opened ≠ [] → closed.root = none) ∧
      closed.forest later = assembly.forest later)
    (fun closed deeper kept => ?_) ⟨fun _ => unfinished, rfl⟩).1.2
  obtain ⟨stillOpen, same⟩ := kept
  have unclosed : closed.root = none := stillOpen (List.length_pos_iff.mp (by omega))
  refine ⟨fun others => ?_, ?_⟩
  · have two : 0 < closed.closeTop.opened.length := List.length_pos_iff.mpr others
    rw [length_closeTop] at two
    rw [root_closeTop (by omega), unclosed]
  · rw [forest_closeTop unclosed (starts.mono (by omega)), same]

/-! ## Opening a node -/

/-- A node that is opened stands in front of the later trees with all that are deeper below it. -/
theorem forest_openAt {depth : Nat} {assembly : Assembly} (unfinished : assembly.root = none)
    (le : depth ≤ assembly.opened.length) (root : (assembly.closeTo depth).root = none) (base : Nat)
    (node : Node) (later : Forest) :
    (assembly.openAt base depth node).forest later =
      assembly.forest (Forest.extend depth node later) := by
  have starts : (Forest.extend depth node later).StartsWithin depth := by
    intro tree first
    cases first
    exact Nat.le_refl depth
  have stillOpen : (assembly.openAt base depth node).root = none := root
  rw [forest_of_unfinished stillOpen]
  show Forest.under (node :: (assembly.closeTo depth).opened) later = _
  rw [Forest.under, length_closeTo le, ← forest_of_unfinished root, forest_closeTo unfinished starts]

/-! ## Adding a line -/

/-- The assembly once the lines up to `previous` are read, under a margin of `base`: as many nodes are
open as that line is deep, and its own. -/
structure Follows (base : Nat) (previous : Option Line) (assembly : Assembly) : Prop where
  unfinished : assembly.root = none
  first : previous = none → assembly.base = none ∧ assembly.opened = []
  later : ∀ before ∈ previous, assembly.base = some base ∧ base ≤ before.indent ∧
    assembly.opened.length = before.indent - base + 1

theorem follows_start (base : Nat) : Follows base none start :=
  ⟨rfl, fun _ => ⟨rfl, rfl⟩, nofun⟩

namespace Follows

variable {base : Nat} {previous : Option Line} {assembly : Assembly} {line : Line}

/-- The number of open nodes tells of the line before what has to be known. -/
theorem depthOf_eq (follows : Follows base previous assembly)
    (margin : previous = none → line.indent = base) :
    assembly.depthOf line =
      (line.misplaced? base previous).elim (.ok (line.indent - base)) .error := by
  unfold depthOf Line.misplaced?
  by_cases tab : line.content.head? = some '\t'
  · simp [tab]
  · cases previous with
    | none => simp [tab, (follows.first rfl).1, margin rfl]
    | some before =>
        obtain ⟨isBase, le, size⟩ := follows.later before rfl
        have deep : assembly.opened.length < line.indent - base ↔ before.indent + 1 < line.indent := by
          omega
        simp only [if_neg tab, isBase, deep]
        split
        · rfl
        · split <;> rfl

theorem add_eq (follows : Follows base previous assembly)
    (margin : previous = none → line.indent = base) :
    assembly.add line = (line.row base previous).map fun row =>
      assembly.openAt base row.depth ⟨row.kind, row.rules, []⟩ := by
  have isBase : assembly.base.getD line.indent = base := by
    cases previous with
    | none => rw [(follows.first rfl).1, Option.getD_none, margin rfl]
    | some before => rw [(follows.later before rfl).1, Option.getD_some]
  unfold add Line.row
  rw [follows.depthOf_eq margin]
  cases line.misplaced? base previous with
  | some fault => rfl
  | none =>
      cases Line.parse line.content with
      | error fault => rfl
      | ok spelled => simp [isBase, Except.map]

/-- Where a line can stand, enough nodes are open for it, and the root stays open above it. -/
theorem placed (follows : Follows base previous assembly)
    (margin : previous = none → line.indent = base) (place : line.misplaced? base previous = none) :
    base ≤ line.indent ∧ line.indent - base ≤ assembly.opened.length ∧
      (assembly.closeTo (line.indent - base)).root = none := by
  obtain ⟨-, below⟩ := (Line.misplaced?_eq_none_iff ..).mp place
  cases previous with
  | none =>
      have zero : line.indent - base = 0 := by rw [margin rfl, Nat.sub_self]
      have nothing : ¬ 0 < assembly.opened.length := by simp [(follows.first rfl).2]
      rw [zero, closeTo_eq, if_neg nothing]
      exact ⟨Nat.le_of_eq (margin rfl).symm, Nat.zero_le _, follows.unfinished⟩
  | some before =>
      obtain ⟨-, le, size⟩ := follows.later before rfl
      have bounds := below before rfl
      rw [root_closeTo assembly (by omega), follows.unfinished]
      exact ⟨by omega, by omega, rfl⟩

/-- **A line is added as its row**: it is refused for the fault of the row, or the row comes to stand
in front of the later trees. -/
theorem add_cases (follows : Follows base previous assembly)
    (margin : previous = none → line.indent = base) :
    (∃ error, line.row base previous = .error error ∧ assembly.add line = .error error) ∨
      ∃ row next, line.row base previous = .ok row ∧ assembly.add line = .ok next ∧
        Follows base (some line) next ∧
        ∀ later, next.forest later = assembly.forest (Forest.attach row later) := by
  have added := follows.add_eq margin
  cases read : line.row base previous with
  | error error => exact .inl ⟨error, rfl, by rw [added, read]; rfl⟩
  | ok row =>
      obtain ⟨place, depth, -⟩ := (Line.row_eq_ok_iff ..).mp read
      obtain ⟨le, fits, root⟩ := follows.placed margin place
      rw [← depth] at fits root
      rw [read] at added
      refine .inr ⟨row, _, rfl, added, ⟨root, nofun, ?_⟩, fun later => ?_⟩
      · intro before isLine
        cases isLine
        refine ⟨rfl, le, ?_⟩
        show (assembly.closeTo row.depth).opened.length + 1 = _
        rw [length_closeTo fits, depth]
      · rw [Forest.attach_eq_extend]
        exact forest_openAt follows.unfinished fits root base _ later

end Follows

/-! ## Reading a text -/

/-- With no more lines to come, the root is closed last. -/
theorem finish_eq {assembly : Assembly} (unfinished : assembly.root = none) :
    assembly.finish = Pattern.ofForest (assembly.forest []) := by
  have closed : (assembly.closeTo 0).opened = [] :=
    List.eq_nil_of_length_eq_zero (length_closeTo (Nat.zero_le _))
  have same : (assembly.closeTo 0).forest [] = assembly.forest [] := forest_closeTo unfinished nofun
  rw [← same, finish, forest, closed]
  cases (assembly.closeTo 0).root <;> rfl

/-- What is left to read adds its rows to the forest. -/
theorem Follows.foldlM_add {base : Nat} {previous : Option Line} {assembly : Assembly}
    (follows : Follows base previous assembly) (lines : List Line)
    (margin : previous = none → ∀ line ∈ lines.head?, line.indent = base) :
    (lines.foldlM add assembly >>= finish) =
      Line.rowsAfter base previous lines >>= fun rows =>
        Pattern.ofForest (assembly.forest (Forest.ofRows rows)) := by
  induction lines generalizing previous assembly with
  | nil => exact finish_eq follows.unfinished
  | cons line rest ih =>
      rw [List.foldlM_cons, bind_assoc, Line.rowsAfter, bind_assoc]
      obtain ⟨error, read, added⟩ | ⟨row, next, read, added, follows, extended⟩ :=
        follows.add_cases fun isFirst => margin isFirst line rfl
      · rw [read, added]
        rfl
      · rw [read, added]
        refine (ih follows nofun).trans ?_
        simp only [extended, bind_assoc, pure_bind]
        rfl

end Assembly

/-- **A text compiles to the first tree of its rows**, or fails where they cannot be read. -/
theorem Pattern.compile_eq_rows (text : String) :
    compile text = Line.rows (Line.ofPattern text.toList) >>= fun rows =>
      ofForest (Forest.ofRows rows) := by
  refine (Assembly.follows_start _).foldlM_add _ fun _ line isFirst => ?_
  rw [Option.mem_def.mp isFirst]
  rfl

end Decompiler.Idiom
