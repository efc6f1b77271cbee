/- # Decompiler.Proofs.PatternText — which texts are patterns, and of which trees

`Outlines lines rows` is the layout of pattern text without the machinery that reads it:
there is a line; no line has a tab behind its leading spaces; every later line is indented
more than the first and at most one space more than the line before it; and each line
spells the kind and rules of its row, whose depth is the indentation past that of the
first line. `compile_iff_outlines` says that a text is accepted with a tree exactly if its
lines that are not blank outline the rows of that tree in preorder. So a text has at most
one tree, and the tree has a node for every such line and no other.

Lines are read one after the other, each with the line before it (`rowsAfter`); that the
tree is then the one of their rows is the matter of `Decompiler.Proofs.Assembly`, and how
rows and trees correspond is that of `Decompiler.Proofs.PatternTree`.
-/
import Mathlib.Data.List.Forall2
import Decompiler.Proofs.Assembly

namespace Decompiler.Idiom

set_option autoImplicit false

/-! ## The layout of pattern text -/

/-- The lines that are not blank, in order. -/
def written (lines : List (List Char)) : List (List Char) :=
  lines.filter fun line => !line.all Text.isBlank

/-- The lines of a text that are not blank, in order. -/
def writtenLines (text : List Char) : List (List Char) :=
  written (Text.lines text)

/-- The number of spaces that a line begins with. -/
def leadingSpaces (line : List Char) : Nat :=
  (line.takeWhile (· == ' ')).length

/-- What follows the leading spaces. -/
def pastSpaces (line : List Char) : List Char :=
  line.dropWhile (· == ' ')

/-- The indentation of the first line. -/
def margin (lines : List (List Char)) : Nat :=
  (lines.head?.map leadingSpaces).getD 0

/-- The line is that of the row, under a margin of so many spaces. -/
def Spells (spaces : Nat) (line : List Char) (row : Row) : Prop :=
  row.depth = leadingSpaces line - spaces ∧ Line.parse (pastSpaces line) = .ok (row.kind, row.rules)

/-- A line is indented at most one space more than the line before it. -/
def OneDeeper (before line : List Char) : Prop :=
  leadingSpaces line ≤ leadingSpaces before + 1

theorem written_cons (line : List Char) (rest : List (List Char)) :
    written (line :: rest) = if line.all Text.isBlank then written rest else line :: written rest := by
  rw [written, List.filter_cons]
  cases line.all Text.isBlank <;> rfl

structure Outlines (lines : List (List Char)) (rows : List Row) : Prop where
  nonempty : lines ≠ []
  untabbed : ∀ line ∈ lines, (pastSpaces line).head? ≠ some '\t'
  below : ∀ line ∈ lines.tail, margin lines < leadingSpaces line
  stepwise : lines.IsChain OneDeeper
  spelled : List.Forall₂ (Spells (margin lines)) lines rows

namespace Line

/-! ## Reading lines in order -/

theorem linesFrom_cons (first : Nat) (line : List Char) (rest : List (List Char)) :
    linesFrom first (line :: rest) =
      if line.all Text.isBlank then linesFrom (first + 1) rest
      else ofText line first :: linesFrom (first + 1) rest := by
  rw [linesFrom, List.zipIdx_cons, List.filterMap_cons]
  cases blank : line.all Text.isBlank <;> simp only [blank] <;> rfl

theorem rowsAfter_cons_eq_ok (base : Nat) (previous : Option Line) (line : Line) (rest : List Line)
    (rows : List Row) :
    rowsAfter base previous (line :: rest) = .ok rows ↔
      ∃ row others, line.row base previous = .ok row ∧
        rowsAfter base (some line) rest = .ok others ∧ rows = row :: others := by
  simp only [rowsAfter, bind, Except.bind, pure, Except.pure]
  cases line.row base previous with
  | error fault => simp
  | ok row => cases rowsAfter base (some line) rest <;> simp [eq_comm]

/-- Lines are read into rows, after a given line and under a given margin, exactly if they are placed
and spelled as `Outlines` asks. -/
theorem rowsAfter_eq_ok_iff (base : Nat) (before : List Char) (number first : Nat)
    (lines : List (List Char)) (rows : List Row) :
    rowsAfter base (some (ofText before number)) (linesFrom first lines) = .ok rows ↔
      (∀ line ∈ written lines, (pastSpaces line).head? ≠ some '\t') ∧
      (∀ line ∈ written lines, base < leadingSpaces line) ∧
      (before :: written lines).IsChain OneDeeper ∧
      List.Forall₂ (Spells base) (written lines) rows := by
  induction lines generalizing before number first rows with
  | nil => cases rows <;> simp [linesFrom, written, rowsAfter]
  | cons line rest ih =>
      rw [linesFrom_cons, written_cons]
      split
      · exact ih ..
      have one (row : Row) :
          (ofText line first).row base (some (ofText before number)) = .ok row ↔
            ((pastSpaces line).head? ≠ some '\t' ∧ base < leadingSpaces line ∧
              OneDeeper before line) ∧ Spells base line row := by
        rw [row_eq_ok_iff, misplaced?_eq_none_iff]
        simp [ofText, pastSpaces, leadingSpaces, OneDeeper, Spells]
      simp only [rowsAfter_cons_eq_ok, one, ih, List.forall_mem_cons, List.isChain_cons_cons,
        List.forall₂_cons_left_iff]
      constructor
      · rintro ⟨row, others, ⟨⟨untabbed, deeper, step⟩, spelled⟩, rest, same⟩
        obtain ⟨untabbeds, deepers, steps, spells⟩ := rest
        exact ⟨⟨untabbed, untabbeds⟩, ⟨deeper, deepers⟩, ⟨step, steps⟩,
          row, others, spelled, spells, same⟩
      · rintro ⟨⟨untabbed, untabbeds⟩, ⟨deeper, deepers⟩, ⟨step, steps⟩,
          row, others, spelled, spells, same⟩
        exact ⟨row, others, ⟨⟨untabbed, deeper, step⟩, spelled⟩,
          ⟨untabbeds, deepers, steps, spells⟩, same⟩

/-- The rows of lines. Without lines there are no rows, and nothing is asked. -/
theorem rows_linesFrom_eq_ok_iff (first : Nat) (lines : List (List Char)) (rows : List Row) :
    Line.rows (linesFrom first lines) = .ok rows ↔
      (∀ line ∈ written lines, (pastSpaces line).head? ≠ some '\t') ∧
      (∀ line ∈ (written lines).tail, margin (written lines) < leadingSpaces line) ∧
      (written lines).IsChain OneDeeper ∧
      List.Forall₂ (Spells (margin (written lines))) (written lines) rows := by
  induction lines generalizing first with
  | nil => cases rows <;> simp [linesFrom, written, Line.rows, rowsAfter]
  | cons line rest ih =>
      rw [linesFrom_cons, written_cons]
      split
      · exact ih ..
      -- The first line sets the margin and has no line before it, so only a tab can be wrong there.
      have one (row : Row) :
          (ofText line first).row (leadingSpaces line) none = .ok row ↔
            (pastSpaces line).head? ≠ some '\t' ∧ Spells (leadingSpaces line) line row := by
        rw [row_eq_ok_iff, misplaced?_eq_none_iff]
        simp [ofText, pastSpaces, leadingSpaces, Spells]
      show rowsAfter (leadingSpaces line) none _ = _ ↔ _
      simp only [List.head?_cons, Option.map_some, Option.getD_some, List.tail_cons, margin,
        rowsAfter_cons_eq_ok, rowsAfter_eq_ok_iff, List.forall_mem_cons, List.forall₂_cons_left_iff]
      constructor
      · rintro ⟨row, others, readFirst, ⟨untabbeds, below, steps, spells⟩, same⟩
        obtain ⟨untabbed, spelled⟩ := (one row).mp readFirst
        exact ⟨⟨untabbed, untabbeds⟩, below, steps, row, others, spelled, spells, same⟩
      · rintro ⟨⟨untabbed, untabbeds⟩, below, steps, row, others, spelled, spells, same⟩
        exact ⟨row, others, (one row).mpr ⟨untabbed, spelled⟩,
          ⟨untabbeds, below, steps, spells⟩, same⟩

/-- The rows of a text's lines. -/
theorem rows_ofPattern_eq_ok_iff (text : List Char) (rows : List Row) :
    Line.rows (ofPattern text) = .ok rows ↔
      (∀ line ∈ writtenLines text, (pastSpaces line).head? ≠ some '\t') ∧
      (∀ line ∈ (writtenLines text).tail, margin (writtenLines text) < leadingSpaces line) ∧
      (writtenLines text).IsChain OneDeeper ∧
      List.Forall₂ (Spells (margin (writtenLines text))) (writtenLines text) rows :=
  rows_linesFrom_eq_ok_iff 1 (Text.lines text) rows

end Line

/-! ## From lines to a tree -/

theorem depths_of_spelled {spaces : Nat} {lines : List (List Char)} {rows : List Row}
    (spelled : List.Forall₂ (Spells spaces) lines rows) :
    rows.map (·.depth) = lines.map (leadingSpaces · - spaces) := by
  induction spelled with
  | nil => rfl
  | cons first _ ih => rw [List.map_cons, List.map_cons, first.1, ih]

/-- Rows that lines outline are those of one tree. -/
theorem Outlines.ofRows {lines : List (List Char)} {rows : List Row} (outlines : Outlines lines rows) :
    ∃ root : Node, Forest.ofRows rows = [(0, root)] ∧ root.preorder 0 = rows := by
  obtain ⟨nonempty, -, below, stepwise, spelled⟩ := outlines
  have depths := depths_of_spelled spelled
  have levels : (rows.map (·.depth)).IsChain fun before depth => depth ≤ before + 1 := by
    rw [depths, List.isChain_map]
    refine stepwise.imp fun before line step => ?_
    unfold OneDeeper at step
    omega
  have steps := (List.isChain_map Row.depth).mp levels
  cases spelled with
  | nil => exact absurd rfl nonempty
  | @cons line first _ rest _ _ =>
      simp only [List.map_cons, List.cons.injEq] at depths
      obtain ⟨top, depths⟩ := depths
      replace top : first.depth = 0 := by simpa [margin] using top
      have deeper : ∀ row ∈ rest, first.depth < row.depth := by
        intro row member
        have listed : row.depth ∈ rest.map (·.depth) := List.mem_map_of_mem member
        rw [depths] at listed
        obtain ⟨later, isLater, same⟩ := List.mem_map.mp listed
        have := below later isLater
        omega
      have single := Forest.ofRows_single first rest steps deeper
      rwa [top] at single

namespace Pattern

theorem compile_eq_ok_iff (text : String) (pattern : Pattern) :
    compile text = .ok pattern ↔
      ∃ rows, Line.rows (Line.ofPattern text.toList) = .ok rows ∧
        (Forest.ofRows rows).head?.map (·.2) = some pattern.root := by
  obtain ⟨root⟩ := pattern
  simp only [compile_eq_rows, bind, Except.bind]
  cases Line.rows (Line.ofPattern text.toList) with
  | error fault => simp
  | ok rows =>
      simp only [Except.ok.injEq, exists_eq_left']
      cases Forest.ofRows rows <;> simp [ofForest]

/-- **A text is the pattern of a tree exactly if its lines outline the tree's rows in preorder**, and
then it has as many lines that are not blank as the tree has nodes. -/
theorem compile_iff_outlines (text : String) (pattern : Pattern) :
    (compile text = .ok pattern ↔
      Outlines (writtenLines text.toList) (pattern.root.preorder 0)) ∧
    (compile text = .ok pattern → pattern.nodeCount = (writtenLines text.toList).length) := by
  have accepted : compile text = .ok pattern ↔
      Outlines (writtenLines text.toList) (pattern.root.preorder 0) := by
    rw [compile_eq_ok_iff]
    constructor
    · rintro ⟨rows, read, built⟩
      obtain ⟨untabbed, below, stepwise, spelled⟩ := (Line.rows_ofPattern_eq_ok_iff ..).mp read
      have nonempty : writtenLines text.toList ≠ [] := by
        intro empty
        rw [empty] at spelled
        cases spelled
        simp [Forest.ofRows] at built
      have outlines : Outlines (writtenLines text.toList) rows :=
        ⟨nonempty, untabbed, below, stepwise, spelled⟩
      obtain ⟨root, single, listed⟩ := outlines.ofRows
      have same : root = pattern.root := by simpa [single] using built
      rwa [← same, listed]
    · intro outlines
      have read := (Line.rows_ofPattern_eq_ok_iff ..).mpr
        ⟨outlines.untabbed, outlines.below, outlines.stepwise, outlines.spelled⟩
      refine ⟨pattern.root.preorder 0, read, ?_⟩
      rw [Forest.ofRows_preorder]
      rfl
  refine ⟨accepted, fun compiled => ?_⟩
  have lengths := (accepted.mp compiled).spelled.length_eq
  rw [nodeCount, lengths, Node.length_preorder]

end Pattern

end Decompiler.Idiom
