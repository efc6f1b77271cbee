/- # Decompiler.Proofs.Layout — what a pattern's layout does not say

The depth of a line is counted from the first line, blanks behind a line and carriage
returns among them belong to no word, and blank lines are passed over. So a text keeps its
tree, or its error, when all of its lines are moved to the right together, when blanks are
put behind any of them, and when its line feeds become carriage returns with line feeds;
and when blank lines are put in, only the numbers of the lines behind them change.

All of this is one fact about the lines that are not blank. `Line.Alike` says when two such
lines are read alike: one stands so many spaces further to the right and has its own
number, and both spell the same. Lists of lines that are alike one by one are read to the
same rows, or fail at the same line (`Line.rows_alike`).
-/
import Decompiler.Proofs.FirstOffence

namespace Decompiler

set_option autoImplicit false

namespace Text

/-! ## Words -/

theorem isBlank_space : isBlank ' ' = true := by decide

/-- A blank stands between two words or beside them. -/
theorem words_append_blank {c : Char} (blank : isBlank c = true) (front back : List Char) :
    words (front ++ c :: back) = words front ++ words back := by
  rw [words, List.splitOnP_append_cons front back blank, List.filter_append]
  rfl

theorem words_of_blank {line : List Char} (blank : line.all isBlank = true) : words line = [] := by
  induction line with
  | nil => rfl
  | cons c rest ih =>
      rw [List.all_cons, Bool.and_eq_true] at blank
      have split := words_append_blank blank.1 [] rest
      rw [List.nil_append, ih blank.2] at split
      exact split

/-- Blanks at the end of a line belong to no word. -/
theorem words_append_of_blank (line : List Char) {tail : List Char} (blank : tail.all isBlank = true) :
    words (line ++ tail) = words line := by
  cases tail with
  | nil => rw [List.append_nil]
  | cons c rest =>
      rw [List.all_cons, Bool.and_eq_true] at blank
      rw [words_append_blank blank.1, words_of_blank blank.2, List.append_nil]

/-- The line is the other one behind so many spaces and before some blanks. -/
def Laid (spaces : Nat) (line other : List Char) : Prop :=
  ∃ tail, tail.all isBlank = true ∧ other = List.replicate spaces ' ' ++ (line ++ tail)

theorem Laid.refl (line : List Char) : Laid 0 line line :=
  ⟨[], rfl, by simp⟩

theorem Laid.cons (c : Char) {line other : List Char} (laid : Laid 0 line other) :
    Laid 0 (c :: line) (c :: other) := by
  obtain ⟨tail, blank, rfl⟩ := laid
  exact ⟨tail, blank, rfl⟩

theorem Laid.all_isBlank {spaces : Nat} {line other : List Char} (laid : Laid spaces line other) :
    other.all isBlank = line.all isBlank := by
  obtain ⟨tail, blank, rfl⟩ := laid
  simp [List.all_append, blank, isBlank_space]

/-! ## Texts cut at line feeds -/

/-- The text cut at its line feeds. A carriage return before a line feed stays where it is, and behind
the last line feed there is always one more piece. -/
def pieces (text : List Char) : List (List Char) :=
  fields '\n' text

/-- Pieces put together again. -/
def ofPieces (pieces : List (List Char)) : List Char :=
  ['\n'].intercalate pieces

/-- Every line feed with a carriage return before it. -/
def withCarriageReturns (text : List Char) : List Char :=
  text.flatMap fun c => if c = '\n' then ['\r', '\n'] else [c]

theorem pieces_cons (c : Char) (text : List Char) :
    pieces (c :: text) =
      if c = '\n' then [] :: pieces text else (pieces text).modifyHead (c :: ·) := by
  simp only [pieces, fields, List.splitOn_eq_splitOnP, List.splitOnP_cons_eq_if_modifyHead,
    beq_iff_eq]

theorem laid_modifyHead (c : Char) {lines others : List (List Char)}
    (laid : List.Forall₂ (Laid 0) lines others) :
    List.Forall₂ (Laid 0) (lines.modifyHead (c :: ·)) (others.modifyHead (c :: ·)) := by
  cases laid with
  | nil => exact .nil
  | cons first rest => exact .cons (first.cons c) rest

theorem pieces_withCarriageReturns (text : List Char) :
    List.Forall₂ (Laid 0) (pieces text) (pieces (withCarriageReturns text)) := by
  induction text with
  | nil => exact .cons (.refl []) .nil
  | cons c rest ih =>
      rw [withCarriageReturns, List.flatMap_cons, ← withCarriageReturns, pieces_cons]
      by_cases feed : c = '\n'
      · rw [if_pos feed, if_pos feed]
        show List.Forall₂ _ _ (pieces ('\r' :: '\n' :: withCarriageReturns rest))
        rw [pieces_cons, if_neg (by decide), pieces_cons, if_pos rfl]
        exact .cons ⟨['\r'], by decide, rfl⟩ ih
      · rw [if_neg feed, if_neg feed]
        show List.Forall₂ _ _ (pieces (c :: withCarriageReturns rest))
        rw [pieces_cons, if_neg feed]
        exact laid_modifyHead c ih

theorem laid_dropCarriageReturn (line : List Char) : Laid 0 (dropCarriageReturn line) line := by
  unfold dropCarriageReturn
  split
  · next last => exact ⟨['\r'], by decide, (List.dropLast_append_getLast? '\r' last).symm⟩
  · exact .refl line

/-! ## Blank lines put in -/

/-- The lines with others put in: `gaps 0` before the first, and `gaps n` behind the n-th. -/
def spread (gaps : Nat → List (List Char)) : List (List Char) → List (List Char)
  | [] => gaps 0
  | line :: rest => gaps 0 ++ line :: spread (fun index => gaps (index + 1)) rest

/-- How many lines are put in before the n-th. -/
def inserted (gaps : Nat → List (List Char)) : Nat → Nat
  | 0 => 0
  | number + 1 => inserted gaps number + (gaps number).length

theorem inserted_succ (gaps : Nat → List (List Char)) (number : Nat) :
    inserted gaps (number + 1) =
      (gaps 0).length + inserted (fun index => gaps (index + 1)) number := by
  induction number with
  | zero => simp [inserted]
  | succ number ih => rw [inserted, ih, inserted, Nat.add_assoc]

theorem mem_spread {gaps : Nat → List (List Char)} {lines : List (List Char)} {line : List Char}
    (member : line ∈ spread gaps lines) : line ∈ lines ∨ ∃ index, line ∈ gaps index := by
  induction lines generalizing gaps with
  | nil => exact .inr ⟨0, member⟩
  | cons first rest ih =>
      rcases List.mem_append.mp member with inGap | behind
      · exact .inr ⟨0, inGap⟩
      · rcases List.mem_cons.mp behind with rfl | later
        · exact .inl List.mem_cons_self
        · rcases ih later with inRest | ⟨index, inGap⟩
          · exact .inl (List.mem_cons_of_mem _ inRest)
          · exact .inr ⟨index + 1, inGap⟩

/-- Pieces put together are cut apart again, also with other lines among them. -/
theorem pieces_ofPieces_spread (text : List Char) {gaps : Nat → List (List Char)}
    (unbroken : ∀ index, ∀ line ∈ gaps index, '\n' ∉ line) :
    pieces (ofPieces (spread gaps (pieces text))) = spread gaps (pieces text) := by
  have nonempty : spread gaps (pieces text) ≠ [] := by
    obtain ⟨first, rest, split⟩ := List.exists_cons_of_ne_nil (List.splitOn_ne_nil '\n' text)
    rw [pieces, fields, split, spread]
    simp
  refine List.splitOn_intercalate '\n' (fun line member => ?_) nonempty
  rcases mem_spread member with inText | ⟨index, inGap⟩
  · exact separator_not_mem_fields '\n' text line inText
  · exact unbroken index line inGap

/-- Each line is found where the lines put in before it have moved it. -/
theorem getElem?_spread (gaps : Nat → List (List Char)) (lines : List (List Char)) {index : Nat}
    {line : List Char} (found : lines[index]? = some line) :
    (spread gaps lines)[index + inserted gaps (index + 1)]? = some line := by
  induction lines generalizing gaps index with
  | nil => cases found
  | cons first rest ih =>
      rw [spread, inserted_succ, List.getElem?_append_right (by omega)]
      cases index with
      | zero => simpa [inserted] using found
      | succ index =>
          have inRest : rest[index]? = some line := by simpa using found
          have later := ih (fun index => gaps (index + 1)) inRest
          have place : index + 1 + ((gaps 0).length +
              inserted (fun index => gaps (index + 1)) (index + 1)) - (gaps 0).length =
              index + inserted (fun index => gaps (index + 1)) (index + 1) + 1 := by omega
          rw [place, List.getElem?_cons_succ]
          exact later

end Text

namespace Idiom

/-! ## Lines that are read alike -/

/-- The error with the number of its line put in another place. -/
def PatternError.moved (place : Nat → Nat) : PatternError → PatternError
  | empty => empty
  | line number fault => line (place number) fault

theorem mapError_moved_id {α : Type} (result : Except PatternError α) :
    result.mapError (.moved id) = result := by
  rcases result with (_ | _) | _ <;> rfl

theorem mapError_bind {α β ε : Type} (change : ε → ε) (first : Except ε α)
    (second : α → Except ε β) :
    (first >>= second).mapError change =
      first.mapError change >>= fun value => (second value).mapError change := by
  cases first <;> rfl

namespace Line

/-- The lines differ in their numbers and in the spaces before them alone. -/
structure Alike (spaces : Nat) (place : Nat → Nat) (line other : Line) : Prop where
  number : other.number = place line.number
  indent : other.indent = line.indent + spaces
  head : other.content.head? = line.content.head?
  spelled : parse other.content = parse line.content

section Alike

variable {spaces : Nat} {place : Nat → Nat}

theorem misplaced?_alike {base : Nat} {previous before : Option Line} {line other : Line}
    (alike : Alike spaces place line other)
    (last : before.map (·.indent) = previous.map (·.indent + spaces)) :
    other.misplaced? (base + spaces) before = line.misplaced? base previous := by
  simp only [misplaced?, alike.head, alike.indent]
  cases previous with
  | none =>
      obtain rfl : before = none := by simpa using last
      rfl
  | some previous =>
      obtain ⟨before, rfl, indent⟩ := Option.map_eq_some_iff.mp last
      replace indent : before.indent = previous.indent + spaces := indent
      have rooted : line.indent + spaces ≤ base + spaces ↔ line.indent ≤ base := by omega
      have skips : before.indent + 1 < line.indent + spaces ↔ previous.indent + 1 < line.indent := by
        omega
      simp only [rooted, skips]

/-- A line is read to the same row, or has the same fault at its own number. -/
theorem row_alike {base : Nat} {previous before : Option Line} {line other : Line}
    (alike : Alike spaces place line other)
    (last : before.map (·.indent) = previous.map (·.indent + spaces)) :
    other.row (base + spaces) before = (line.row base previous).mapError (.moved place) := by
  have depth : line.indent + spaces - (base + spaces) = line.indent - base := by omega
  rw [row, row, misplaced?_alike alike last, alike.spelled, alike.number, alike.indent, depth]
  cases line.misplaced? base previous with
  | some fault => rfl
  | none =>
      cases parse line.content with
      | error fault => rfl
      | ok spelled => rfl

theorem rowsAfter_alike {base : Nat} {previous before : Option Line} {lines others : List Line}
    (alike : List.Forall₂ (Alike spaces place) lines others)
    (last : before.map (·.indent) = previous.map (·.indent + spaces)) :
    rowsAfter (base + spaces) before others =
      (rowsAfter base previous lines).mapError (.moved place) := by
  induction alike generalizing previous before with
  | nil => rfl
  | @cons line other rest others first _ ih =>
      have later := @ih (some line) (some other) (by simp [first.indent])
      simp only [rowsAfter, mapError_bind, row_alike first last, later]
      rfl

/-- Lines that are alike one by one are read to the same rows, or fail at the same line. -/
theorem rows_alike {lines others : List Line}
    (alike : List.Forall₂ (Alike spaces place) lines others) :
    rows others = (rows lines).mapError (.moved place) := by
  rw [rows, rows]
  cases alike with
  | nil => rfl
  | cons first rest =>
      have base := first.indent
      simp only [List.head?_cons, Option.map_some, Option.getD_some, base]
      exact rowsAfter_alike (.cons first rest) rfl

end Alike

/-! ## Lines of two texts -/

/-- Blank lines only move the numbers of the lines behind them. -/
theorem linesFrom_append_of_blank (first : Nat) {gap : List (List Char)}
    (blank : ∀ line ∈ gap, line.all Text.isBlank = true) (rest : List (List Char)) :
    linesFrom first (gap ++ rest) = linesFrom (first + gap.length) rest := by
  induction gap generalizing first with
  | nil => rfl
  | cons line gap ih =>
      rw [List.forall_mem_cons] at blank
      rw [List.cons_append, linesFrom_cons, if_pos blank.1, ih (first + 1) blank.2, List.length_cons,
        Nat.add_assoc, Nat.add_comm 1]

/-- A line that is not blank has more than spaces in it. -/
theorem pastSpaces_ne_nil {line : List Char} (isWritten : line.all Text.isBlank = false) :
    pastSpaces line ≠ [] := by
  intro empty
  have blank : line.all Text.isBlank = true := by
    rw [List.all_eq_true]
    intro c member
    have isSpace := List.dropWhile_eq_nil_iff.mp empty c member
    rw [beq_iff_eq] at isSpace
    rw [isSpace, Text.isBlank_space]
  rw [isWritten] at blank
  cases blank

/-- So the leading spaces end inside the line, and what is put behind it is behind the rest. -/
theorem leadingSpaces_append {line : List Char} (isWritten : line.all Text.isBlank = false)
    (tail : List Char) :
    leadingSpaces (line ++ tail) = leadingSpaces line ∧
      pastSpaces (line ++ tail) = pastSpaces line ++ tail := by
  have inside := pastSpaces_ne_nil isWritten
  unfold pastSpaces at inside
  have whole := congrArg List.length
    (List.takeWhile_append_dropWhile (p := (· == ' ')) (l := line))
  rw [List.length_append] at whole
  have rest := List.length_pos_of_ne_nil inside
  constructor
  · rw [leadingSpaces, List.takeWhile_append, if_neg (by omega), leadingSpaces]
  · rw [pastSpaces, List.dropWhile_append, if_neg (by simpa using inside), pastSpaces]

/-- Moved to the right and with any blanks behind it, a line that is not blank is read alike. -/
theorem alike_ofText {spaces : Nat} (place : Nat → Nat) {line other : List Char} (number : Nat)
    (laid : Text.Laid spaces line other) (isWritten : line.all Text.isBlank = false) :
    Alike spaces place (ofText line number) (ofText other (place number)) := by
  obtain ⟨tail, blank, rfl⟩ := laid
  obtain ⟨leading, past⟩ := leadingSpaces_append isWritten tail
  have isSpace : ∀ c ∈ List.replicate spaces ' ', (c == ' ') = true := by
    intro c member
    rw [List.eq_of_mem_replicate member]
    rfl
  have content :
      pastSpaces (List.replicate spaces ' ' ++ (line ++ tail)) = pastSpaces line ++ tail := by
    rw [← past]
    exact List.dropWhile_append_of_pos isSpace
  refine ⟨rfl, ?_, ?_, ?_⟩
  · show leadingSpaces (List.replicate spaces ' ' ++ (line ++ tail)) = leadingSpaces line + spaces
    rw [← leading, leadingSpaces, List.takeWhile_append_of_pos isSpace, List.length_append,
      List.length_replicate, Nat.add_comm, leadingSpaces]
  · show (pastSpaces (List.replicate spaces ' ' ++ (line ++ tail))).head? = (pastSpaces line).head?
    rw [content, List.head?_append_of_ne_nil _ (pastSpaces_ne_nil isWritten)]
  · show parse (pastSpaces (List.replicate spaces ' ' ++ (line ++ tail))) = parse (pastSpaces line)
    rw [content, parse, parse, Text.words_append_of_blank _ blank]

theorem linesFrom_laid {spaces : Nat} (first : Nat) {lines others : List (List Char)}
    (laid : List.Forall₂ (Text.Laid spaces) lines others) :
    List.Forall₂ (Alike spaces id) (linesFrom first lines) (linesFrom first others) := by
  induction laid generalizing first with
  | nil => exact .nil
  | @cons line other rest others laid _ ih =>
      rw [linesFrom_cons, linesFrom_cons, laid.all_isBlank]
      cases blank : line.all Text.isBlank with
      | true => exact ih (first + 1)
      | false => exact .cons (alike_ofText id first laid blank) (ih (first + 1))

/-- Lines moved to the right together, with any blanks behind them, are read to the same rows or fail
with the same error. -/
theorem rows_laid {spaces : Nat} {lines others : List (List Char)}
    (laid : List.Forall₂ (Text.Laid spaces) lines others) :
    rows (linesFrom 1 others) = rows (linesFrom 1 lines) := by
  rw [rows_alike (linesFrom_laid 1 laid), mapError_moved_id]

/-- A text can be read from its pieces: they are its lines but for carriage returns at their ends and
an empty last one. -/
theorem rows_pieces (text : List Char) :
    rows (ofPattern text) = rows (linesFrom 1 (Text.pieces text)) := by
  have nonempty : Text.pieces text ≠ [] := List.splitOn_ne_nil '\n' text
  obtain ⟨front, last, split⟩ := (List.eq_nil_or_concat _).resolve_left nonempty
  rw [List.concat_eq_append] at split
  have lines : Text.lines text =
      front.map Text.dropCarriageReturn ++ if last = [] then [] else [last] := by
    unfold Text.pieces Text.fields at split
    simp only [Text.lines, split, List.getLast?_concat, Option.getD_some, List.dropLast_concat]
  have laid : List.Forall₂ (Text.Laid 0) (front.map Text.dropCarriageReturn) front := by
    rw [List.forall₂_map_left_iff, List.forall₂_same]
    exact fun line _ => Text.laid_dropCarriageReturn line
  rw [ofPattern, lines, split]
  by_cases empty : last = []
  · rw [if_pos empty, List.append_nil, linesFrom_concat, empty, if_pos (by rfl), List.append_nil,
      rows_laid laid]
  · rw [if_neg empty]
    exact (rows_laid (List.rel_append laid (.cons (.refl last) .nil))).symm

theorem linesFrom_spread {gaps : Nat → List (List Char)}
    (blank : ∀ index, ∀ line ∈ gaps index, line.all Text.isBlank = true) {place : Nat → Nat}
    (lines : List (List Char)) {first start : Nat}
    (placed : ∀ index, place (first + index) = start + index + Text.inserted gaps (index + 1)) :
    List.Forall₂ (Alike 0 place) (linesFrom first lines)
      (linesFrom start (Text.spread gaps lines)) := by
  induction lines generalizing gaps first start with
  | nil =>
      have none := linesFrom_append_of_blank start (blank 0) []
      rw [List.append_nil] at none
      rw [Text.spread, none]
      exact .nil
  | cons line rest ih =>
      have later := @ih (fun index => gaps (index + 1)) (fun index => blank (index + 1)) (first + 1)
        (start + (gaps 0).length + 1) fun index => by
          have next := placed (index + 1)
          rw [Text.inserted_succ] at next
          rw [Nat.add_assoc, Nat.add_comm 1, next]
          omega
      have here : place first = start + (gaps 0).length := by simpa [Text.inserted] using placed 0
      rw [Text.spread, linesFrom_append_of_blank start (blank 0), linesFrom_cons, linesFrom_cons]
      cases isBlank : line.all Text.isBlank with
      | true => exact later
      | false =>
          rw [← here] at later ⊢
          exact .cons (alike_ofText place first (.refl line) isBlank) later

/-- Blank lines put in anywhere move the line of an error, and change nothing else. -/
theorem rows_spread {gaps : Nat → List (List Char)}
    (blank : ∀ index, ∀ line ∈ gaps index, line.all Text.isBlank = true) (lines : List (List Char)) :
    rows (linesFrom 1 (Text.spread gaps lines)) =
      (rows (linesFrom 1 lines)).mapError (.moved fun number => number + Text.inserted gaps number) := by
  refine rows_alike (linesFrom_spread blank lines fun index => ?_)
  rw [Nat.add_comm 1 index]

end Line

/-! ## Texts -/

namespace Pattern

/-- A pattern is made of the rows of its text alone. -/
theorem compile_of_rows {text other : String} {place : Nat → Nat}
    (same : Line.rows (Line.ofPattern other.toList) =
      (Line.rows (Line.ofPattern text.toList)).mapError (.moved place)) :
    compile other = (compile text).mapError (.moved place) := by
  rw [compile_eq_rows, compile_eq_rows, same, mapError_bind]
  congr 1
  funext rows
  cases Forest.ofRows rows <;> rfl

theorem compile_of_pieces {text other : String} {place : Nat → Nat}
    (same : Line.rows (Line.linesFrom 1 (Text.pieces other.toList)) =
      (Line.rows (Line.linesFrom 1 (Text.pieces text.toList))).mapError (.moved place)) :
    compile other = (compile text).mapError (.moved place) := by
  apply compile_of_rows
  rw [Line.rows_pieces, Line.rows_pieces, same]

theorem compile_of_laid {spaces : Nat} {text other : String}
    (laid : List.Forall₂ (Text.Laid spaces) (Text.lines text.toList) (Text.lines other.toList)) :
    compile other = compile text := by
  rw [← mapError_moved_id (compile text)]
  apply compile_of_rows
  rw [mapError_moved_id]
  exact Line.rows_laid laid

/-- What a text's pattern, or its error, does not depend on. -/
structure LayoutFree (text : String) : Prop where
  /-- The same number of spaces before every line. -/
  indented : ∀ (spaces : Nat) (other : String),
    Text.lines other.toList = (Text.lines text.toList).map (List.replicate spaces ' ' ++ ·) →
      compile other = compile text
  /-- Blanks behind any of the lines. -/
  padded : ∀ other : String,
    List.Forall₂
        (fun line padded => ∃ tail : List Char, tail.all Text.isBlank = true ∧ padded = line ++ tail)
        (Text.lines text.toList) (Text.lines other.toList) →
      compile other = compile text
  /-- A carriage return before every line feed. -/
  carriageReturns : compile (String.ofList (Text.withCarriageReturns text.toList)) = compile text
  /-- Blank lines anywhere, but for the place of the line that an error is in. -/
  spaced : ∀ gaps : Nat → List (List Char),
    (∀ index, ∀ line ∈ gaps index, line.all Text.isBlank = true ∧ '\n' ∉ line) →
      compile (String.ofList (Text.ofPieces (Text.spread gaps (Text.pieces text.toList)))) =
        (compile text).mapError (.moved fun number => number + Text.inserted gaps number)
  /-- That place is where the line now stands. -/
  position : ∀ (gaps : Nat → List (List Char)) (index : Nat) (line : List Char),
    (Text.pieces text.toList)[index]? = some line →
      (Text.spread gaps (Text.pieces text.toList))[index + Text.inserted gaps (index + 1)]? = some line

/-- **Compilation does not depend on layout**: on how far a pattern is indented as a whole, on blanks
behind its lines, on how its lines end, and on blank lines, which move the line of an error and nothing
else. -/
theorem compile_layoutFree (text : String) : LayoutFree text where
  indented spaces other lines := by
    apply compile_of_laid
    rw [lines, List.forall₂_map_right_iff, List.forall₂_same]
    exact fun line _ => ⟨[], rfl, by rw [List.append_nil]⟩
  padded other lines := by
    have laid : List.Forall₂ (Text.Laid 0) (Text.lines text.toList) (Text.lines other.toList) := by
      refine lines.imp fun line padded added => ?_
      obtain ⟨tail, blank, rfl⟩ := added
      exact ⟨tail, blank, rfl⟩
    exact compile_of_laid laid
  carriageReturns := by
    rw [← mapError_moved_id (compile text)]
    apply compile_of_pieces
    rw [mapError_moved_id, String.toList_ofList]
    exact Line.rows_laid (Text.pieces_withCarriageReturns text.toList)
  spaced gaps blank := by
    apply compile_of_pieces
    rw [String.toList_ofList,
      Text.pieces_ofPieces_spread text.toList fun index line member => (blank index line member).2]
    exact Line.rows_spread (fun index line member => (blank index line member).1) _
  position gaps index line found := Text.getElem?_spread gaps _ found

/-- A rule without a value on the second line; then with the text moved to the right, with a tab and a
no-break space behind its lines, with carriage returns, and with two blank lines around every line. -/
theorem malformed_rule_laid_out :
    let text := "statement type:if\n expression index"
    let fault := LineFault.rule (.malformed "index")
    compile text = .error (.line 2 fault) ∧
      compile "  statement type:if\r\n   expression index\n" = .error (.line 2 fault) ∧
      compile "statement type:if\t\n expression index\u00a0" = .error (.line 2 fault) ∧
      compile "statement type:if\r\n expression index" = .error (.line 2 fault) ∧
      compile "\t\n\nstatement type:if\n\t\n\n expression index\n\t\n" = .error (.line 6 fault) := by
  intro text fault
  have layout := compile_layoutFree text
  have failed : compile text = .error (.line 2 fault) := by
    unfold text
    rfl
  have moved := layout.indented 2 "  statement type:if\r\n   expression index\n" (by decide)
  have lines : Text.lines text.toList = ["statement type:if".toList, " expression index".toList] := by
    decide
  have padded : compile "statement type:if\t\n expression index\u00a0" = compile text := by
    apply layout.padded
    rw [lines]
    exact .cons ⟨['\t'], by decide, rfl⟩ (.cons ⟨['\u00a0'], by decide, rfl⟩ .nil)
  have returned := layout.carriageReturns
  have ended : String.ofList (Text.withCarriageReturns text.toList) =
      "statement type:if\r\n expression index" := by decide
  rw [ended] at returned
  have blank : ∀ index : Nat, ∀ line ∈ (fun _ => [['\t'], []] : Nat → List (List Char)) index,
      line.all Text.isBlank = true ∧ '\n' ∉ line := by
    intro _ line member
    rcases List.mem_pair.mp member with rfl | rfl
    · exact ⟨by decide, by decide⟩
    · exact ⟨rfl, by decide⟩
  have spaced := layout.spaced _ blank
  have written : String.ofList (Text.ofPieces (Text.spread (fun _ => [['\t'], []])
      (Text.pieces text.toList))) =
        "\t\n\nstatement type:if\n\t\n\n expression index\n\t\n" := by decide
  rw [written, failed] at spaced
  exact ⟨failed, moved.trans failed, padded.trans failed, returned.trans failed, spaced⟩

end Pattern

end Idiom

end Decompiler
