/- # Decompiler.Proofs.FirstOffence — the fault reported is the first, and nothing behind it matters

`Offends earlier line fault` says what is wrong with a line below the lines written before
it, without the machinery that reads them: the first that applies of a tab behind its
spaces, a second root, a skipped level, and the fault of its leftmost bad rule. Lines are
counted from one as they stand in the text, blank ones included, and a `FirstOffence` is
one with no offence on a line of smaller number.

The proof reads the text line by line from the front. One line more leaves a fault already
found as it is, and otherwise adds at most its own (`rows_concat_eq_error_iff`,
`offendsAt_concat`), so by induction the fault found in all lines is the first offence
(`rows_linesFrom_eq_error_iff`). An offence depends on the lines up to it alone
(`offendsAt_take`), and so does the error.
-/
import Mathlib.Data.Nat.Find
import Mathlib.Data.List.Induction
import Decompiler.Proofs.RuleToken

namespace Decompiler.Idiom

set_option autoImplicit false

/-! ## Offences -/

/-- A tab stands right behind the leading spaces. -/
def Tabbed (line : List Char) : Prop :=
  (pastSpaces line).head? = some '\t'

/-- The line is indented no more than the first of the lines before it. -/
def Rooted (earlier : List (List Char)) (line : List Char) : Prop :=
  ∃ first ∈ earlier.head?, leadingSpaces line ≤ leadingSpaces first

/-- The line is indented by more than one space past the line before it. -/
def Skips (earlier : List (List Char)) (line : List Char) : Prop :=
  ∃ before ∈ earlier.getLast?, leadingSpaces before + 1 < leadingSpaces line

instance (line : List Char) : Decidable (Tabbed line) :=
  inferInstanceAs (Decidable ((pastSpaces line).head? = some '\t'))

instance (earlier : List (List Char)) (line : List Char) : Decidable (Rooted earlier line) :=
  inferInstanceAs (Decidable (∃ first ∈ earlier.head?, leadingSpaces line ≤ leadingSpaces first))

instance (earlier : List (List Char)) (line : List Char) : Decidable (Skips earlier line) :=
  inferInstanceAs
    (Decidable (∃ before ∈ earlier.getLast?, leadingSpaces before + 1 < leadingSpaces line))

/-- What is wrong with a line below earlier ones, none of them blank. A later fault is not reached while
an earlier one applies. -/
inductive Offends (earlier : List (List Char)) (line : List Char) : LineFault → Prop
  | tabIndent (tabbed : Tabbed line) : Offends earlier line .tabIndent
  | multipleRoots (untabbed : ¬ Tabbed line) (rooted : Rooted earlier line) :
      Offends earlier line .multipleRoots
  | indentTooDeep (untabbed : ¬ Tabbed line) (below : ¬ Rooted earlier line)
      (skips : Skips earlier line) : Offends earlier line .indentTooDeep
  | rule {word token : List Char} {front back : List (List Char)} {fault : RuleFault}
      (untabbed : ¬ Tabbed line) (below : ¬ Rooted earlier line) (stepwise : ¬ Skips earlier line)
      (spelled : Text.words (pastSpaces line) = word :: (front ++ token :: back))
      (sound : ∀ left ∈ front, ∀ other,
        ¬ Rule.Faulty (NodeKind.ofWord (String.ofList word)) left other)
      (faulty : Rule.Faulty (NodeKind.ofWord (String.ofList word)) token fault) :
      Offends earlier line (.rule fault)

/-- The line of that number is not blank, and has the fault below those before it. -/
def OffendsAt (lines : List (List Char)) (number : Nat) (fault : LineFault) : Prop :=
  ∃ index line, number = index + 1 ∧ lines[index]? = some line ∧ line.all Text.isBlank = false ∧
    Offends (written (lines.take index)) line fault

/-- No line of smaller number offends. -/
structure FirstOffence (lines : List (List Char)) (number : Nat) (fault : LineFault) : Prop where
  offends : OffendsAt lines number fault
  least : ∀ smaller other, OffendsAt lines smaller other → number ≤ smaller

theorem OffendsAt.exists_first {lines : List (List Char)} {number : Nat} {fault : LineFault}
    (offends : OffendsAt lines number fault) : ∃ number fault, FirstOffence lines number fault := by
  classical
  have offending : ∃ number, ∃ fault, OffendsAt lines number fault := ⟨number, fault, offends⟩
  obtain ⟨other, first⟩ := Nat.find_spec offending
  exact ⟨_, other, first, fun smaller fault offends => Nat.find_min' offending ⟨fault, offends⟩⟩

/-- An offence is settled by the lines up to it. -/
theorem offendsAt_take {lines : List (List Char)} {number bound : Nat} {fault : LineFault}
    (le : number ≤ bound) :
    OffendsAt (lines.take bound) number fault ↔ OffendsAt lines number fault := by
  have same : ∀ index, number = index + 1 → (lines.take bound)[index]? = lines[index]? ∧
      (lines.take bound).take index = lines.take index := by
    intro index here
    have inside : index < bound := by omega
    exact ⟨List.getElem?_take_of_lt inside, by rw [List.take_take, Nat.min_eq_left (by omega)]⟩
  constructor
  · rintro ⟨index, line, here, found, isWritten, offends⟩
    rw [(same index here).1] at found
    rw [(same index here).2] at offends
    exact ⟨index, line, here, found, isWritten, offends⟩
  · rintro ⟨index, line, here, found, isWritten, offends⟩
    rw [← (same index here).1] at found
    rw [← (same index here).2] at offends
    exact ⟨index, line, here, found, isWritten, offends⟩

theorem FirstOffence.of_take_eq {lines others : List (List Char)} {number : Nat} {fault : LineFault}
    (first : FirstOffence lines number fault) (same : others.take number = lines.take number) :
    FirstOffence others number fault where
  offends := by
    rw [← offendsAt_take (Nat.le_refl number), same, offendsAt_take (Nat.le_refl number)]
    exact first.offends
  least smaller other offends := by
    by_contra before
    have le : smaller ≤ number := by omega
    rw [← offendsAt_take le, same, offendsAt_take le] at offends
    exact before (first.least smaller other offends)

/-! ## One line more -/

theorem written_concat (lines : List (List Char)) (line : List Char) :
    written (lines ++ [line]) = written lines ++ if line.all Text.isBlank then [] else [line] := by
  rw [written, List.filter_append]
  cases blank : line.all Text.isBlank <;> simp only [List.filter, blank] <;> rfl

theorem OffendsAt.le_length {lines : List (List Char)} {number : Nat} {fault : LineFault}
    (offends : OffendsAt lines number fault) : number ≤ lines.length := by
  obtain ⟨index, line, rfl, found, -⟩ := offends
  exact (List.getElem?_eq_some_iff.mp found).1

theorem offendsAt_concat (lines : List (List Char)) (line : List Char) (number : Nat)
    (fault : LineFault) :
    OffendsAt (lines ++ [line]) number fault ↔
      OffendsAt lines number fault ∨
        number = lines.length + 1 ∧ line.all Text.isBlank = false ∧
          Offends (written lines) line fault := by
  have front : (lines ++ [line]).take lines.length = lines := List.take_left
  constructor
  · intro offends
    rcases Nat.lt_or_ge lines.length number with last | inside
    · right
      obtain ⟨index, found, rfl, isLine, isWritten, offence⟩ := offends
      have short := (List.getElem?_eq_some_iff.mp isLine).1
      rw [List.length_append, List.length_singleton] at short
      obtain rfl : index = lines.length := by omega
      rw [front] at offence
      rw [List.getElem?_concat_length] at isLine
      cases isLine
      exact ⟨rfl, isWritten, offence⟩
    · left
      rw [← front]
      exact (offendsAt_take inside).mpr offends
  · rintro (offends | ⟨rfl, isWritten, offence⟩)
    · rw [← offendsAt_take offends.le_length, front]
      exact offends
    · exact ⟨lines.length, line, rfl, List.getElem?_concat_length, isWritten, by rwa [front]⟩

/-- One line more can only be the first offence if there was none before it. -/
theorem firstOffence_concat (lines : List (List Char)) (line : List Char) (number : Nat)
    (fault : LineFault) :
    FirstOffence (lines ++ [line]) number fault ↔
      FirstOffence lines number fault ∨
        (∀ earlier other, ¬ OffendsAt lines earlier other) ∧ number = lines.length + 1 ∧
          line.all Text.isBlank = false ∧ Offends (written lines) line fault := by
  constructor
  · intro first
    have least (smaller : Nat) (other : LineFault) (old : OffendsAt lines smaller other) :
        number ≤ smaller :=
      first.least smaller other ((offendsAt_concat ..).mpr (.inl old))
    rcases (offendsAt_concat ..).mp first.offends with old | new
    · exact .inl ⟨old, least⟩
    · refine .inr ⟨fun earlier other old => ?_, new⟩
      have before := least earlier other old
      have inside := old.le_length
      omega
  · rintro (first | ⟨clean, rfl, new⟩)
    · refine ⟨(offendsAt_concat ..).mpr (.inl first.offends), fun smaller other offends => ?_⟩
      rcases (offendsAt_concat ..).mp offends with old | ⟨rfl, -⟩
      · exact first.least smaller other old
      · exact Nat.le_succ_of_le first.offends.le_length
    · refine ⟨(offendsAt_concat ..).mpr (.inr ⟨rfl, new⟩), fun smaller other offends => ?_⟩
      rcases (offendsAt_concat ..).mp offends with old | ⟨rfl, -⟩
      · exact absurd old (clean smaller other)
      · exact Nat.le_refl _

namespace Line

theorem linesFrom_concat (first : Nat) (lines : List (List Char)) (line : List Char) :
    linesFrom first (lines ++ [line]) = linesFrom first lines ++
      if line.all Text.isBlank then [] else [ofText line (first + lines.length)] := by
  rw [linesFrom, List.zipIdx_append, List.filterMap_append]
  cases blank : line.all Text.isBlank <;>
    simp only [List.zipIdx_cons, List.zipIdx_nil, List.filterMap_cons, List.filterMap_nil, blank] <;> rfl

theorem indents_linesFrom (first : Nat) (lines : List (List Char)) :
    (linesFrom first lines).map (·.indent) = (written lines).map leadingSpaces := by
  induction lines generalizing first with
  | nil => rfl
  | cons line rest ih =>
      rw [linesFrom_cons, written_cons]
      split
      · exact ih (first + 1)
      · rw [List.map_cons, List.map_cons, ih (first + 1)]
        rfl

/-- Lines are read up to the first that fails. -/
theorem rowsAfter_concat (base : Nat) (previous : Option Line) (lines : List Line) (line : Line) :
    rowsAfter base previous (lines ++ [line]) = (do
      let rows ← rowsAfter base previous lines
      let row ← line.row base (lines.getLast?.or previous)
      return rows ++ [row]) := by
  induction lines generalizing previous with
  | nil => rfl
  | cons first rest ih =>
      have last : (first :: rest).getLast?.or previous = rest.getLast?.or (some first) := by
        rw [List.getLast?_cons]
        cases rest.getLast? <;> rfl
      simp only [List.cons_append, rowsAfter, ih, last, bind_assoc, pure_bind]

theorem rows_concat_eq_error_iff (lines : List Line) (line : Line) (error : PatternError) :
    rows (lines ++ [line]) = .error error ↔
      rows lines = .error error ∨ (∃ before, rows lines = .ok before) ∧
        line.row (((lines ++ [line]).head?.map (·.indent)).getD 0) lines.getLast? = .error error := by
  -- The first line sets the margin for all, so one line more does not move it.
  have margin :
      rowsAfter (((lines ++ [line]).head?.map (·.indent)).getD 0) none lines = rows lines := by
    cases lines <;> rfl
  rw [rows, rowsAfter_concat, margin, bind_eq_error_iff]
  simp [bind_eq_error_iff, pure, Except.pure]

theorem row_eq_error_iff (base : Nat) (previous : Option Line) (line : Line) (error : PatternError) :
    line.row base previous = .error error ↔
      ∃ fault, error = .line line.number fault ∧
        (line.misplaced? base previous = some fault ∨
          line.misplaced? base previous = none ∧
            ∃ ruleFault, fault = .rule ruleFault ∧ parse line.content = .error ruleFault) := by
  unfold row
  cases line.misplaced? base previous with
  | some fault => simp [eq_comm]
  | none =>
      cases parse line.content with
      | error fault => simp [eq_comm]
      | ok spelled => simp

/-- A line is placed by the first of the lines before it and by the last one. -/
theorem misplaced?_ofText {earlier : List (List Char)} {line : List Char} {base : Nat}
    {previous : Option Line} (number : Nat)
    (first : base = ((earlier ++ [line]).head?.map leadingSpaces).getD 0)
    (last : previous.map (·.indent) = earlier.getLast?.map leadingSpaces) :
    (ofText line number).misplaced? base previous =
      if Tabbed line then some .tabIndent
      else if Rooted earlier line then some .multipleRoots
      else if Skips earlier line then some .indentTooDeep
      else none := by
  have tab : (ofText line number).content.head? = some '\t' ↔ Tabbed line := Iff.rfl
  cases earlier with
  | nil =>
      obtain rfl : previous = none := by simpa using last
      simp [misplaced?, tab, Rooted, Skips]
  | cons root rest =>
      obtain ⟨final, isFinal⟩ : ∃ final, (root :: rest).getLast? = some final :=
        ⟨_, List.getLast?_cons⟩
      rw [isFinal] at last
      obtain ⟨before, rfl, indent⟩ := Option.map_eq_some_iff.mp last
      have rooted : (ofText line number).indent ≤ base ↔ Rooted (root :: rest) line := by
        simp [first, Rooted, ofText, leadingSpaces]
      have skips : before.indent + 1 < (ofText line number).indent ↔ Skips (root :: rest) line := by
        simp [Skips, isFinal, indent, ofText, leadingSpaces]
      simp only [misplaced?, tab, rooted, skips]

/-- Reading a line fails exactly if it offends below the lines before it. -/
theorem row_ofText_eq_error_iff {earlier : List (List Char)} {line : List Char} {base : Nat}
    {previous : Option Line} (number : Nat)
    (first : base = ((earlier ++ [line]).head?.map leadingSpaces).getD 0)
    (last : previous.map (·.indent) = earlier.getLast?.map leadingSpaces) (error : PatternError) :
    (ofText line number).row base previous = .error error ↔
      ∃ fault, error = .line number fault ∧ Offends earlier line fault := by
  have rules := parse_eq_error_iff (pastSpaces line)
  rw [row_eq_error_iff, misplaced?_ofText number first last]
  refine exists_congr fun fault => and_congr_right fun _ => ?_
  constructor
  · intro fails
    by_cases tabbed : Tabbed line
    · obtain rfl : fault = .tabIndent := by simpa [tabbed, eq_comm] using fails
      exact .tabIndent tabbed
    by_cases rooted : Rooted earlier line
    · obtain rfl : fault = .multipleRoots := by simpa [tabbed, rooted, eq_comm] using fails
      exact .multipleRoots tabbed rooted
    by_cases skips : Skips earlier line
    · obtain rfl : fault = .indentTooDeep := by simpa [tabbed, rooted, skips, eq_comm] using fails
      exact .indentTooDeep tabbed rooted skips
    · obtain ⟨ruleFault, rfl, failed⟩ : ∃ ruleFault, fault = .rule ruleFault ∧
          parse (ofText line number).content = .error ruleFault := by
        simpa [tabbed, rooted, skips] using fails
      obtain ⟨word, front, token, back, spelled, sound, faulty⟩ := (rules ruleFault).mp failed
      exact .rule tabbed rooted skips spelled sound faulty
  · intro offends
    cases offends with
    | tabIndent tabbed => exact .inl (if_pos tabbed)
    | multipleRoots untabbed rooted => exact .inl (by rw [if_neg untabbed, if_pos rooted])
    | indentTooDeep untabbed below skips =>
        exact .inl (by rw [if_neg untabbed, if_neg below, if_pos skips])
    | rule untabbed below stepwise spelled sound faulty =>
        refine .inr ⟨by rw [if_neg untabbed, if_neg below, if_neg stepwise], _, rfl, ?_⟩
        exact (rules _).mpr ⟨_, _, _, _, spelled, sound, faulty⟩

/-! ## All lines -/

/-- The rows of lines fail with their first offence, and with nothing else. -/
theorem rows_linesFrom_eq_error_iff (lines : List (List Char)) (error : PatternError) :
    rows (linesFrom 1 lines) = .error error ↔
      ∃ number fault, error = .line number fault ∧ FirstOffence lines number fault := by
  induction lines using List.reverseRecOn generalizing error with
  | nil =>
      constructor
      · intro failed
        cases failed
      · rintro ⟨number, fault, -, first⟩
        obtain ⟨index, line, -, found, -⟩ := first.offends
        cases found
  | append_singleton lines line ih =>
      have clean : (∃ before, rows (linesFrom 1 lines) = .ok before) ↔
          ∀ earlier other, ¬ OffendsAt lines earlier other := by
        constructor
        · rintro ⟨before, read⟩ earlier other offends
          obtain ⟨number, fault, first⟩ := offends.exists_first
          rw [(ih _).mpr ⟨number, fault, rfl, first⟩] at read
          cases read
        · intro clean
          cases read : rows (linesFrom 1 lines) with
          | ok before => exact ⟨before, rfl⟩
          | error other =>
              obtain ⟨number, fault, -, first⟩ := (ih other).mp read
              exact absurd first.offends (clean number fault)
      have indents := indents_linesFrom 1 lines
      simp only [firstOffence_concat]
      rw [linesFrom_concat, Nat.add_comm 1]
      cases blank : line.all Text.isBlank with
      | true => simpa using ih error
      | false =>
          have last : (linesFrom 1 lines).getLast?.map (·.indent) =
              (written lines).getLast?.map leadingSpaces := by
            rw [← List.getLast?_map, ← List.getLast?_map, indents]
          have first :
              ((linesFrom 1 lines ++ [ofText line (lines.length + 1)]).head?.map (·.indent)).getD 0 =
                ((written lines ++ [line]).head?.map leadingSpaces).getD 0 := by
            rw [← List.head?_map, ← List.head?_map, List.map_append, List.map_append, indents]
            rfl
          rw [if_neg Bool.false_ne_true, rows_concat_eq_error_iff, ih, clean,
            row_ofText_eq_error_iff _ first last]
          constructor
          · rintro (⟨number, fault, rfl, old⟩ | ⟨clean, fault, rfl, offends⟩)
            · exact ⟨number, fault, rfl, .inl old⟩
            · exact ⟨_, fault, rfl, .inr ⟨clean, rfl, rfl, offends⟩⟩
          · rintro ⟨number, fault, rfl, old | ⟨clean, rfl, -, offends⟩⟩
            · exact .inl ⟨number, fault, rfl, old⟩
            · exact .inr ⟨clean, fault, rfl, offends⟩

end Line

/-! ## From lines to the text -/

namespace Pattern

/-- A text without lines has no rows, and only such a text has none. -/
theorem compile_eq_error_iff_rows (text : String) (error : PatternError) :
    compile text = .error error ↔
      Line.rows (Line.ofPattern text.toList) = .error error ∨
        error = .empty ∧ writtenLines text.toList = [] := by
  rw [compile_eq_rows, bind_eq_error_iff]
  refine or_congr_right ?_
  constructor
  · rintro ⟨rows, read, failed⟩
    have lengths := ((Line.rows_ofPattern_eq_ok_iff ..).mp read).2.2.2.length_eq
    cases rows with
    | nil =>
        cases failed
        exact ⟨rfl, List.length_eq_zero_iff.mp lengths⟩
    | cons row rest => cases failed
  · rintro ⟨rfl, blank⟩
    have read : Line.rows (Line.ofPattern text.toList) = .ok [] := by
      rw [Line.rows_ofPattern_eq_ok_iff, blank]
      simp
    exact ⟨[], read, rfl⟩

/-- **A text is rejected for its first offence, and nothing behind it matters.** It is empty exactly if
all of its lines are blank, and otherwise the error is the first offence; any other text with the same
lines up to there has the same error. -/
theorem compile_error_first_offence (text : String) :
    (∀ error, compile text = .error error ↔
      error = .empty ∧ writtenLines text.toList = [] ∨
        ∃ number fault, error = .line number fault ∧
          FirstOffence (Text.lines text.toList) number fault) ∧
    ∀ number fault, compile text = .error (.line number fault) → ∀ other : String,
      (Text.lines other.toList).take number = (Text.lines text.toList).take number →
        compile other = .error (.line number fault) := by
  have errors (text : String) (error : PatternError) : compile text = .error error ↔
      error = .empty ∧ writtenLines text.toList = [] ∨
        ∃ number fault, error = .line number fault ∧
          FirstOffence (Text.lines text.toList) number fault := by
    rw [compile_eq_error_iff_rows, Line.ofPattern, Line.rows_linesFrom_eq_error_iff, or_comm]
  refine ⟨errors text, fun number fault failed other same => (errors other _).mpr (.inr ?_)⟩
  rcases (errors text _).mp failed with ⟨impossible, -⟩ | ⟨_, _, ⟨⟩, first⟩
  · cases impossible
  · exact ⟨number, fault, rfl, first.of_take_eq same⟩

/-- Two rules without a value and a line that skips a level behind them: the left one of the two is
reported, on the third line, also where the text goes on in another way. -/
theorem leftmost_malformed_first :
    let text := "statement type:if\n\n expression index name index:\n   expression"
    let other := "statement type:if\r\n\n expression index name index:\n\texpression"
    compile text = .error (.line 3 (.rule (.malformed "index"))) ∧
      compile other = .error (.line 3 (.rule (.malformed "index"))) := by
  intro text other
  have failed : compile text = .error (.line 3 (.rule (.malformed "index"))) := by
    unfold text
    rfl
  have same : (Text.lines other.toList).take 3 = (Text.lines text.toList).take 3 := by decide
  exact ⟨failed, (compile_error_first_offence text).2 3 _ failed other same⟩

end Pattern

end Decompiler.Idiom
