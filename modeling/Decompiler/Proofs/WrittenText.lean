/- # Decompiler.Proofs.WrittenText — text that is put together is taken apart again

Lines ended by line feeds, words with a space before each, fields with a separator
between them and numbers in decimal come back as they went in, provided that no piece
holds what separates it from the next. `IsField` is that proviso for the smallest pieces
of a pattern: something is there, and it has no blank and no colon in it.
-/
import Decompiler.Text.Numeral
import Decompiler.Text.Split

namespace Decompiler.Text

set_option autoImplicit false

/-! ## Pieces -/

/-- The text can stand as a word of a line. -/
def IsWord (text : List Char) : Prop :=
  text ≠ [] ∧ ∀ c ∈ text, isBlank c = false

instance (text : List Char) : Decidable (IsWord text) :=
  decidable_of_iff ((!text.isEmpty && text.all fun c => !isBlank c) = true) (by simp [IsWord])

/-- The text can stand as a field of a word. -/
def IsField (text : List Char) : Prop :=
  text ≠ [] ∧ ∀ c ∈ text, isBlank c = false ∧ c ≠ ':'

instance (text : List Char) : Decidable (IsField text) :=
  decidable_of_iff ((!text.isEmpty && text.all fun c => !isBlank c && c != ':') = true)
    (by simp [IsField])

theorem IsField.no_colon {text : List Char} (field : IsField text) : ':' ∉ text :=
  fun member => (field.2 ':' member).2 rfl

/-- Fields side by side, with colons between them, are one word. -/
theorem IsField.isWord_three {first second third : List Char} (one : IsField first)
    (two : IsField second) (three : IsField third) :
    IsWord (first ++ ':' :: (second ++ ':' :: third)) := by
  have colon : isBlank ':' = false := by decide
  refine ⟨by simp, fun c member => ?_⟩
  simp only [List.mem_append, List.mem_cons] at member
  rcases member with inFirst | rfl | inSecond | rfl | inThird
  · exact (one.2 c inFirst).1
  · exact colon
  · exact (two.2 c inSecond).1
  · exact colon
  · exact (three.2 c inThird).1

theorem fields_three {first second third : List Char} (one : ':' ∉ first) (two : ':' ∉ second)
    (three : ':' ∉ third) :
    fields ':' (first ++ ':' :: (second ++ ':' :: third)) = [first, second, third] := by
  rw [fields, List.splitOn_append_cons_self_of_not_mem one,
    List.splitOn_append_cons_self_of_not_mem two, List.splitOn_eq_singleton three]

/-! ## Words and lines -/

/-- No piece of a text holds a character at which the text is cut. -/
theorem uncut_of_mem_splitOnP (cuts : Char → Bool) (text : List Char) :
    ∀ piece ∈ text.splitOnP cuts, ∀ c ∈ piece, cuts c = false := by
  induction text with
  | nil => simp
  | cons first rest ih =>
      obtain ⟨piece, others, split⟩ := List.exists_cons_of_ne_nil (List.splitOnP_ne_nil cuts rest)
      rw [split, List.forall_mem_cons] at ih
      rw [List.splitOnP_cons_eq_if_modifyHead, split]
      cases cut : cuts first with
      | true => simpa using ih
      | false => simpa [cut] using ih

theorem isWord_of_mem_words {line word : List Char} (member : word ∈ words line) : IsWord word := by
  obtain ⟨piece, nonempty⟩ := List.mem_filter.mp member
  exact ⟨of_decide_eq_true nonempty, uncut_of_mem_splitOnP isBlank line word piece⟩

theorem words_written (first : List Char) (rest : List (List Char)) (isWord : IsWord first)
    (areWords : ∀ word ∈ rest, IsWord word) :
    words (first ++ rest.flatMap (' ' :: ·)) = first :: rest := by
  induction rest generalizing first with
  | nil =>
      have single : first.splitOnP isBlank = [first] := List.splitOnP_eq_singleton isWord.2
      simp [words, single, isWord.1]
  | cons word others ih =>
      have later := ih word (areWords word List.mem_cons_self)
        fun other member => areWords other (List.mem_cons_of_mem _ member)
      have split := List.splitOnP_append_cons_of_forall_mem isWord.2 ' ' rfl
        (word ++ others.flatMap (' ' :: ·))
      simp only [words, List.flatMap_cons, List.cons_append] at later ⊢
      rw [split, List.filter_cons_of_pos (by simp [isWord.1]), later]

theorem splitOn_written (rows : List (List Char)) (unbroken : ∀ row ∈ rows, '\n' ∉ row) :
    (rows.flatMap (· ++ ['\n'])).splitOn '\n' = rows ++ [[]] := by
  induction rows with
  | nil => rfl
  | cons row others ih =>
      have later := ih fun other member => unbroken other (List.mem_cons_of_mem _ member)
      rw [List.flatMap_cons, List.append_assoc, List.singleton_append,
        List.splitOn_append_cons_self_of_not_mem (unbroken row List.mem_cons_self), later]
      rfl

/-- Rows ended by line feeds are the lines of the text they make. -/
theorem lines_written (rows : List (List Char))
    (unbroken : ∀ row ∈ rows, '\n' ∉ row ∧ row.getLast? ≠ some '\r') :
    lines (rows.flatMap (· ++ ['\n'])) = rows := by
  have kept : rows.map dropCarriageReturn = rows := by
    refine (List.map_congr_left fun row member => ?_).trans (List.map_id rows)
    exact if_neg (unbroken row member).2
  simp only [lines, splitOn_written rows fun row member => (unbroken row member).1,
    List.getLast?_concat, Option.getD_some, List.dropLast_concat, kept, if_true, List.append_nil]

/-! ## Numbers -/

theorem digits?_toDigits (number : Nat) : digits? (Nat.toDigits 10 number) = some number := by
  have allDigits : (Nat.toDigits 10 number).all Char.isDigit = true :=
    List.all_eq_true.mpr fun _ member =>
      Nat.isDigit_of_mem_toDigits (by decide) (Nat.le_refl 10) member
  rw [digits?, if_pos ⟨Nat.toDigits_ne_nil, allDigits⟩]
  exact congrArg some Nat.ofDigitChars_ten_toDigits

/-- The digits of a number do not begin with a sign. -/
theorem toDigits_ne_sign (number : Nat) {sign : Char} (notDigit : sign.isDigit = false)
    (rest : List Char) : Nat.toDigits 10 number ≠ sign :: rest := by
  intro same
  have digit : sign.isDigit = true :=
    Nat.isDigit_of_mem_toDigits (by decide) (Nat.le_refl 10) (same ▸ List.mem_cons_self)
  rw [notDigit] at digit
  cases digit

theorem unsigned?_toDigits (number : Nat) : unsigned? (Nat.toDigits 10 number) = some number := by
  unfold unsigned?
  split
  · next rest signed => exact absurd signed (toDigits_ne_sign number (by decide) rest)
  · exact digits?_toDigits number

theorem signed?_toDigits (number : Nat) :
    signed? (Nat.toDigits 10 number) = some (number : Int) := by
  unfold signed?
  split
  · next rest signed => exact absurd signed (toDigits_ne_sign number (by decide) rest)
  · rw [unsigned?_toDigits]
    rfl

theorem toList_toString_negSucc (number : Nat) :
    (toString (Int.negSucc number)).toList = '-' :: Nat.toDigits 10 (number + 1) := by
  show ("-" ++ (number + 1).repr).toList = _
  rw [String.toList_append, Nat.toList_repr]
  rfl

theorem signed?_toString (number : Int) : signed? (toString number).toList = some number := by
  cases number with
  | ofNat number =>
      show signed? number.repr.toList = _
      rw [Nat.toList_repr]
      exact signed?_toDigits number
  | negSucc number =>
      rw [toList_toString_negSucc, signed?, digits?_toDigits]
      rfl

theorem uint32?_toString (number : UInt32) :
    uint32? (toString number.toNat).toList = some number := by
  have small : number.toNat < 0x100000000 := number.toNat_lt
  show uint32? number.toNat.repr.toList = _
  rw [Nat.toList_repr, uint32?, unsigned?_toDigits]
  simp [small]

theorem int32?_toString (number : Int32) : int32? (toString number.toInt).toList = some number := by
  have range : -0x80000000 ≤ number.toInt ∧ number.toInt < 0x80000000 :=
    ⟨number.le_toInt, number.toInt_lt⟩
  rw [int32?, signed?_toString]
  simp [range]

theorem isField_digit {c : Char} (digit : c.isDigit = true) : isBlank c = false ∧ c ≠ ':' := by
  have range : 48 ≤ c.toNat ∧ c.toNat ≤ 57 := by
    simpa [Char.isDigit, UInt32.le_iff_toNat_le] using digit
  constructor
  · simp only [isBlank, blankRanges, List.any_cons, List.any_nil, Bool.or_eq_false_iff,
      Bool.and_eq_false_iff, decide_eq_false_iff_not, and_true]
    omega
  · rintro rfl
    exact absurd range (by decide)

/-- A decimal numeral can stand as a field, with or without a sign. -/
theorem isField_toDigits (number : Nat) : IsField (Nat.toDigits 10 number) := by
  refine ⟨Nat.toDigits_ne_nil, fun c member => ?_⟩
  exact isField_digit (Nat.isDigit_of_mem_toDigits (by decide) (Nat.le_refl 10) member)

theorem isField_toString (number : Int) : IsField (toString number).toList := by
  cases number with
  | ofNat number =>
      show IsField number.repr.toList
      rw [Nat.toList_repr]
      exact isField_toDigits number
  | negSucc number =>
      have digits := isField_toDigits (number + 1)
      rw [toList_toString_negSucc]
      exact ⟨by simp, List.forall_mem_cons.mpr ⟨by decide, digits.2⟩⟩

end Decompiler.Text
