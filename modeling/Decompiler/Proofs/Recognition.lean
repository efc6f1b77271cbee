/- # Decompiler.Proofs.Recognition — decoders and the stretches of bytes they accept

A grammar relates stretches of bytes to what they stand for, and mentions no decoder.
`Decoder.Recognizes bound decoder grammar` ties the two together: with fewer than
`bound` bytes ahead, the decoder answers with a value exactly where the bytes ahead
begin with a stretch that stands for it, and then it stops right behind that stretch.

The bound is for decoders of nested data, which are given a depth that suffices for so
many bytes. `recognizes_bind` takes from the bound what the first decoder must have
consumed, so an induction on the depth closes; reads of fixed width recognize their
grammar under every bound. `recognizes_iff_slice` turns the statement into one about
positions in a whole byte sequence.
-/
import Mathlib.Data.List.Forall2
import Decompiler.ClassFile.Cursor
import Decompiler.ClassFile.Annotation.Encode

namespace Decompiler.ClassFile

set_option autoImplicit false

/-- What stretches of bytes stand for. -/
abbrev Grammar (α : Type) := List UInt8 → α → Prop

namespace Grammar

variable {α β : Type}

/-- A stretch of one grammar and then a stretch of another, which may depend on what the first one
stands for. -/
def andThen (first : Grammar α) (second : α → Grammar β) : Grammar β := fun bytes value =>
  ∃ left middle right, bytes = left ++ right ∧ first left middle ∧ second middle right value

/-- Stretches side by side, one for each item of a list. -/
def listOf (item : Grammar α) : Grammar (List α) := fun bytes values =>
  ∃ pieces, bytes = pieces.flatten ∧ List.Forall₂ item pieces values

/-- A 16-bit count, high byte first, and as many stretches. -/
def counted (item : Grammar α) : Grammar (List α) := fun bytes values =>
  ∃ (count : UInt16) (body : List UInt8),
    count.toNat = values.length ∧ bytes = wordBytes count ++ body ∧ listOf item body values

theorem listOf_nil (item : Grammar α) (bytes : List UInt8) : listOf item bytes [] ↔ bytes = [] := by
  simp [listOf]

theorem listOf_cons (item : Grammar α) (bytes : List UInt8) (value : α) (rest : List α) :
    listOf item bytes (value :: rest) ↔
      ∃ left right, bytes = left ++ right ∧ item left value ∧ listOf item right rest := by
  constructor
  · rintro ⟨pieces, rfl, matched⟩
    obtain ⟨left, others, first, tail, rfl⟩ := List.forall₂_cons_right_iff.mp matched
    exact ⟨left, others.flatten, rfl, first, others, rfl, tail⟩
  · rintro ⟨left, _, rfl, first, others, rfl, tail⟩
    exact ⟨left :: others, rfl, .cons first tail⟩

/-- Where each item is written in one way, so is the list of them. -/
theorem listOf_written (write : α → List UInt8) (bytes : List UInt8) (values : List α) :
    listOf (fun piece value => piece = write value) bytes values ↔ bytes = values.flatMap write := by
  induction values generalizing bytes with
  | nil => exact listOf_nil _ bytes
  | cons value rest ih =>
      rw [listOf_cons, List.flatMap_cons]
      constructor
      · rintro ⟨_, right, rfl, rfl, others⟩
        rw [(ih right).mp others]
      · rintro rfl
        exact ⟨_, _, rfl, rfl, (ih _).mpr rfl⟩

theorem counted_nonempty (item : Grammar α) {values : List α} : ¬ counted item [] values := by
  rintro ⟨count, body, -, empty, -⟩
  simp [wordBytes] at empty

end Grammar

/-! ## Two bytes and the number they make -/

@[simp] theorem length_wordBytes (word : UInt16) : (wordBytes word).length = 2 := rfl

theorem word_bytes (word : UInt16) :
    Decoder.word (UInt8.ofNat (word.toNat / 256)) (UInt8.ofNat (word.toNat % 256)) = word := by
  have small := word.toNat_lt
  apply UInt16.toNat_inj.mp
  simp only [Decoder.word, UInt16.toNat_ofNat', UInt8.toNat_ofNat']
  omega

theorem wordBytes_word (high low : UInt8) : wordBytes (Decoder.word high low) = [high, low] := by
  have smallHigh := high.toNat_lt
  have smallLow := low.toNat_lt
  have number : (Decoder.word high low).toNat = 256 * high.toNat + low.toNat := by
    simp only [Decoder.word, UInt16.toNat_ofNat']
    omega
  have quotient : (256 * high.toNat + low.toNat) / 256 = high.toNat := by omega
  have remainder : (256 * high.toNat + low.toNat) % 256 = low.toNat := by omega
  simp [wordBytes, number, quotient, remainder]

namespace Decoder

variable {α β : Type}

/-- An answer of two decoders in sequence comes from an answer of each. -/
theorem bind_eq_ok (first : Decoder α) (second : α → Decoder β) (cursor last : Cursor) (value : β) :
    (first >>= second) cursor = .ok value last ↔
      ∃ middle next, first cursor = .ok middle next ∧ second middle next = .ok value last := by
  simp only [bind, EStateM.bind]
  cases first cursor <;> simp

/-- With fewer than `bound` bytes ahead, the decoder's answers are the grammar's. -/
def Recognizes (bound : Nat) (decoder : Decoder α) (grammar : Grammar α) : Prop :=
  ∀ position ahead, ahead.length < bound → ∀ value next,
    decoder ⟨position, ahead⟩ = .ok value next ↔
      ∃ bytes rest, ahead = bytes ++ rest ∧ next = ⟨position + bytes.length, rest⟩ ∧
        grammar bytes value

theorem Recognizes.congr {bound : Nat} {decoder : Decoder α} {grammar other : Grammar α}
    (recognizes : decoder.Recognizes bound grammar)
    (same : ∀ bytes value, grammar bytes value ↔ other bytes value) :
    decoder.Recognizes bound other := by
  intro position ahead short value next
  simp only [recognizes position ahead short, same]

theorem Recognizes.mono {bound smaller : Nat} {decoder : Decoder α} {grammar : Grammar α}
    (recognizes : decoder.Recognizes bound grammar) (le : smaller ≤ bound) :
    decoder.Recognizes smaller grammar :=
  fun position ahead short => recognizes position ahead (by omega)

/-! ## Single steps -/

theorem recognizes_lift (bound : Nat) (answer : Except DecodeError α) :
    (lift answer).Recognizes bound fun bytes value => bytes = [] ∧ answer = .ok value := by
  intro position ahead _ value next
  cases answer with
  | error cause => simp [lift]
  | ok found =>
      constructor
      · intro answered
        cases answered
        exact ⟨[], ahead, rfl, rfl, rfl, rfl⟩
      · rintro ⟨_, rest, rfl, rfl, rfl, same⟩
        cases same
        rfl

theorem recognizes_pure (bound : Nat) (found : α) :
    (pure found : Decoder α).Recognizes bound fun bytes value => bytes = [] ∧ found = value :=
  (recognizes_lift bound (.ok found)).congr fun bytes value => by simp

theorem recognizes_throw (bound : Nat) (cause : DecodeError) :
    (throw cause : Decoder α).Recognizes bound fun _ _ => False := by
  intro position ahead _ value next
  have thrown : (throw cause : Decoder α) ⟨position, ahead⟩ = .error cause ⟨position, ahead⟩ := rfl
  simp [thrown]

/-- A decoder chosen by a look-up that fails where nothing is found. -/
theorem recognizes_known {bound : Nat} {decoder : Decoder β} {grammar : α → Grammar β}
    (found : Option α) (known : ∀ value, found = some value → decoder.Recognizes bound (grammar value))
    (unknown : found = none → ∃ cause, decoder = throw cause) :
    decoder.Recognizes bound
      fun bytes value => ∃ key, found = some key ∧ grammar key bytes value := by
  cases found with
  | some key => exact (known key rfl).congr fun bytes value => by simp
  | none =>
      obtain ⟨cause, rfl⟩ := unknown rfl
      exact (recognizes_throw bound cause).congr fun bytes value => by simp

theorem recognizes_u8 (bound : Nat) : u8.Recognizes bound fun bytes byte => bytes = [byte] := by
  intro position ahead _ byte next
  cases ahead with
  | nil => simp [u8]
  | cons first rest =>
      constructor
      · intro read
        cases read
        exact ⟨[byte], rest, rfl, rfl, rfl⟩
      · rintro ⟨_, _, same, rfl, rfl⟩
        cases same
        rfl

theorem recognizes_u16 (bound : Nat) :
    u16.Recognizes bound fun bytes word => bytes = wordBytes word := by
  intro position ahead _ number next
  match ahead with
  | [] => simp [u16, wordBytes]
  | [_] => simp [u16, wordBytes]
  | high :: low :: rest =>
      constructor
      · intro read
        cases read
        exact ⟨[high, low], rest, rfl, rfl, (wordBytes_word high low).symm⟩
      · rintro ⟨_, _, same, rfl, rfl⟩
        cases same
        simp [word_bytes]

/-! ## Sequences and repetition -/

/-- What the first decoder consumes is taken from the bound of the second. -/
theorem recognizes_bind {bound width : Nat} {first : Decoder α} {second : α → Decoder β}
    {grammar : Grammar α} {next : α → Grammar β} (reads : first.Recognizes bound grammar)
    (wide : ∀ bytes value, grammar bytes value → width ≤ bytes.length)
    (continues : ∀ value, (second value).Recognizes (bound - width) (next value)) :
    (first >>= second).Recognizes bound (grammar.andThen next) := by
  intro position ahead short value last
  rw [bind_eq_ok]
  constructor
  · rintro ⟨middle, cursor, readFirst, readSecond⟩
    obtain ⟨left, rest, rfl, rfl, derived⟩ := (reads _ _ short _ _).mp readFirst
    have leftWide := wide left middle derived
    have restShort : rest.length < bound - width := by
      rw [List.length_append] at short
      omega
    obtain ⟨right, rest, rfl, rfl, derivedNext⟩ :=
      (continues middle _ _ restShort _ _).mp readSecond
    exact ⟨left ++ right, rest, by simp, by simp [Nat.add_assoc],
      left, middle, right, rfl, derived, derivedNext⟩
  · rintro ⟨_, rest, rfl, rfl, left, middle, right, rfl, derived, derivedNext⟩
    have leftWide := wide left middle derived
    have restShort : (right ++ rest).length < bound - width := by
      simp only [List.length_append] at short ⊢
      omega
    refine ⟨middle, ⟨position + left.length, right ++ rest⟩, ?_, ?_⟩
    · exact (reads _ _ short _ _).mpr ⟨left, right ++ rest, by simp, rfl, derived⟩
    · exact (continues middle _ _ restShort _ _).mpr
        ⟨right, rest, rfl, by simp [Nat.add_assoc], derivedNext⟩

/-- `recognizes_bind` where nothing is known of the first decoder's width. -/
theorem recognizes_seq {bound : Nat} {first : Decoder α} {second : α → Decoder β}
    {grammar : Grammar α} {next : α → Grammar β} (reads : first.Recognizes bound grammar)
    (continues : ∀ value, (second value).Recognizes bound (next value)) :
    (first >>= second).Recognizes bound (grammar.andThen next) :=
  recognizes_bind reads (fun _ _ _ => Nat.zero_le _) continues

/-- A value made from the one decoded. -/
theorem recognizes_map {bound : Nat} {decoder : Decoder α} {grammar : Grammar α} (make : α → β)
    (reads : decoder.Recognizes bound grammar) :
    (do let value ← decoder; return make value : Decoder β).Recognizes bound
      fun bytes made => ∃ value, grammar bytes value ∧ make value = made := by
  refine (recognizes_seq reads fun value => recognizes_pure bound (make value)).congr ?_
  intro bytes made
  constructor
  · rintro ⟨left, value, _, rfl, derived, rfl, rfl⟩
    exact ⟨value, by simpa using derived, rfl⟩
  · rintro ⟨value, derived, rfl⟩
    exact ⟨bytes, value, [], by simp, derived, rfl, rfl⟩

theorem recognizes_repeated {bound : Nat} {item : Decoder α} {grammar : Grammar α}
    (reads : item.Recognizes bound grammar) (count : Nat) :
    (repeated count item).Recognizes bound
      fun bytes values => values.length = count ∧ grammar.listOf bytes values := by
  induction count with
  | zero =>
      refine (recognizes_pure bound []).congr fun bytes values => ?_
      cases values <;> simp [Grammar.listOf_nil]
  | succ count ih =>
      rw [repeated_succ]
      refine (recognizes_seq reads fun value => recognizes_map (value :: ·) ih).congr ?_
      intro bytes values
      constructor
      · rintro ⟨left, value, right, rfl, derived, rest, ⟨rfl, others⟩, rfl⟩
        exact ⟨rfl, (Grammar.listOf_cons ..).mpr ⟨left, right, rfl, derived, others⟩⟩
      · rintro ⟨long, derived⟩
        cases values with
        | nil => simp at long
        | cons value rest =>
            obtain ⟨left, right, rfl, first, others⟩ := (Grammar.listOf_cons ..).mp derived
            exact ⟨left, value, right, rfl, first, rest, ⟨by simpa using long, others⟩, rfl⟩

/-- The count takes two bytes from the bound of the items. -/
theorem recognizes_counted {bound : Nat} {item : Decoder α} {grammar : Grammar α}
    (reads : item.Recognizes (bound - 2) grammar) :
    (counted item).Recognizes bound grammar.counted := by
  refine (recognizes_bind (recognizes_u16 bound) (fun _ _ isWord => by simp [isWord])
    fun count => recognizes_repeated reads count.toNat).congr ?_
  intro bytes values
  constructor
  · rintro ⟨_, count, body, rfl, rfl, long, derived⟩
    exact ⟨count, body, long.symm, rfl, derived⟩
  · rintro ⟨count, body, long, rfl, derived⟩
    exact ⟨_, count, body, rfl, rfl, long.symm, derived⟩

/-! ## Positions -/

/-- A decoder that recognizes a grammar on the bytes past `start` answers exactly where some slice
from there stands for the answer, and leaves the cursor at the end of that slice. -/
theorem recognizes_iff_slice {decoder : Decoder α} {grammar : Grammar α} (bytes : List UInt8)
    (start : Nat) (reads : decoder.Recognizes ((bytes.drop start).length + 1) grammar)
    (nonempty : ∀ value, ¬ grammar [] value) (value : α) (next : Cursor) :
    decoder (Cursor.ofBytes bytes start) = .ok value next ↔
      ∃ stop, next = Cursor.ofBytes bytes stop ∧ start ≤ stop ∧ stop ≤ bytes.length ∧
        grammar (bytes.extract start stop) value := by
  rw [Cursor.ofBytes, reads start (bytes.drop start) (Nat.lt_succ_self _) value next]
  constructor
  · rintro ⟨stretch, rest, split, rfl, derived⟩
    have lengths : bytes.length - start = stretch.length + rest.length := by
      simpa using congrArg List.length split
    have positive : stretch ≠ [] := by
      rintro rfl
      exact nonempty value derived
    have := List.length_pos_iff.mpr positive
    refine ⟨start + stretch.length, ?_, by omega, by omega, ?_⟩
    · rw [Cursor.ofBytes, ← List.drop_drop, split, List.drop_left]
    · rw [List.extract_eq_take_drop, Nat.add_sub_cancel_left, split, List.take_left]
      exact derived
  · rintro ⟨stop, rfl, after, within, derived⟩
    have sliceLength : (bytes.extract start stop).length = stop - start := by
      simp only [List.extract_eq_take_drop, List.length_take, List.length_drop]
      omega
    refine ⟨bytes.extract start stop, bytes.drop stop, ?_, ?_, derived⟩
    · rw [List.extract_eq_take_drop, ← Nat.add_sub_cancel' after, ← List.drop_drop,
        Nat.add_sub_cancel_left, List.take_append_drop]
    · rw [Cursor.ofBytes, sliceLength, Nat.add_sub_cancel' after]

end Decoder

end Decompiler.ClassFile
