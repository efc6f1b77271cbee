/- # Decompiler.Proofs.AttributeBody — which bodies are accepted, and what is wrong with the others

A body is accepted exactly if all of it stands for a list in the grammar
(`annotations_eq_ok_iff`, `typeAnnotations_eq_ok_iff`). The accepted bodies form a prefix
code, and a body next to an accepted one is diagnosed exactly: bytes added to it are
reported as left over, and a body cut short is reported at the field that the cut goes
through, before any complaint about what was read. `attributes_prefixCode` has the
statement for both kinds of attribute.
-/
import Decompiler.ClassFile.Attribute
import Decompiler.Proofs.Lockstep

namespace Decompiler.ClassFile

set_option autoImplicit false

/-- What is said of bodies that extend an accepted one, or that an accepted one extends. -/
structure PrefixCode {α : Type} (parse : List UInt8 → Except DecodeError α) : Prop where
  /-- Bytes behind an accepted body are left over, all of them. -/
  lengthened : ∀ body value extra, parse body = .ok value → extra ≠ [] →
    parse (body ++ extra) = .error (.trailingBytes body.length extra.length)
  /-- A cut through an accepted body is reported at the field that it goes through. -/
  truncated : ∀ body value cut, parse body = .ok value → cut < body.length →
    ∃ offset needed, parse (body.take cut) = .error (.unexpectedEnd offset needed (cut - offset)) ∧
      offset ≤ cut ∧ cut < offset + needed
  /-- Where bytes are left over, those before them are an accepted body. -/
  leftOver : ∀ body offset remaining, parse body = .error (.trailingBytes offset remaining) →
    offset + remaining = body.length ∧ 0 < remaining ∧ ∃ value, parse (body.take offset) = .ok value

namespace Attribute

variable {α : Type} {decoder : Decoder α} {grammar : Grammar α}

/-! ## Accepted bodies -/

/-- The answers over a whole body, by the stretch that they stand for. -/
theorem start_eq_ok_iff (recognizes : ∀ bound, decoder.Recognizes bound grammar)
    (body : List UInt8) (value : α) (next : Cursor) :
    decoder (Cursor.start body) = .ok value next ↔
      ∃ bytes rest, body = bytes ++ rest ∧ next = ⟨bytes.length, rest⟩ ∧ grammar bytes value := by
  have answers := recognizes (body.length + 1) 0 body (Nat.lt_succ_self _) value next
  simp only [Nat.zero_add] at answers
  exact answers

theorem decodeWhole_eq_ok_iff_atEnd (body : List UInt8) (value : α) :
    decodeWhole decoder body = .ok value ↔
      ∃ next, decoder (Cursor.start body) = .ok value next ∧ next.ahead = [] := by
  unfold decodeWhole
  cases decoder (Cursor.start body) with
  | error cause next => simp
  | ok found next =>
      cases atEnd : next.atEnd <;> simp_all [Cursor.atEnd]

theorem decodeWhole_eq_ok_iff (recognizes : ∀ bound, decoder.Recognizes bound grammar)
    (body : List UInt8) (value : α) :
    decodeWhole decoder body = .ok value ↔ grammar body value := by
  rw [decodeWhole_eq_ok_iff_atEnd]
  simp only [start_eq_ok_iff recognizes]
  constructor
  · rintro ⟨_, ⟨bytes, rest, rfl, rfl, derived⟩, atEnd⟩
    obtain rfl : rest = [] := atEnd
    rwa [List.append_nil]
  · intro derived
    exact ⟨⟨body.length, []⟩, ⟨body, [], (List.append_nil body).symm, rfl, derived⟩, rfl⟩

theorem annotations_eq_ok_iff (symbols : SymbolTable) (body : List UInt8)
    (nodes : List Annotation) :
    annotations symbols body = .ok nodes ↔
      Grammar.counted (AnnotationGrammar symbols) body nodes :=
  decodeWhole_eq_ok_iff (Decoder.recognizes_annotations symbols) body nodes

theorem typeAnnotations_eq_ok_iff (symbols : SymbolTable) (body : List UInt8)
    (list : List TypeAnnotation) :
    typeAnnotations symbols body = .ok list ↔ Grammar.counted (TypedGrammar symbols) body list :=
  decodeWhole_eq_ok_iff (Decoder.recognizes_typeAnnotations symbols) body list

/-! ## Longer and shorter bodies -/

theorem decodeWhole_append (recognizes : ∀ bound, decoder.Recognizes bound grammar)
    {body extra : List UInt8} {value : α} (accepted : decodeWhole decoder body = .ok value)
    (nonempty : extra ≠ []) :
    decodeWhole decoder (body ++ extra) = .error (.trailingBytes body.length extra.length) := by
  have derived := (decodeWhole_eq_ok_iff recognizes body value).mp accepted
  have run : decoder (Cursor.start (body ++ extra)) = .ok value ⟨body.length, extra⟩ :=
    (start_eq_ok_iff recognizes ..).mpr ⟨body, extra, rfl, rfl, derived⟩
  simp [decodeWhole, run, Cursor.atEnd, Cursor.remaining, nonempty]

/-- The run over the first bytes of an accepted body can only starve: with an answer or a refusal, the
run over all of the body would have stopped at the same place. -/
theorem decodeWhole_take (lockstep : ∀ bound, Decoder.Lockstep bound decoder decoder)
    {body : List UInt8} {value : α} (accepted : decodeWhole decoder body = .ok value) {cut : Nat}
    (inside : cut < body.length) :
    ∃ offset needed,
      decodeWhole decoder (body.take cut) = .error (.unexpectedEnd offset needed (cut - offset)) ∧
        offset ≤ cut ∧ cut < offset + needed := by
  obtain ⟨last, run, atEnd⟩ := (decodeWhole_eq_ok_iff_atEnd body value).mp accepted
  have whole : (Cursor.start (body.take cut)).placed 0 (body.drop cut) = Cursor.start body := by
    simp [Cursor.start, Cursor.ofBytes, Cursor.placed]
  have cutLength : (Cursor.start (body.take cut)).remaining = cut := by
    simp [Cursor.start, Cursor.ofBytes, Cursor.remaining, Nat.le_of_lt inside]
  have outcome := lockstep (cut + 1) 0 (body.drop cut) (Cursor.start (body.take cut)) (by omega)
  rw [whole, run] at outcome
  unfold decodeWhole
  generalize decoder (Cursor.start (body.take cut)) = result at outcome ⊢
  cases outcome with
  | answered reaches =>
      have : body.length ≤ cut := by simpa [Cursor.placed] using (List.append_eq_nil_iff.mp atEnd).2
      omega
  | @starved needed next _ reaches short _ =>
      have total := reaches.total
      rw [cutLength] at total
      have zero : (Cursor.start (body.take cut)).position = 0 := rfl
      have remaining : next.remaining = cut - next.position := by omega
      exact ⟨next.position, needed, by rw [remaining], by omega, by omega⟩

theorem decodeWhole_eq_trailing (recognizes : ∀ bound, decoder.Recognizes bound grammar)
    (lockstep : ∀ bound, Decoder.Lockstep bound decoder decoder) {body : List UInt8}
    {offset remaining : Nat}
    (left : decodeWhole decoder body = .error (.trailingBytes offset remaining)) :
    offset + remaining = body.length ∧ 0 < remaining ∧
      ∃ value, decodeWhole decoder (body.take offset) = .ok value := by
  have outcome := lockstep (body.length + 1) 0 [] (Cursor.start body) (Nat.lt_succ_self _)
  unfold decodeWhole at left
  generalize run : decoder (Cursor.start body) = result at outcome left
  generalize decoder ((Cursor.start body).placed 0 []) = other at outcome
  cases result with
  | error cause next =>
      -- The decoder itself never reports bytes left over.
      cases left
      cases outcome with
      | refused _ inContent => exact inContent.elim
  | ok value next =>
      obtain ⟨bytes, rest, rfl, rfl, derived⟩ := (start_eq_ok_iff recognizes body value next).mp run
      have nonempty : rest ≠ [] := by
        rintro rfl
        simp [Cursor.atEnd] at left
      obtain ⟨rfl, rfl⟩ : bytes.length = offset ∧ rest.length = remaining := by
        simpa [Cursor.atEnd, nonempty, Cursor.remaining] using left
      refine ⟨List.length_append.symm, List.length_pos_iff.mpr nonempty, value, ?_⟩
      rw [List.take_left]
      exact (decodeWhole_eq_ok_iff recognizes bytes value).mpr derived

theorem prefixCode_decodeWhole (recognizes : ∀ bound, decoder.Recognizes bound grammar)
    (lockstep : ∀ bound, Decoder.Lockstep bound decoder decoder) :
    PrefixCode (decodeWhole decoder) where
  lengthened _ _ _ accepted nonempty := decodeWhole_append recognizes accepted nonempty
  truncated _ _ _ accepted inside := decodeWhole_take lockstep accepted inside
  leftOver _ _ _ left := decodeWhole_eq_trailing recognizes lockstep left

/-- **Accepted attribute bodies form a prefix code with exact diagnoses**, under every symbol table and
for both kinds of attribute. -/
theorem attributes_prefixCode (symbols : SymbolTable) :
    PrefixCode (annotations symbols) ∧ PrefixCode (typeAnnotations symbols) :=
  ⟨prefixCode_decodeWhole (Decoder.recognizes_annotations symbols)
      (Decoder.lockstep_annotations symbols),
    prefixCode_decodeWhole (Decoder.recognizes_typeAnnotations symbols)
      (Decoder.lockstep_typeAnnotations symbols)⟩

/-- One annotation with an array of two constants: a byte too many, and a cut inside the index of the
second constant. -/
theorem array_body_prefixCode :
    let symbols : SymbolTable := fun index =>
      if index = 1 then some (.text "LA;") else if index = 2 then some (.integer 7) else none
    let body : List UInt8 := [0, 1, 0, 1, 0, 1, 0, 1, 91, 0, 2, 73, 0, 2, 73, 0, 2]
    let seven : Value := .primitive .int (.integer 7)
    annotations symbols body = .ok [⟨"A", [⟨"LA;", .ofElements [seven, seven]⟩]⟩] ∧
      annotations symbols (body ++ [9]) = .error (.trailingBytes 17 1) ∧
      ∃ offset needed,
        annotations symbols (body.take 16) = .error (.unexpectedEnd offset needed (16 - offset)) ∧
          offset ≤ 16 ∧ 16 < offset + needed := by
  intro symbols body seven
  have accepted :
      annotations symbols body = .ok [⟨"A", [⟨"LA;", .ofElements [seven, seven]⟩]⟩] := by cbv
  have code := (attributes_prefixCode symbols).1
  exact ⟨accepted, code.lengthened body _ [9] accepted (by decide),
    code.truncated body _ 16 accepted (by decide)⟩

end Attribute

end Decompiler.ClassFile
