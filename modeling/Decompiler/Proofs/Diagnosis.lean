/- # Decompiler.Proofs.Diagnosis — every cause is found where the cursor was left

A decoder that fails leaves its cursor at the fault, however deep inside nested values it
arose. `DecodeError.Pinpointed` says for each cause what is there: a field that the bytes
end in starts at the cursor, and any other cause is seen in the bytes right before it,
which the run itself has read. So nothing is read behind an offending field, and the name
of an enum constant is looked up before its type's descriptor is judged.

That a reported shortage is real comes from `Lockstep`, all else from `Tracks` with one
table for both runs.
-/
import Decompiler.Proofs.Tracking

namespace Decompiler.ClassFile

set_option autoImplicit false

/-- What the bytes show of a cause, for a run from `start` that was left at `stop`. -/
def DecodeError.Pinpointed (symbols : SymbolTable) (bytes : List UInt8) (start stop : Nat) :
    DecodeError → Prop
  | unexpectedEnd offset needed remaining =>
      offset = stop ∧ remaining = bytes.length - stop ∧ (needed = 1 ∨ needed = 2) ∧
        remaining < needed
  | kindMismatch index expected found =>
      (kindMismatch index expected found).Seen symbols (bytes.extract start stop) ∧
        (kindMismatch index expected found).detail =
          s!"constant #{index} is {found.name}, expected string"
  | cause => cause.Seen symbols (bytes.extract start stop)

theorem DecodeError.detail_expecting_text (index : UInt16) (found : Constant.Kind) :
    (kindMismatch index .text found).detail =
      s!"constant #{index} is {found.name}, expected string" := by
  have words : ", expected " ++ Constant.Kind.text.name = ", expected string" := by decide
  let start := s!"constant #{index} is {found.name}"
  exact String.append_assoc.trans (congrArg (start ++ ·) words)

theorem DecodeError.Seen.pinpointed {symbols : SymbolTable} {bytes : List UInt8} {start stop : Nat}
    {cause : DecodeError} (seen : cause.Seen symbols (bytes.extract start stop)) :
    cause.Pinpointed symbols bytes start stop := by
  cases cause with
  | unexpectedEnd => exact seen.elim
  | kindMismatch index expected found =>
      obtain ⟨ends, rfl, other⟩ := seen
      exact ⟨⟨ends, rfl, other⟩, detail_expecting_text index found⟩
  | unresolvedIndex | invalidElementTag | unknownTarget | invalidDescriptor | trailingBytes =>
      exact seen

/-- What is read from a place in a byte sequence is a slice of it. -/
theorem Cursor.Reads.slice {bytes read : List UInt8} {start : Nat} {next : Cursor}
    (inside : start ≤ bytes.length) (reads : (Cursor.ofBytes bytes start).Reads read next) :
    ∃ stop, next = Cursor.ofBytes bytes stop ∧ start ≤ stop ∧ stop ≤ bytes.length ∧
      bytes.extract start stop = read := by
  have split : bytes.drop start = read ++ next.ahead := reads.ahead
  have lengths := congrArg List.length split
  rw [List.length_drop, List.length_append] at lengths
  refine ⟨start + read.length, ?_, by omega, by omega, ?_⟩
  · have ahead : bytes.drop (start + read.length) = next.ahead := by
      rw [← List.drop_drop, split, List.drop_left]
    have position : next.position = start + read.length := reads.position
    rw [Cursor.ofBytes, ahead, ← position]
  · rw [List.extract_eq_take_drop, Nat.add_sub_cancel_left, split, List.take_left]

namespace Decoder

variable {α : Type} {symbols : SymbolTable} {decoder : Decoder α}

/-- Wherever in a byte sequence a run starts: if it fails, it is left inside the sequence and no
earlier than it started, and its cause is pinpointed there. -/
def Pinpoints (symbols : SymbolTable) (decoder : Decoder α) : Prop :=
  ∀ bytes start cause next, start ≤ bytes.length →
    decoder (Cursor.ofBytes bytes start) = .error cause next →
      ∃ stop, next = Cursor.ofBytes bytes stop ∧ start ≤ stop ∧ stop ≤ bytes.length ∧
        cause.Pinpointed symbols bytes start stop

/-- A shortage is reported only where there is one. -/
theorem short_of_lockstep (lockstep : ∀ bound, Lockstep bound decoder decoder) {start next : Cursor}
    {offset needed remaining : Nat}
    (failed : decoder start = .error (.unexpectedEnd offset needed remaining) next) :
    remaining < needed := by
  obtain ⟨other, outcome⟩ := exists_outcome lockstep start
  rw [failed] at outcome
  cases outcome with
  | refused _ inContent => exact inContent.elim
  | starved _ short => exact short

theorem Tracks.pinpoints (tracks : Tracks symbols [] decoder decoder)
    (lockstep : ∀ bound, Lockstep bound decoder decoder) : Pinpoints symbols decoder := by
  intro bytes start cause next inside failed
  have tracked := tracks (Cursor.ofBytes bytes start)
  generalize run : decoder (Cursor.ofBytes bytes start) = result at tracked
  rw [failed] at run
  subst run
  cases tracked with
  | refused reads seen =>
      obtain ⟨stop, atStop, after, within, rfl⟩ := reads.slice inside
      exact ⟨stop, atStop, after, within, seen.pinpointed⟩
  | unresolved reads seen =>
      obtain ⟨stop, atStop, after, within, rfl⟩ := reads.slice inside
      exact ⟨stop, atStop, after, within, seen.pinpointed⟩
  | starved reads field =>
      obtain ⟨stop, rfl, after, within, -⟩ := reads.slice inside
      have left : (Cursor.ofBytes bytes stop).remaining = bytes.length - stop := List.length_drop
      exact ⟨stop, rfl, after, within, rfl, left, field, short_of_lockstep lockstep failed⟩

/-- **Every cause is pinpointed at the cursor**, under every symbol table and by each of the decoders of
values, annotations and type annotations, one by one or in lists. -/
theorem decoders_pinpoint (symbols : SymbolTable) :
    Pinpoints symbols (element symbols) ∧ Pinpoints symbols (annotationTree symbols) ∧
      Pinpoints symbols (annotations symbols) ∧ Pinpoints symbols (typeAnnotationTree symbols) ∧
      Pinpoints symbols (typeAnnotations symbols) := by
  have same : symbols.Extends symbols := .refl symbols
  refine ⟨?_, ?_, ?_, ?_, ?_⟩
  · exact (tracks_element same).pinpoints (lockstep_element symbols)
  · exact (tracks_annotationTree same).pinpoints (lockstep_annotationTree symbols)
  · exact (tracks_annotations same).pinpoints (lockstep_annotations symbols)
  · exact (tracks_typeAnnotationTree same).pinpoints (lockstep_typeAnnotationTree symbols)
  · exact (tracks_typeAnnotations same).pinpoints (lockstep_typeAnnotations symbols)

/-- An enum constant inside an array, one byte into the sequence. Its type's descriptor is rejected
behind both of its indices, and the two bytes after them are not read. -/
theorem enum_descriptor_pinpointed :
    let symbols : SymbolTable := fun index =>
      if index = 1 then some (.text "Q") else if index = 2 then some (.text "RED") else none
    let bytes : List UInt8 := [7, 91, 0, 1, 101, 0, 1, 0, 2, 9, 9]
    element symbols (Cursor.ofBytes bytes 1) =
        .error (.invalidDescriptor "Q") (Cursor.ofBytes bytes 9) ∧
      ∃ stop, Cursor.ofBytes bytes 9 = Cursor.ofBytes bytes stop ∧ 1 ≤ stop ∧ stop ≤ 11 ∧
        (DecodeError.invalidDescriptor "Q").Pinpointed symbols bytes 1 stop := by
  intro symbols bytes
  have failed : element symbols (Cursor.ofBytes bytes 1) =
      .error (.invalidDescriptor "Q") (Cursor.ofBytes bytes 9) := by with_unfolding_all rfl
  exact ⟨failed, (decoders_pinpoint symbols).1 bytes 1 _ _ (by decide) failed⟩

end Decoder

end Decompiler.ClassFile
