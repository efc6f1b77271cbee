/- # Decompiler.Proofs.Tracking — what a run saw when it stopped, and what a larger table changes

Two runs from one place are compared, the second under a table that resolves all that the
first one's does. `Tracked` says how they end. Both answer alike; or both are refused alike,
for a cause that is seen in the last bytes read; or the bytes end inside a field for both;
or the first meets an index that only the second may resolve, and then the second is
further on when it stops.

`Tracks symbols behind decoder other` is this for two decoders, from every place that has
the bytes `behind` read before it. They matter because a cause may be seen in bytes that an
earlier step has read: a descriptor is rejected behind its tag and its index, and behind
the name of the enum constant as well. With one table for both runs, it is a statement
about a single run.
-/
import Decompiler.Proofs.Lockstep
import Decompiler.Proofs.PoolGrowth

namespace Decompiler.ClassFile

set_option autoImplicit false

/-! ## Where a cause is seen -/

/-- The bytes `read` lie between two places. -/
structure Cursor.Reads (start : Cursor) (read : List UInt8) (next : Cursor) : Prop where
  ahead : start.ahead = read ++ next.ahead
  position : next.position = start.position + read.length

namespace Cursor.Reads

theorem refl (start : Cursor) : start.Reads [] start :=
  ⟨rfl, rfl⟩

theorem trans {start middle last : Cursor} {left right : List UInt8} (first : start.Reads left middle)
    (second : middle.Reads right last) : start.Reads (left ++ right) last where
  ahead := by rw [first.ahead, second.ahead, List.append_assoc]
  position := by rw [second.position, first.position, List.length_append, Nat.add_assoc]

theorem reaches {start next : Cursor} {read : List UInt8} (reads : start.Reads read next) :
    start.Reaches next where
  suffix := ⟨read, reads.ahead.symm⟩
  total := by
    have lengths := congrArg List.length reads.ahead
    rw [List.length_append] at lengths
    simp only [Cursor.remaining, reads.position, lengths]
    omega

end Cursor.Reads

/-- The last of the bytes read show what is wrong. Where the bytes end, or that some are left over,
is not to be seen in those that were read. -/
def DecodeError.Seen (symbols : SymbolTable) (read : List UInt8) : DecodeError → Prop
  | unresolvedIndex index => wordBytes index <:+ read ∧ symbols index = none
  | kindMismatch index expected found =>
      wordBytes index <:+ read ∧ expected = .text ∧
        ∃ constant, symbols index = some constant ∧ constant.kind = found ∧ found ≠ .text
  | invalidElementTag tag => [tag] <:+ read ∧ ∀ known : ElementTag, known.letter.toUInt8 ≠ tag
  | unknownTarget tag => [tag] <:+ read ∧ ∀ known : Target, known.tag ≠ tag
  | invalidDescriptor descriptor =>
      JavaType.ofDescriptor? descriptor = none ∧
        ((∃ typeBytes, symbols.Refers typeBytes (.text descriptor) ∧
            'c'.toUInt8 :: typeBytes <:+ read) ∨
          ∃ typeBytes nameBytes name, symbols.Refers typeBytes (.text descriptor) ∧
            symbols.Refers nameBytes (.text name) ∧
            'e'.toUInt8 :: (typeBytes ++ nameBytes) <:+ read)
  | unexpectedEnd .. | trailingBytes .. => False

/-- More bytes before those read hide nothing. -/
theorem DecodeError.Seen.mono {symbols : SymbolTable} {read longer : List UInt8} {cause : DecodeError}
    (seen : cause.Seen symbols read) (suffix : read <:+ longer) : cause.Seen symbols longer := by
  cases cause with
  | unresolvedIndex index => exact ⟨seen.1.trans suffix, seen.2⟩
  | kindMismatch index expected found => exact ⟨seen.1.trans suffix, seen.2⟩
  | invalidElementTag tag => exact ⟨seen.1.trans suffix, seen.2⟩
  | unknownTarget tag => exact ⟨seen.1.trans suffix, seen.2⟩
  | invalidDescriptor descriptor =>
      obtain ⟨rejected, classLiteral | enumConstant⟩ := seen
      · obtain ⟨typeBytes, typeText, ends⟩ := classLiteral
        exact ⟨rejected, .inl ⟨typeBytes, typeText, ends.trans suffix⟩⟩
      · obtain ⟨typeBytes, nameBytes, name, typeText, nameText, ends⟩ := enumConstant
        exact ⟨rejected, .inr ⟨typeBytes, nameBytes, name, typeText, nameText, ends.trans suffix⟩⟩
  | unexpectedEnd | trailingBytes => exact seen.elim

namespace Decoder

variable {α β : Type} {symbols larger : SymbolTable} {behind : List UInt8}

/-- Where a run stopped. -/
def cursorOf : EStateM.Result DecodeError Cursor α → Cursor
  | .ok _ next => next
  | .error _ next => next

/-- No run of the decoder goes back. -/
def Advances (decoder : Decoder α) : Prop :=
  ∀ start : Cursor, start.Reaches (cursorOf (decoder start))

theorem advances_of_lockstep {decoder : Decoder α}
    (lockstep : ∀ bound, Lockstep bound decoder decoder) : decoder.Advances := by
  intro start
  obtain ⟨other, outcome⟩ := exists_outcome lockstep start
  generalize decoder start = result at outcome ⊢
  cases outcome with
  | answered reaches => exact reaches
  | refused reaches => exact reaches
  | starved reaches => exact reaches

/-! ## Two runs -/

/-- How a run from `start` ends, with the bytes `behind` read before it, beside the run from there
under a larger table. -/
inductive Tracked (symbols : SymbolTable) (behind : List UInt8) (start : Cursor) :
    EStateM.Result DecodeError Cursor α → EStateM.Result DecodeError Cursor α → Prop
  | answered {value : α} {read : List UInt8} {next : Cursor} (reads : start.Reads read next) :
      Tracked symbols behind start (.ok value next) (.ok value next)
  | refused {cause : DecodeError} {read : List UInt8} {next : Cursor} (reads : start.Reads read next)
      (seen : cause.Seen symbols (behind ++ read)) :
      Tracked symbols behind start (.error cause next) (.error cause next)
  /-- The bytes end inside a field of one or two. -/
  | starved {needed : Nat} {read : List UInt8} {next : Cursor} (reads : start.Reads read next)
      (field : needed = 1 ∨ needed = 2) :
      Tracked symbols behind start (.error (.unexpectedEnd next.position needed next.remaining) next)
        (.error (.unexpectedEnd next.position needed next.remaining) next)
  /-- The other run may find the index in its table, and go on. -/
  | unresolved {index : UInt16} {read : List UInt8} {next : Cursor}
      {other : EStateM.Result DecodeError Cursor α} (reads : start.Reads read next)
      (seen : (DecodeError.unresolvedIndex index).Seen symbols (behind ++ read))
      (onward : next.Reaches (cursorOf other)) :
      Tracked symbols behind start (.error (.unresolvedIndex index) next) other

namespace Tracked

variable {start middle : Cursor} {result other : EStateM.Result DecodeError Cursor α}

/-- A run from further on ends as one that began earlier. -/
theorem after {read : List UInt8} (reads : start.Reads read middle)
    (tracked : Tracked symbols (behind ++ read) middle result other) :
    Tracked symbols behind start result other := by
  cases tracked with
  | answered further => exact .answered (reads.trans further)
  | refused further seen =>
      rw [List.append_assoc] at seen
      exact .refused (reads.trans further) seen
  | starved further field => exact .starved (reads.trans further) field
  | unresolved further seen onward =>
      rw [List.append_assoc] at seen
      exact .unresolved (reads.trans further) seen onward

/-- What is seen does not depend on bytes read before, if it is seen without them. -/
theorem widen (tracked : Tracked symbols [] start result other) (bytes : List UInt8) :
    Tracked symbols bytes start result other := by
  cases tracked with
  | answered reads => exact .answered reads
  | refused reads seen => exact .refused reads (seen.mono (List.suffix_append bytes _))
  | starved reads field => exact .starved reads field
  | unresolved reads seen onward =>
      exact .unresolved reads (seen.mono (List.suffix_append bytes _)) onward

/-- The other run never goes back. -/
theorem reaches (tracked : Tracked symbols behind start result other) :
    start.Reaches (cursorOf other) := by
  cases tracked with
  | answered reads => exact reads.reaches
  | refused reads => exact reads.reaches
  | starved reads => exact reads.reaches
  | unresolved reads _ onward => exact reads.reaches.trans onward

end Tracked

/-- The runs of two decoders end as `Tracked` says, wherever they start. -/
def Tracks (symbols : SymbolTable) (behind : List UInt8) (decoder other : Decoder α) : Prop :=
  ∀ start, Tracked symbols behind start (decoder start) (other start)

theorem Tracks.advances {decoder other : Decoder α} (tracks : Tracks symbols behind decoder other) :
    other.Advances :=
  fun start => (tracks start).reaches

theorem Tracks.widen {decoder other : Decoder α} (tracks : Tracks symbols [] decoder other)
    (bytes : List UInt8) : Tracks symbols bytes decoder other :=
  fun start => (tracks start).widen bytes

/-! ## Single steps -/

theorem tracks_lift (answer : Except DecodeError α)
    (seen : ∀ cause, answer = .error cause → cause.Seen symbols behind) :
    Tracks symbols behind (lift answer) (lift answer) := by
  intro start
  cases answer with
  | ok value => exact .answered (.refl start)
  | error cause =>
      refine .refused (.refl start) ?_
      rw [List.append_nil]
      exact seen cause rfl

theorem tracks_pure (value : α) : Tracks symbols behind (pure value : Decoder α) (pure value) :=
  tracks_lift (.ok value) nofun

theorem tracks_throw {cause : DecodeError} (seen : cause.Seen symbols behind) :
    Tracks symbols behind (throw cause : Decoder α) (throw cause) :=
  tracks_lift (.error cause) fun _ same => by cases same; exact seen

theorem tracks_u8 : Tracks symbols behind u8 u8 := by
  rintro ⟨position, ahead⟩
  match ahead with
  | byte :: rest =>
      have reads : Cursor.Reads ⟨position, byte :: rest⟩ [byte] ⟨position + 1, rest⟩ := ⟨rfl, rfl⟩
      exact .answered reads
  | [] => exact .starved (.refl _) (.inl rfl)

theorem tracks_u16 : Tracks symbols behind u16 u16 := by
  rintro ⟨position, ahead⟩
  match ahead with
  | high :: low :: rest =>
      have reads : Cursor.Reads ⟨position, high :: low :: rest⟩ [high, low] ⟨position + 2, rest⟩ :=
        ⟨rfl, rfl⟩
      exact .answered reads
  | [] => exact .starved (.refl _) (.inr rfl)
  | [byte] => exact .starved (.refl _) (.inr rfl)

/-- An entry looked up in both tables, behind its index. Where the smaller table has one, so has the
larger. -/
theorem tracks_entry {index : UInt16} {here there : Except DecodeError α}
    (ends : wordBytes index <:+ behind)
    (known : ∀ constant, symbols index = some constant →
      there = here ∧ ∀ cause, here = .error cause → cause.Seen symbols behind)
    (unknown : symbols index = none → here = .error (.unresolvedIndex index)) :
    Tracks symbols behind (lift here) (lift there) := by
  cases entry : symbols index with
  | some constant =>
      obtain ⟨rfl, seen⟩ := known constant entry
      exact tracks_lift _ seen
  | none =>
      intro start
      have stays : cursorOf (lift there start) = start := by cases there <;> rfl
      rw [unknown entry]
      refine .unresolved (.refl start) ⟨?_, entry⟩ ?_
      · rwa [List.append_nil]
      · rw [stays]
        exact .refl start

/-! ## Sequences and repetition -/

section Sequences

variable {decoder other : Decoder α} {next otherNext : α → Decoder β}

/-- Two runs in sequence. Where the first table fails, all that is asked of the rest of the other run
is that it does not go back. -/
theorem tracks_continue (first : Tracks symbols behind decoder other)
    (second : ∀ start read value middle, decoder start = .ok value middle → start.Reads read middle →
      Tracked symbols (behind ++ read) middle (next value middle) (otherNext value middle))
    (onward : ∀ value, (otherNext value).Advances) :
    Tracks symbols behind (decoder >>= next) (other >>= otherNext) := by
  intro start
  have tracked := first start
  simp only [bind, EStateM.bind]
  generalize run : decoder start = result at tracked ⊢
  generalize other start = otherResult at tracked ⊢
  cases tracked with
  | answered reads => exact (second start _ _ _ run reads).after reads
  | refused reads seen => exact .refused reads seen
  | starved reads field => exact .starved reads field
  | unresolved reads seen further =>
      cases otherResult with
      | ok value middle => exact .unresolved reads seen (further.trans (onward value middle))
      | error cause middle => exact .unresolved reads seen further

/-- `tracks_continue` where the rest of the run shows its causes by itself. -/
theorem tracks_seq (first : Tracks symbols behind decoder other)
    (second : ∀ value, Tracks symbols [] (next value) (otherNext value)) :
    Tracks symbols behind (decoder >>= next) (other >>= otherNext) :=
  tracks_continue first (fun _ _ value middle _ _ => (second value middle).widen _)
    fun value => (second value).advances

/-- The rest of the run starts behind a stretch that the first decoder's grammar describes. -/
theorem tracks_recognized {grammar : Grammar α} (recognizes : ∀ bound, decoder.Recognizes bound grammar)
    (first : Tracks symbols behind decoder other)
    (second : ∀ bytes value, grammar bytes value →
      Tracks symbols (behind ++ bytes) (next value) (otherNext value))
    (onward : ∀ value, (otherNext value).Advances) :
    Tracks symbols behind (decoder >>= next) (other >>= otherNext) := by
  refine tracks_continue first (fun start read value middle run reads => ?_) onward
  obtain ⟨bytes, rest, split, rfl, derived⟩ :=
    (recognizes _ start.position start.ahead (Nat.lt_succ_self _) value middle).mp run
  have same : read = bytes := List.append_cancel_right (reads.ahead.symm.trans split)
  rw [same]
  exact second bytes value derived _

/-- `tracks_recognized` for a value that is written in one way. -/
theorem tracks_written {write : α → List UInt8}
    (recognizes : ∀ bound, decoder.Recognizes bound fun bytes value => bytes = write value)
    (first : Tracks symbols behind decoder other)
    (second : ∀ value, Tracks symbols (behind ++ write value) (next value) (otherNext value)) :
    Tracks symbols behind (decoder >>= next) (other >>= otherNext) := by
  refine tracks_recognized recognizes first ?_ fun value => (second value).advances
  rintro _ value rfl
  exact second value

end Sequences

/-- A value made from the one decoded. -/
theorem tracks_map {decoder other : Decoder α} (make : α → β)
    (tracks : Tracks symbols behind decoder other) :
    Tracks symbols behind (do let value ← decoder; return make value)
      (do let value ← other; return make value) :=
  tracks_seq tracks fun value => tracks_pure (make value)

theorem tracks_repeated {item other : Decoder α} (tracks : Tracks symbols [] item other) (count : Nat) :
    Tracks symbols [] (repeated count item) (repeated count other) := by
  induction count with
  | zero => exact tracks_pure []
  | succ count ih =>
      rw [repeated_succ, repeated_succ]
      exact tracks_seq tracks fun value => tracks_map (value :: ·) ih

theorem tracks_counted {item other : Decoder α} (tracks : Tracks symbols [] item other) :
    Tracks symbols [] (counted item) (counted other) :=
  tracks_seq tracks_u16 fun count => tracks_repeated tracks count.toNat

/-! ## Annotations -/

section Annotations

variable {inner otherInner : Decoder Value}

theorem tracks_constant (grown : larger.Extends symbols) :
    Tracks symbols behind (constant symbols) (constant larger) := by
  refine tracks_written recognizes_u16 tracks_u16 fun index =>
    tracks_entry (List.suffix_append _ _) (fun found entry => ?_) fun entry => ?_
  · have here : symbols.constant index = .ok found := by rw [SymbolTable.constant, entry]
    have there : larger.constant index = .ok found := by
      rw [SymbolTable.constant, grown index found entry]
    rw [here, there]
    refine ⟨rfl, fun cause failed => ?_⟩
    cases failed
  · rw [SymbolTable.constant, entry]

theorem tracks_text (grown : larger.Extends symbols) :
    Tracks symbols behind (text symbols) (text larger) := by
  refine tracks_written recognizes_u16 tracks_u16 fun index =>
    tracks_entry (List.suffix_append _ _) (fun found entry => ?_) fun entry => ?_
  · have same : larger.text index = symbols.text index := by
      rw [SymbolTable.text, SymbolTable.text, entry, grown index found entry]
    refine ⟨same, fun cause failed => ?_⟩
    rw [SymbolTable.text, entry] at failed
    cases found with
    | text value => cases failed
    | integer value | float value | long value | double value =>
        cases failed
        exact ⟨List.suffix_append _ _, rfl, _, entry, rfl, nofun⟩
  · rw [SymbolTable.text, entry]

theorem tracks_pairOf (grown : larger.Extends symbols) (inside : Tracks symbols [] inner otherInner) :
    Tracks symbols [] (pairOf symbols inner) (pairOf larger otherInner) :=
  tracks_seq (tracks_text grown) fun name => tracks_map (ElementPair.mk name) inside

theorem tracks_annotationOf (grown : larger.Extends symbols)
    (inside : Tracks symbols [] inner otherInner) :
    Tracks symbols [] (annotationOf symbols inner) (annotationOf larger otherInner) :=
  tracks_seq (tracks_text grown) fun _ => tracks_map _ (tracks_counted (tracks_pairOf grown inside))

/-- A rejected descriptor is seen only behind all that was read for it. -/
theorem tracks_parse {descriptor : String}
    (seen : JavaType.ofDescriptor? descriptor = none →
      (DecodeError.invalidDescriptor descriptor).Seen symbols behind) :
    Tracks symbols behind (lift (JavaType.parse descriptor)) (lift (JavaType.parse descriptor)) := by
  refine tracks_lift _ fun cause failed => ?_
  unfold JavaType.parse at failed
  split at failed
  · cases failed
  · next rejected =>
      cases failed
      exact seen rejected

theorem tracks_classLiteral (grown : larger.Extends symbols) :
    Tracks symbols ['c'.toUInt8] (classLiteral symbols) (classLiteral larger) := by
  refine tracks_recognized (recognizes_text symbols) (tracks_text grown)
    (fun typeBytes descriptor typeText => tracks_map _ (tracks_parse fun rejected => ?_))
    fun descriptor => advances_of_lockstep fun bound => lockstep_map _ (lockstep_parse bound descriptor)
  exact ⟨rejected, .inl ⟨typeBytes, typeText, List.suffix_rfl⟩⟩

theorem tracks_enumConstant (grown : larger.Extends symbols) :
    Tracks symbols ['e'.toUInt8] (enumConstant symbols) (enumConstant larger) := by
  refine tracks_recognized (recognizes_text symbols) (tracks_text grown)
    (fun typeBytes descriptor typeText => tracks_recognized (recognizes_text symbols)
      (tracks_text grown)
      (fun nameBytes name nameText => tracks_map _ (tracks_parse fun rejected => ?_))
      fun _ => advances_of_lockstep fun bound => lockstep_map _ (lockstep_parse bound descriptor))
    fun descriptor => advances_of_lockstep fun bound => lockstep_seq (lockstep_text larger bound)
      fun _ => lockstep_map _ (lockstep_parse bound descriptor)
  refine ⟨rejected, .inr ⟨typeBytes, nameBytes, name, typeText, nameText, ?_⟩⟩
  rw [List.append_assoc]
  exact List.suffix_rfl

theorem tracks_payloadOf (grown : larger.Extends symbols)
    (inside : Tracks symbols [] inner otherInner) (tag : ElementTag) :
    Tracks symbols [tag.letter.toUInt8] (payloadOf symbols inner tag)
      (payloadOf larger otherInner tag) := by
  cases tag with
  | primitive kind => exact tracks_map _ (tracks_constant grown)
  | enumConstant => exact tracks_enumConstant grown
  | classLiteral => exact tracks_classLiteral grown
  | array => exact (tracks_map _ (tracks_counted inside)).widen _
  | nested => exact (tracks_map _ (tracks_annotationOf grown inside)).widen _

theorem tracks_elementOf (grown : larger.Extends symbols)
    (inside : Tracks symbols [] inner otherInner) :
    Tracks symbols [] (elementOf symbols inner) (elementOf larger otherInner) := by
  refine tracks_written recognizes_u8 tracks_u8 fun byte => ?_
  cases found : ElementTag.ofByte? byte with
  | some tag =>
      have letter := (ElementTag.ofByte?_eq_some_iff byte tag).mp found
      have payload := tracks_payloadOf grown inside tag
      rwa [letter] at payload
  | none =>
      refine tracks_throw ⟨List.suffix_rfl, fun known letter => ?_⟩
      rw [(ElementTag.ofByte?_eq_some_iff byte known).mpr letter] at found
      cases found

/-- What stands at the bottom reports a byte that is not there, whatever the depth. -/
theorem tracks_elementWithin (grown : larger.Extends symbols) (depth : Nat) :
    Tracks symbols [] (elementWithin symbols noneAhead depth)
      (elementWithin larger noneAhead depth) := by
  induction depth with
  | zero => exact fun start => .starved (.refl start) (.inl rfl)
  | succ depth ih => exact tracks_elementOf grown ih

/-- The depth given to the values inside is the same for both runs: it depends on the bytes ahead
alone. -/
theorem tracks_nesting (grown : larger.Extends symbols) {outer otherOuter : Decoder Value → Decoder α}
    (around : ∀ inner otherInner, Tracks symbols [] inner otherInner →
      Tracks symbols [] (outer inner) (otherOuter otherInner)) :
    Tracks symbols [] (nesting symbols outer) (nesting larger otherOuter) :=
  fun start => around _ _ (tracks_elementWithin grown _) start

theorem tracks_element (grown : larger.Extends symbols) :
    Tracks symbols [] (element symbols) (element larger) :=
  tracks_nesting grown fun _ _ inside => inside

theorem tracks_annotationTree (grown : larger.Extends symbols) :
    Tracks symbols [] (annotationTree symbols) (annotationTree larger) :=
  tracks_nesting grown fun _ _ inside => tracks_annotationOf grown inside

theorem tracks_annotations (grown : larger.Extends symbols) :
    Tracks symbols [] (annotations symbols) (annotations larger) :=
  tracks_nesting grown fun _ _ inside => tracks_counted (tracks_annotationOf grown inside)

/-! ## Type annotations -/

theorem tracks_target : Tracks symbols [] target target := by
  refine tracks_written recognizes_u8 tracks_u8 fun tag => ?_
  cases found : Target.ofTag? tag with
  | some target => exact tracks_pure target
  | none =>
      refine tracks_throw ⟨List.suffix_rfl, fun known same => ?_⟩
      rw [(Target.ofTag?_eq_some_iff tag known).mpr same] at found
      cases found

theorem tracks_localVarRange : Tracks symbols [] localVarRange localVarRange :=
  tracks_seq tracks_u16 fun _ => tracks_seq tracks_u16 fun _ => tracks_map _ tracks_u16

theorem tracks_targetInfo (shape : TargetShape) :
    Tracks symbols [] (targetInfo shape) (targetInfo shape) := by
  cases shape with
  | typeParameter | formalParameter => exact tracks_map _ tracks_u8
  | supertype | throws | exceptionHandler | offset => exact tracks_map _ tracks_u16
  | typeParameterBound => exact tracks_seq tracks_u8 fun _ => tracks_map _ tracks_u8
  | empty => exact tracks_pure _
  | localVar => exact tracks_map _ (tracks_counted tracks_localVarRange)
  | typeArgument => exact tracks_seq tracks_u16 fun _ => tracks_map _ tracks_u8

theorem tracks_path : Tracks symbols [] path path := by
  refine tracks_seq tracks_u8 fun length => tracks_repeated ?_ length.toNat
  exact tracks_seq tracks_u8 fun _ => tracks_map _ tracks_u8

theorem tracks_typeAnnotationOf (grown : larger.Extends symbols)
    (inside : Tracks symbols [] inner otherInner) :
    Tracks symbols [] (typeAnnotationOf symbols inner) (typeAnnotationOf larger otherInner) :=
  tracks_seq tracks_target fun target => tracks_seq (tracks_targetInfo target.shape) fun _ =>
    tracks_seq tracks_path fun _ => tracks_map _ (tracks_annotationOf grown inside)

theorem tracks_typeAnnotationTree (grown : larger.Extends symbols) :
    Tracks symbols [] (typeAnnotationTree symbols) (typeAnnotationTree larger) :=
  tracks_nesting grown fun _ _ inside => tracks_typeAnnotationOf grown inside

theorem tracks_typeAnnotations (grown : larger.Extends symbols) :
    Tracks symbols [] (typeAnnotations symbols) (typeAnnotations larger) :=
  tracks_nesting grown fun _ _ inside => tracks_counted (tracks_typeAnnotationOf grown inside)

end Annotations

end Decoder

end Decompiler.ClassFile
