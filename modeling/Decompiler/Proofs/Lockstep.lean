/- # Decompiler.Proofs.Lockstep — a run does not look beyond what it reads

Two runs are compared: one over some bytes, and one over the same bytes with others behind
and ahead of them. `Outcome` says how they end. Either both answer with one value, or both
are refused for one cause that lies in what was read, each time after the same stretch; or
the run over fewer bytes stops right at the field that its bytes end in. There is no other
ending: in particular a decoder by itself never complains about bytes left over.

`Lockstep bound shorter longer` is this for two decoders and starts with fewer than `bound`
bytes ahead. They are two because the depth given to nested values grows with the bytes
ahead, and so does the decoder. `lockstep_elementWithin` shows that every depth that
suffices for the bytes at hand is as good as any larger one.
-/
import Decompiler.Proofs.TypeAnnotationGrammar

namespace Decompiler.ClassFile

set_option autoImplicit false

/-! ## Places -/

namespace Cursor

/-- A place further on over the same bytes. -/
structure Reaches (start next : Cursor) : Prop where
  suffix : next.ahead <:+ start.ahead
  total : next.position + next.remaining = start.position + start.remaining

theorem Reaches.refl (start : Cursor) : start.Reaches start :=
  ⟨List.suffix_rfl, rfl⟩

theorem Reaches.trans {start middle last : Cursor} (first : start.Reaches middle)
    (second : middle.Reaches last) : start.Reaches last :=
  ⟨second.suffix.trans first.suffix, second.total.trans first.total⟩

theorem Reaches.remaining_le {start next : Cursor} (reaches : start.Reaches next) :
    next.remaining ≤ start.remaining :=
  reaches.suffix.length_le

/-- The same place with so many bytes more behind it, and more bytes ahead. -/
def placed (before : Nat) (after : List UInt8) (cursor : Cursor) : Cursor :=
  ⟨before + cursor.position, cursor.ahead ++ after⟩

end Cursor

/-- The cause lies in what was read, and not in where the bytes end. -/
def DecodeError.InContent : DecodeError → Prop
  | unexpectedEnd .. | trailingBytes .. => False
  | unresolvedIndex _ | kindMismatch .. | invalidElementTag _ | unknownTarget _
  | invalidDescriptor _ => True

namespace Decoder

variable {α β : Type}

/-- How a run from `start` ends, beside the run from the same place with other bytes around it. -/
inductive Outcome (before : Nat) (after : List UInt8) (start : Cursor) :
    EStateM.Result DecodeError Cursor α → EStateM.Result DecodeError Cursor α → Prop
  | answered {value : α} {next : Cursor} (reaches : start.Reaches next) :
      Outcome before after start (.ok value next) (.ok value (next.placed before after))
  | refused {cause : DecodeError} {next : Cursor} (reaches : start.Reaches next)
      (inContent : cause.InContent) :
      Outcome before after start (.error cause next) (.error cause (next.placed before after))
  /-- The bytes end inside a field. Nothing is said of the other run if it has more of them. -/
  | starved {needed : Nat} {next : Cursor} {other : EStateM.Result DecodeError Cursor α}
      (reaches : start.Reaches next) (short : next.remaining < needed)
      (same : after = [] → other =
        .error (.unexpectedEnd (before + next.position) needed next.remaining)
          (next.placed before after)) :
      Outcome before after start
        (.error (.unexpectedEnd next.position needed next.remaining) next) other

/-- A run from further on ends as one that began earlier. -/
theorem Outcome.after {before : Nat} {after : List UInt8} {start middle : Cursor}
    {shorter longer : EStateM.Result DecodeError Cursor α} (reached : start.Reaches middle)
    (outcome : Outcome before after middle shorter longer) :
    Outcome before after start shorter longer := by
  cases outcome with
  | answered reaches => exact .answered (reached.trans reaches)
  | refused reaches inContent => exact .refused (reached.trans reaches) inContent
  | starved reaches short same => exact .starved (reached.trans reaches) short same

/-- With fewer than `bound` bytes ahead, the runs of two decoders end as `Outcome` says. -/
def Lockstep (bound : Nat) (shorter longer : Decoder α) : Prop :=
  ∀ before after start, start.remaining < bound →
    Outcome before after start (shorter start) (longer (start.placed before after))

theorem Lockstep.mono {bound smaller : Nat} {shorter longer : Decoder α}
    (lockstep : Lockstep bound shorter longer) (le : smaller ≤ bound) :
    Lockstep smaller shorter longer :=
  fun before after start short => lockstep before after start (by omega)

/-- How a run ends, read off the run beside it with nothing around it. -/
theorem exists_outcome {decoder : Decoder α} (lockstep : ∀ bound, Lockstep bound decoder decoder)
    (start : Cursor) : ∃ other, Outcome 0 [] start (decoder start) other :=
  ⟨_, lockstep (start.remaining + 1) 0 [] start (Nat.lt_succ_self _)⟩

/-- An answer of the decoder consumes at least so many bytes. -/
def Consumes (width : Nat) (decoder : Decoder α) : Prop :=
  ∀ start value next, decoder start = .ok value next → next.remaining + width ≤ start.remaining

/-- What a decoder consumes can be read off its grammar. -/
theorem Recognizes.consumes {width : Nat} {decoder : Decoder α} {grammar : Grammar α}
    (recognizes : ∀ bound, decoder.Recognizes bound grammar)
    (wide : ∀ bytes value, grammar bytes value → width ≤ bytes.length) :
    decoder.Consumes width := by
  rintro ⟨position, ahead⟩ value next answered
  obtain ⟨bytes, rest, rfl, rfl, derived⟩ :=
    (recognizes _ position ahead (Nat.lt_succ_self _) value next).mp answered
  have := wide bytes value derived
  simp only [Cursor.remaining, List.length_append]
  omega

/-! ## Single steps -/

theorem lockstep_lift (bound : Nat) (answer : Except DecodeError α)
    (inContent : ∀ cause, answer = .error cause → cause.InContent) :
    Lockstep bound (lift answer) (lift answer) := by
  intro before after start _
  cases answer with
  | ok value => exact .answered (.refl start)
  | error cause => exact .refused (.refl start) (inContent cause rfl)

theorem lockstep_pure (bound : Nat) (value : α) :
    Lockstep bound (pure value : Decoder α) (pure value) :=
  lockstep_lift bound (.ok value) nofun

theorem lockstep_throw (bound : Nat) {cause : DecodeError} (inContent : cause.InContent) :
    Lockstep bound (throw cause : Decoder α) (throw cause) :=
  fun _ _ start _ => .refused (.refl start) inContent

theorem lockstep_u8 (bound : Nat) : Lockstep bound u8 u8 := by
  rintro before after ⟨position, ahead⟩ _
  match ahead with
  | byte :: rest =>
      have reaches : Cursor.Reaches ⟨position, byte :: rest⟩ ⟨position + 1, rest⟩ :=
        ⟨⟨[byte], rfl⟩, by simp only [Cursor.remaining, List.length_cons]; omega⟩
      exact .answered reaches
  | [] =>
      refine .starved (.refl _) Nat.zero_lt_one ?_
      rintro rfl
      rfl

theorem lockstep_u16 (bound : Nat) : Lockstep bound u16 u16 := by
  rintro before after ⟨position, ahead⟩ _
  match ahead with
  | high :: low :: rest =>
      have reaches : Cursor.Reaches ⟨position, high :: low :: rest⟩ ⟨position + 2, rest⟩ :=
        ⟨⟨[high, low], rfl⟩, by simp only [Cursor.remaining, List.length_cons]; omega⟩
      exact .answered reaches
  | [] =>
      refine .starved (.refl _) Nat.zero_lt_two ?_
      rintro rfl
      rfl
  | [byte] =>
      refine .starved (.refl _) Nat.one_lt_two ?_
      rintro rfl
      rfl

/-! ## Sequences and repetition -/

/-- Two runs in sequence, where the second is known to end well wherever the first can stop. -/
theorem lockstep_continue {bound : Nat} {shorter longer : Decoder α}
    {shorterNext longerNext : α → Decoder β} (first : Lockstep bound shorter longer)
    (second : ∀ start value next, start.remaining < bound → shorter start = .ok value next →
      start.Reaches next → ∀ before after,
        Outcome before after next (shorterNext value next)
          (longerNext value (next.placed before after))) :
    Lockstep bound (shorter >>= shorterNext) (longer >>= longerNext) := by
  intro before after start short
  have outcome := first before after start short
  simp only [bind, EStateM.bind]
  generalize run : shorter start = result at outcome ⊢
  generalize longer (start.placed before after) = other at outcome ⊢
  cases outcome with
  | @answered value next reaches =>
      exact (second start value next short run reaches before after).after reaches
  | refused reaches inContent => exact .refused reaches inContent
  | starved reaches short same =>
      refine .starved reaches short fun none => ?_
      rw [same none]

/-- What the first decoder consumes is taken from the bound of the second. -/
theorem lockstep_bind {bound width : Nat} {shorter longer : Decoder α}
    {shorterNext longerNext : α → Decoder β} (first : Lockstep bound shorter longer)
    (wide : shorter.Consumes width)
    (second : ∀ value, Lockstep (bound - width) (shorterNext value) (longerNext value)) :
    Lockstep bound (shorter >>= shorterNext) (longer >>= longerNext) := by
  refine lockstep_continue first fun start value next short run _ before after => ?_
  have consumed := wide start value next run
  exact second value before after next (by omega)

/-- `lockstep_bind` where nothing is known of the first decoder's width. -/
theorem lockstep_seq {bound : Nat} {shorter longer : Decoder α}
    {shorterNext longerNext : α → Decoder β} (first : Lockstep bound shorter longer)
    (second : ∀ value, Lockstep bound (shorterNext value) (longerNext value)) :
    Lockstep bound (shorter >>= shorterNext) (longer >>= longerNext) := by
  refine lockstep_continue first fun start value next short _ reaches before after => ?_
  have fewer := reaches.remaining_le
  exact second value before after next (by omega)

/-- A value made from the one decoded. -/
theorem lockstep_map {bound : Nat} {shorter longer : Decoder α} (make : α → β)
    (lockstep : Lockstep bound shorter longer) :
    Lockstep bound (do let value ← shorter; return make value)
      (do let value ← longer; return make value) :=
  lockstep_seq lockstep fun value => lockstep_pure bound (make value)

theorem lockstep_repeated {bound : Nat} {shorter longer : Decoder α}
    (item : Lockstep bound shorter longer) (count : Nat) :
    Lockstep bound (repeated count shorter) (repeated count longer) := by
  induction count with
  | zero => exact lockstep_pure bound []
  | succ count ih =>
      rw [repeated_succ, repeated_succ]
      exact lockstep_seq item fun value => lockstep_map (value :: ·) ih

theorem consumes_u8 : u8.Consumes 1 :=
  Recognizes.consumes recognizes_u8 fun _ _ isByte => by simp [isByte]

theorem consumes_u16 : u16.Consumes 2 :=
  Recognizes.consumes recognizes_u16 fun _ _ isWord => by simp [isWord]

/-- The count takes two bytes from the bound of the items. -/
theorem lockstep_counted {bound : Nat} {shorter longer : Decoder α}
    (item : Lockstep (bound - 2) shorter longer) :
    Lockstep bound (counted shorter) (counted longer) :=
  lockstep_bind (lockstep_u16 bound) consumes_u16 fun count => lockstep_repeated item count.toNat

/-! ## Annotations -/

section Annotations

variable {symbols : SymbolTable} {shorter longer : Decoder Value}

theorem lockstep_constant (symbols : SymbolTable) (bound : Nat) :
    Lockstep bound (constant symbols) (constant symbols) := by
  refine lockstep_seq (lockstep_u16 bound) fun index => lockstep_lift bound _ fun cause failed => ?_
  unfold SymbolTable.constant at failed
  split at failed <;> cases failed
  trivial

theorem lockstep_text (symbols : SymbolTable) (bound : Nat) :
    Lockstep bound (text symbols) (text symbols) := by
  refine lockstep_seq (lockstep_u16 bound) fun index => lockstep_lift bound _ fun cause failed => ?_
  unfold SymbolTable.text at failed
  split at failed <;> cases failed <;> trivial

theorem lockstep_parse (bound : Nat) (descriptor : String) :
    Lockstep bound (lift (JavaType.parse descriptor)) (lift (JavaType.parse descriptor)) := by
  refine lockstep_lift bound _ fun cause failed => ?_
  unfold JavaType.parse at failed
  split at failed <;> cases failed
  trivial

theorem consumes_text (symbols : SymbolTable) : (text symbols).Consumes 2 :=
  Recognizes.consumes (recognizes_text symbols) fun _ _ refers => Nat.le_of_eq refers.length.symm

theorem lockstep_pairOf {bound : Nat} (inside : Lockstep bound shorter longer) :
    Lockstep bound (pairOf symbols shorter) (pairOf symbols longer) :=
  lockstep_seq (lockstep_text symbols bound) fun name => lockstep_map (ElementPair.mk name) inside

/-- The index of the type takes two bytes from the bound of the values inside. -/
theorem lockstep_annotationOf {bound : Nat} (inside : Lockstep (bound - 2) shorter longer) :
    Lockstep bound (annotationOf symbols shorter) (annotationOf symbols longer) := by
  have pairs : Lockstep (bound - 2) (counted (pairOf symbols shorter))
      (counted (pairOf symbols longer)) :=
    lockstep_counted (lockstep_pairOf (inside.mono (Nat.sub_le _ 2)))
  exact lockstep_bind (lockstep_text symbols bound) (consumes_text symbols) fun _ =>
    lockstep_map _ pairs

/-- Behind a tag, two more bytes precede any value inside. -/
theorem lockstep_payloadOf {bound : Nat} (inside : Lockstep (bound - 2) shorter longer)
    (tag : ElementTag) :
    Lockstep bound (payloadOf symbols shorter tag) (payloadOf symbols longer tag) := by
  cases tag with
  | primitive kind => exact lockstep_map _ (lockstep_constant symbols bound)
  | enumConstant =>
      exact lockstep_seq (lockstep_text symbols bound) fun descriptor =>
        lockstep_seq (lockstep_text symbols bound) fun _ =>
          lockstep_map _ (lockstep_parse bound descriptor)
  | classLiteral =>
      exact lockstep_seq (lockstep_text symbols bound) fun descriptor =>
        lockstep_map _ (lockstep_parse bound descriptor)
  | array => exact lockstep_map _ (lockstep_counted inside)
  | nested => exact lockstep_map _ (lockstep_annotationOf inside)

theorem lockstep_elementOf {bound : Nat} (inside : Lockstep (bound - 3) shorter longer) :
    Lockstep bound (elementOf symbols shorter) (elementOf symbols longer) := by
  refine lockstep_bind (lockstep_u8 bound) consumes_u8 fun byte => ?_
  cases ElementTag.ofByte? byte with
  | some tag => exact lockstep_payloadOf inside tag
  | none => exact lockstep_throw (bound - 1) trivial

/-- A depth that suffices for the bytes ahead is as good as a larger one, whatever stands at the
bottom of either. -/
theorem lockstep_elementWithin (symbols : SymbolTable) (bottom deeperBottom : Decoder Value)
    (depth extra : Nat) :
    Lockstep (3 * depth) (elementWithin symbols bottom depth)
      (elementWithin symbols deeperBottom (depth + extra)) := by
  induction depth with
  | zero => exact fun _ _ _ short => absurd short (Nat.not_lt_zero _)
  | succ depth ih =>
      rw [Nat.succ_add]
      exact lockstep_elementOf (ih.mono (by omega))

/-- A decoder of something with values inside runs in lockstep with itself, once it does so wherever
the decoders of those values do. -/
theorem lockstep_nesting {α : Type} (symbols : SymbolTable) {outer : Decoder Value → Decoder α}
    (around : ∀ shorter longer bound, Lockstep bound shorter longer →
      Lockstep bound (outer shorter) (outer longer)) (bound : Nat) :
    Lockstep bound (nesting symbols outer) (nesting symbols outer) := by
  intro before after start _
  have more : start.remaining / 3 ≤ (start.placed before after).remaining / 3 :=
    Nat.div_le_div_right (by simp [Cursor.placed, Cursor.remaining])
  obtain ⟨extra, deeper⟩ := Nat.exists_eq_add_of_le (Nat.succ_le_succ more)
  have enough := lockstep_elementWithin symbols noneAhead noneAhead (start.remaining / 3 + 1) extra
  have outcome := around _ _ _ enough before after start (by omega)
  rw [← deeper] at outcome
  exact outcome

theorem lockstep_element (symbols : SymbolTable) (bound : Nat) :
    Lockstep bound (element symbols) (element symbols) :=
  lockstep_nesting symbols (fun _ _ _ inside => inside) bound

theorem lockstep_annotationTree (symbols : SymbolTable) (bound : Nat) :
    Lockstep bound (annotationTree symbols) (annotationTree symbols) :=
  lockstep_nesting symbols (fun _ _ _ inside =>
    lockstep_annotationOf (inside.mono (Nat.sub_le _ 2))) bound

theorem lockstep_annotations (symbols : SymbolTable) (bound : Nat) :
    Lockstep bound (annotations symbols) (annotations symbols) :=
  lockstep_nesting symbols (fun _ _ _ inside =>
    lockstep_counted (lockstep_annotationOf (inside.mono (by omega)))) bound

/-! ## Type annotations -/

theorem lockstep_target (bound : Nat) : Lockstep bound target target := by
  refine lockstep_seq (lockstep_u8 bound) fun tag => ?_
  cases Target.ofTag? tag with
  | some target => exact lockstep_pure bound target
  | none => exact lockstep_throw bound trivial

theorem lockstep_localVarRange (bound : Nat) : Lockstep bound localVarRange localVarRange :=
  lockstep_seq (lockstep_u16 bound) fun _ => lockstep_seq (lockstep_u16 bound) fun _ =>
    lockstep_map _ (lockstep_u16 bound)

theorem lockstep_targetInfo (bound : Nat) (shape : TargetShape) :
    Lockstep bound (targetInfo shape) (targetInfo shape) := by
  cases shape with
  | typeParameter | formalParameter => exact lockstep_map _ (lockstep_u8 bound)
  | supertype | throws | exceptionHandler | offset => exact lockstep_map _ (lockstep_u16 bound)
  | typeParameterBound =>
      exact lockstep_seq (lockstep_u8 bound) fun _ => lockstep_map _ (lockstep_u8 bound)
  | empty => exact lockstep_pure bound _
  | localVar => exact lockstep_map _ (lockstep_counted (lockstep_localVarRange _))
  | typeArgument =>
      exact lockstep_seq (lockstep_u16 bound) fun _ => lockstep_map _ (lockstep_u8 bound)

theorem lockstep_path (bound : Nat) : Lockstep bound path path := by
  refine lockstep_seq (lockstep_u8 bound) fun length => lockstep_repeated ?_ length.toNat
  exact lockstep_seq (lockstep_u8 bound) fun _ => lockstep_map _ (lockstep_u8 bound)

theorem lockstep_typeAnnotationOf {bound : Nat} (inside : Lockstep bound shorter longer) :
    Lockstep bound (typeAnnotationOf symbols shorter) (typeAnnotationOf symbols longer) :=
  lockstep_seq (lockstep_target bound) fun target =>
    lockstep_seq (lockstep_targetInfo bound target.shape) fun _ =>
      lockstep_seq (lockstep_path bound) fun _ =>
        lockstep_map _ (lockstep_annotationOf (inside.mono (Nat.sub_le bound 2)))

theorem lockstep_typeAnnotationTree (symbols : SymbolTable) (bound : Nat) :
    Lockstep bound (typeAnnotationTree symbols) (typeAnnotationTree symbols) :=
  lockstep_nesting symbols (fun _ _ _ inside => lockstep_typeAnnotationOf inside) bound

theorem lockstep_typeAnnotations (symbols : SymbolTable) (bound : Nat) :
    Lockstep bound (typeAnnotations symbols) (typeAnnotations symbols) :=
  lockstep_nesting symbols (fun _ _ _ inside =>
    lockstep_counted ((lockstep_typeAnnotationOf inside).mono (Nat.sub_le _ 2))) bound

end Annotations

end Decoder

end Decompiler.ClassFile
