/- # Decompiler.Proofs.Relocation — where bytes stand plays no part in what they decode to

`Portable` compares the run over a body by itself with the run over the same body with
bytes before and after it. An answer, or a refusal for what was read, is the same wherever
the body stands and whatever follows; the cursor is left at the same place of the body.
Only a run that its bytes end for sees more if more follow. With nothing after the body it
reports the same shortage, at the same place of the body.

So a reader that is used for one decoding after the other, failed ones included, keeps
nothing of what lies behind it. `readAll` takes its steps over one reader, and `readEach`
gives every step a reader of its own over the bytes that are left; `readAll_eq_readEach`
says that their reports differ by the places alone.
-/
import Decompiler.Proofs.Item
import Decompiler.Proofs.Tracking

namespace Decompiler.ClassFile

set_option autoImplicit false

/-! ## Places over longer bytes -/

/-- The cause with its place counted from further back. -/
def DecodeError.moved (offset : Nat) : DecodeError → DecodeError
  | unexpectedEnd start needed remaining => unexpectedEnd (offset + start) needed remaining
  | cause => cause

theorem DecodeError.InContent.moved {cause : DecodeError} (inContent : cause.InContent)
    (offset : Nat) : cause.moved offset = cause := by
  cases cause with
  | unexpectedEnd => exact inContent.elim
  | unresolvedIndex | kindMismatch | invalidElementTag | unknownTarget | invalidDescriptor
  | trailingBytes => rfl

namespace Cursor

/-- A place reached from the start of a body is one of its places. -/
theorem Reaches.eq_ofBytes {body : List UInt8} {next : Cursor} (reaches : (start body).Reaches next) :
    next.position ≤ body.length ∧ next = ofBytes body next.position := by
  obtain ⟨passed, split⟩ := reaches.suffix
  have total : next.position + next.ahead.length = body.length := by
    have := reaches.total
    simpa [start, ofBytes, remaining] using this
  have lengths := congrArg List.length split
  simp only [start, ofBytes, List.drop_zero, List.length_append] at lengths split
  have place : passed.length = next.position := by omega
  have ahead : body.drop next.position = next.ahead := by rw [← split, ← place, List.drop_left]
  exact ⟨by omega, by rw [ofBytes, ahead]⟩

theorem placed_ofBytes {before body : List UInt8} {stop : Nat} (after : List UInt8)
    (inside : stop ≤ body.length) :
    (ofBytes body stop).placed before.length after =
      ofBytes (before ++ body ++ after) (before.length + stop) := by
  have fits : before.length + stop ≤ (before ++ body).length := by
    rw [List.length_append]
    omega
  rw [ofBytes, ofBytes, List.drop_append_of_le_length fits, ← List.drop_drop, List.drop_left]
  rfl

/-- A place reached in a body by itself, where the body stands between other bytes. -/
theorem Reaches.placed_ofBytes {before body : List UInt8} {stop : Nat} (after : List UInt8)
    (reaches : (start body).Reaches (ofBytes body stop)) :
    (ofBytes body stop).placed before.length after =
      ofBytes (before ++ body ++ after) (before.length + stop) := by
  have inside : stop ≤ body.length := reaches.eq_ofBytes.1
  exact Cursor.placed_ofBytes after inside

theorem placed_start (before body after : List UInt8) :
    (start body).placed before.length after = ofBytes (before ++ body ++ after) before.length :=
  placed_ofBytes after (Nat.zero_le _)

theorem placed_start_drop (bytes : List UInt8) (offset : Nat) :
    (start (bytes.drop offset)).placed offset [] = ofBytes bytes offset := by
  simp [start, ofBytes, placed]

end Cursor

namespace Decoder

variable {α : Type}

/-- A result with its places counted from further back. -/
def moved (offset : Nat) :
    EStateM.Result DecodeError Cursor α → EStateM.Result DecodeError Cursor α
  | .ok value next => .ok value (next.placed offset [])
  | .error cause next => .error (cause.moved offset) (next.placed offset [])

theorem cursorOf_moved (offset : Nat) (result : EStateM.Result DecodeError Cursor α) :
    cursorOf (moved offset result) = (cursorOf result).placed offset [] := by
  cases result <;> rfl

theorem Outcome.eq_moved {offset : Nat} {start : Cursor}
    {result other : EStateM.Result DecodeError Cursor α}
    (outcome : Outcome offset [] start result other) : other = moved offset result := by
  cases outcome with
  | answered => rfl
  | refused _ inContent => rw [moved, inContent.moved]
  | starved _ _ same => exact same rfl

/-- With other bytes only behind it, the run of the second decoder is that of the first, moved. -/
theorem Lockstep.eq_moved {bound : Nat} {shorter longer : Decoder α}
    (lockstep : Lockstep bound shorter longer) (offset : Nat) {start : Cursor}
    (short : start.remaining < bound) :
    longer (start.placed offset []) = moved offset (shorter start) :=
  (lockstep offset [] start short).eq_moved

/-! ## One run -/

/-- How the run over a body by itself determines the runs over bytes that hold the body. -/
structure Portable (decoder : Decoder α) : Prop where
  /-- Every run ends at a place of the body. -/
  inside : ∀ body, ∃ stop, stop ≤ body.length ∧
    cursorOf (decoder (Cursor.start body)) = Cursor.ofBytes body stop
  answered : ∀ before body after value stop,
    decoder (Cursor.start body) = .ok value (Cursor.ofBytes body stop) →
      decoder (Cursor.ofBytes (before ++ body ++ after) before.length) =
        .ok value (Cursor.ofBytes (before ++ body ++ after) (before.length + stop))
  /-- A cause other than a shortage. -/
  refused : ∀ before body after cause stop,
    decoder (Cursor.start body) = .error cause (Cursor.ofBytes body stop) →
    (∀ offset needed remaining, cause ≠ .unexpectedEnd offset needed remaining) →
      decoder (Cursor.ofBytes (before ++ body ++ after) before.length) =
        .error cause (Cursor.ofBytes (before ++ body ++ after) (before.length + stop))
  /-- A shortage, with nothing after the body. -/
  starved : ∀ before body offset needed remaining stop,
    decoder (Cursor.start body) =
        .error (.unexpectedEnd offset needed remaining) (Cursor.ofBytes body stop) →
      decoder (Cursor.ofBytes (before ++ body) before.length) =
        .error (.unexpectedEnd (offset + before.length) needed remaining)
          (Cursor.ofBytes (before ++ body) (before.length + offset))

section Portable

variable {decoder : Decoder α}

theorem exists_stop (lockstep : ∀ bound, Lockstep bound decoder decoder) (body : List UInt8) :
    ∃ stop, stop ≤ body.length ∧
      cursorOf (decoder (Cursor.start body)) = Cursor.ofBytes body stop := by
  have reaches := advances_of_lockstep lockstep (Cursor.start body)
  exact ⟨_, reaches.eq_ofBytes⟩

/-- The outcome over a body, with the other run at its place in the longer bytes. -/
theorem outcome_around (lockstep : ∀ bound, Lockstep bound decoder decoder)
    (before body after : List UInt8) :
    Outcome before.length after (Cursor.start body) (decoder (Cursor.start body))
      (decoder (Cursor.ofBytes (before ++ body ++ after) before.length)) := by
  rw [← Cursor.placed_start]
  exact lockstep _ before.length after (Cursor.start body) (Nat.lt_succ_self _)

theorem portable_of_lockstep (lockstep : ∀ bound, Lockstep bound decoder decoder) :
    Portable decoder where
  inside := exists_stop lockstep
  answered before body after value stop run := by
    have outcome := outcome_around lockstep before body after
    rw [run] at outcome
    generalize decoder (Cursor.ofBytes (before ++ body ++ after) before.length) = other at outcome ⊢
    cases outcome with
    | answered reaches => rw [reaches.placed_ofBytes after]
  refused before body after cause stop run content := by
    have outcome := outcome_around lockstep before body after
    rw [run] at outcome
    generalize decoder (Cursor.ofBytes (before ++ body ++ after) before.length) = other at outcome ⊢
    cases outcome with
    | refused reaches => rw [reaches.placed_ofBytes after]
    | starved => exact absurd rfl (content _ _ _)
  starved before body offset needed remaining stop run := by
    have outcome := outcome_around lockstep before body []
    rw [run, List.append_nil] at outcome
    generalize decoder (Cursor.ofBytes (before ++ body) before.length) = other at outcome ⊢
    cases outcome with
    | refused _ inContent => exact inContent.elim
    | starved reaches _ same =>
        rw [same rfl, reaches.placed_ofBytes [], List.append_nil, Nat.add_comm _ before.length]
        rfl

end Portable

end Decoder

/-! ## One reader for many steps -/

/-- One use of a reader: what is decoded, and under which table. -/
structure Step where
  symbols : SymbolTable
  item : Item

/-- What is known after a step: the tree or the cause, and the position of the reader. -/
structure Report where
  item : Item
  answer : Except DecodeError item.Tree
  position : Nat

/-- The report with its places counted from further back. -/
def Report.moved (offset : Nat) (report : Report) : Report where
  item := report.item
  answer := report.answer.mapError (DecodeError.moved offset)
  position := offset + report.position

/-- The report of a run. -/
def Report.ofResult (item : Item) : EStateM.Result DecodeError Cursor item.Tree → Report
  | .ok tree next => ⟨item, .ok tree, next.position⟩
  | .error cause next => ⟨item, .error cause, next.position⟩

theorem Report.ofResult_moved (item : Item) (offset : Nat)
    (result : EStateM.Result DecodeError Cursor item.Tree) :
    ofResult item (Decoder.moved offset result) = (ofResult item result).moved offset := by
  cases result <;> rfl

theorem Report.position_ofResult (item : Item)
    (result : EStateM.Result DecodeError Cursor item.Tree) :
    (ofResult item result).position = (Decoder.cursorOf result).position := by
  cases result <;> rfl

namespace Step

def run (step : Step) (cursor : Cursor) : EStateM.Result DecodeError Cursor step.item.Tree :=
  step.item.decoder step.symbols cursor

def report (step : Step) (cursor : Cursor) : Report :=
  .ofResult step.item (step.run cursor)

/-- Takes the steps over one reader. A step that fails leaves the reader where it stopped, and the
next one goes on from there. -/
def readAll : List Step → Cursor → List Report
  | [], _ => []
  | step :: rest, cursor =>
      step.report cursor :: readAll rest (Decoder.cursorOf (step.run cursor))

/-- Takes each step over a reader of its own, made for the bytes that the steps before it left. -/
def readEach : List Step → Nat → List UInt8 → List Report
  | [], _, _ => []
  | step :: rest, offset, bytes =>
      let alone := step.report (Cursor.start bytes)
      alone.moved offset :: readEach rest (offset + alone.position) (bytes.drop alone.position)

/-- A step at a place is the step over the bytes from there, moved. -/
theorem run_ofBytes (step : Step) (bytes : List UInt8) (offset : Nat) :
    step.run (Cursor.ofBytes bytes offset) =
      Decoder.moved offset (step.run (Cursor.start (bytes.drop offset))) := by
  rw [← Cursor.placed_start_drop]
  exact (step.item.lockstep step.symbols _).eq_moved offset (Nat.lt_succ_self _)

/-- The reader is left where the step by itself was left, moved. -/
theorem cursorOf_run_ofBytes (step : Step) (bytes : List UInt8) (offset : Nat) :
    Decoder.cursorOf (step.run (Cursor.ofBytes bytes offset)) =
      Cursor.ofBytes bytes (offset + (step.report (Cursor.start (bytes.drop offset))).position) := by
  obtain ⟨stop, -, left⟩ :=
    Decoder.exists_stop (step.item.lockstep step.symbols) (bytes.drop offset)
  have alone : Decoder.cursorOf (step.run (Cursor.start (bytes.drop offset))) =
      Cursor.ofBytes (bytes.drop offset) stop := left
  rw [run_ofBytes, Decoder.cursorOf_moved, report, Report.position_ofResult, alone]
  simp [Cursor.placed, Cursor.ofBytes]

theorem readAll_eq_readEach (steps : List Step) (bytes : List UInt8) (offset : Nat) :
    readAll steps (Cursor.ofBytes bytes offset) = readEach steps offset (bytes.drop offset) := by
  induction steps generalizing offset with
  | nil => rfl
  | cons step rest ih =>
      rw [readAll, readEach, cursorOf_run_ofBytes, ih, List.drop_drop, report, run_ofBytes,
        Report.ofResult_moved]
      rfl

end Step

/-- **Decoding is position-independent and has no lookahead.** Each of the five decoders is portable,
under every table; and steps over one reader, continued after errors, report what each reports on the
bytes that are left to it, with the places moved. -/
theorem decoders_portable :
    (∀ (symbols : SymbolTable) (item : Item), (item.decoder symbols).Portable) ∧
    (∀ (steps : List Step) (bytes : List UInt8) (offset : Nat),
      Step.readAll steps (Cursor.ofBytes bytes offset) =
        Step.readEach steps offset (bytes.drop offset)) :=
  ⟨fun symbols item => Decoder.portable_of_lockstep (item.lockstep symbols),
    Step.readAll_eq_readEach⟩

/-- A byte that is no tag, then a constant, then an array that the bytes end in: the constant is the
same between the other two as by itself, and one reader serves for all three. -/
theorem reader_goes_on_after_errors :
    let symbols : SymbolTable := fun index => if index = 1 then some (.integer 7) else none
    let body : List UInt8 := [73, 0, 1]
    let after : List UInt8 := [91, 0, 2, 73, 0, 1]
    let seven : Value := .primitive .int (.integer 7)
    let steps : List Step := List.replicate 3 ⟨symbols, .element⟩
    Decoder.element symbols (Cursor.start body) = .ok seven (Cursor.ofBytes body 3) ∧
      Decoder.element symbols (Cursor.ofBytes ([9] ++ body ++ after) 1) =
        .ok seven (Cursor.ofBytes ([9] ++ body ++ after) (1 + 3)) ∧
      Step.readAll steps (Cursor.ofBytes ([9] ++ body ++ after) 0) =
        [⟨.element, .error (.invalidElementTag 9), 1⟩, ⟨.element, .ok seven, 4⟩,
          ⟨.element, .error (.unexpectedEnd 10 1 0), 10⟩] := by
  intro symbols body after seven steps
  have run : Decoder.element symbols (Cursor.start body) = .ok seven (Cursor.ofBytes body 3) := by
    with_unfolding_all rfl
  have apart : Step.readEach steps 0 (([9] ++ body ++ after).drop 0) =
      [⟨.element, .error (.invalidElementTag 9), 1⟩, ⟨.element, .ok seven, 4⟩,
        ⟨.element, .error (.unexpectedEnd 10 1 0), 10⟩] := by
    with_unfolding_all rfl
  obtain ⟨portable, oneReader⟩ := decoders_portable
  exact ⟨run, (portable symbols .element).answered [9] body after seven 3 run,
    (oneReader steps _ 0).trans apart⟩

end Decompiler.ClassFile
