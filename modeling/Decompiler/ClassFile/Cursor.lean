/- # Decompiler.ClassFile.Cursor — reading bytes front to back

A `Decoder` reads from a cursor and answers with a value or a cause, in either case
together with the cursor it stopped at. `u8` and `u16` are the only reads; one that
cannot complete leaves the cursor in place, so the offset it reports is the start of
the incomplete field.
-/
import Decompiler.ClassFile.Error

namespace Decompiler.ClassFile

set_option autoImplicit false

/-- A place in a byte sequence: how many bytes are behind it, and those ahead of it. -/
structure Cursor where
  position : Nat
  ahead : List UInt8
deriving DecidableEq, Repr

namespace Cursor

/-- The cursor after the first `position` bytes. -/
def ofBytes (bytes : List UInt8) (position : Nat) : Cursor :=
  ⟨position, bytes.drop position⟩

def start (bytes : List UInt8) : Cursor := ofBytes bytes 0

def remaining (cursor : Cursor) : Nat := cursor.ahead.length

def atEnd (cursor : Cursor) : Bool := cursor.ahead.isEmpty

end Cursor

/-- A reader of bytes that can fail, and that keeps what it consumed when it does. -/
abbrev Decoder := EStateM DecodeError Cursor

namespace Decoder

variable {α : Type}

/-- An answer that consumes nothing. -/
def lift : Except DecodeError α → Decoder α
  | .ok value, cursor => .ok value cursor
  | .error cause, cursor => .error cause cursor

/-- One unsigned byte. -/
def u8 : Decoder UInt8
  | ⟨position, byte :: rest⟩ => .ok byte ⟨position + 1, rest⟩
  | cursor => .error (.unexpectedEnd cursor.position 1 cursor.remaining) cursor

/-- The 16-bit number with the given high and low bytes. -/
def word (high low : UInt8) : UInt16 :=
  UInt16.ofNat (256 * high.toNat + low.toNat)

/-- One unsigned 16-bit number, high byte first. -/
def u16 : Decoder UInt16
  | ⟨position, high :: low :: rest⟩ => .ok (word high low) ⟨position + 2, rest⟩
  | cursor => .error (.unexpectedEnd cursor.position 2 cursor.remaining) cursor

/-- `collect item n done` reads `n` more items after those of `done`, which come last first. -/
def collect (item : Decoder α) : Nat → List α → Decoder (List α)
  | 0, done, cursor => .ok done.reverse cursor
  | count + 1, done, cursor =>
      match item cursor with
      | .ok value next => collect item count (value :: done) next
      | .error cause next => .error cause next

/-- `count` items, one after the other. -/
def repeated (count : Nat) (item : Decoder α) : Decoder (List α) :=
  collect item count []

/-- A 16-bit count and that many items. -/
def counted (item : Decoder α) : Decoder (List α) := do
  let count ← u16
  repeated count.toNat item

@[simp] theorem u8_cons (position : Nat) (byte : UInt8) (rest : List UInt8) :
    u8 ⟨position, byte :: rest⟩ = .ok byte ⟨position + 1, rest⟩ := rfl

@[simp] theorem u16_cons (position : Nat) (high low : UInt8) (rest : List UInt8) :
    u16 ⟨position, high :: low :: rest⟩ = .ok (word high low) ⟨position + 2, rest⟩ := rfl

/-! ## Repetition by recursion on the count -/

theorem collect_eq (item : Decoder α) (count : Nat) (done : List α) (cursor : Cursor) :
    collect item count done cursor =
      match repeated count item cursor with
      | .ok values next => .ok (done.reverse ++ values) next
      | .error cause next => .error cause next := by
  induction count generalizing done cursor with
  | zero => simp [repeated, collect]
  | succ count ih =>
      simp only [repeated, collect]
      cases item cursor with
      | error cause next => rfl
      | ok value next =>
          simp only [ih (value :: done), ih [value]]
          cases repeated count item next <;> simp

@[simp] theorem repeated_zero (item : Decoder α) : repeated 0 item = pure [] := rfl

theorem repeated_succ (item : Decoder α) (count : Nat) :
    repeated (count + 1) item = do
      let value ← item
      let values ← repeated count item
      return value :: values := by
  funext cursor
  simp only [repeated, collect, bind, EStateM.bind, pure, EStateM.pure]
  cases item cursor with
  | error cause next => rfl
  | ok value next =>
      simp only [collect_eq item count [value]]
      cases h : repeated count item next <;> simp_all [repeated]

end Decoder

end Decompiler.ClassFile
