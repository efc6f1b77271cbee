/- # Decompiler.ClassFile.Pool — symbol tables and the constant pool

Decoders see constants through a `SymbolTable`, a partial map from 16-bit indices.
A `Pool` is the table a class file carries: slot 0 never resolves, constants are
appended, and a wide constant is followed by a slot that never resolves. A constant
is admitted as long as its own index still fits in 16 bits; `push?` refuses it
otherwise and `push` names the refusal.
-/
import Decompiler.ClassFile.Error

namespace Decompiler.ClassFile

set_option autoImplicit false

/-- Resolution of indices to constants. -/
abbrev SymbolTable := UInt16 → Option Constant

namespace SymbolTable

/-- The entry at `index`, which must resolve. -/
def constant (symbols : SymbolTable) (index : UInt16) : Except DecodeError Constant :=
  match symbols index with
  | some found => .ok found
  | none => .error (.unresolvedIndex index)

/-- The entry at `index`, which must resolve to text. -/
def text (symbols : SymbolTable) (index : UInt16) : Except DecodeError String :=
  match symbols index with
  | some (.text value) => .ok value
  | some other => .error (.kindMismatch index .text other.kind)
  | none => .error (.unresolvedIndex index)

end SymbolTable

/-- A constant pool, slot by slot. -/
structure Pool where
  slots : Array (Option Constant)
deriving DecidableEq, Repr

/-- The one way a constant can be refused. -/
inductive PoolError where
  | full
deriving DecidableEq, Repr

def PoolError.message : PoolError → String
  | full => "constant pool is full"

namespace Pool

/-- The pool with no constants: slot 0 alone. -/
def empty : Pool := ⟨#[none]⟩

/-- Slots in use, slot 0 and the slots behind wide constants included. -/
def slotCount (pool : Pool) : Nat := pool.slots.size

/-- The slots a constant takes. -/
def slotsOf (constant : Constant) : Array (Option Constant) :=
  if constant.isWide then #[some constant, none] else #[some constant]

/-- Appends a constant and gives its index, unless that index would pass 65535; then the pool stays
as it is. -/
def push? (pool : Pool) (constant : Constant) : Option UInt16 × Pool :=
  if pool.slotCount < 65536 then
    (some (UInt16.ofNat pool.slotCount), ⟨pool.slots ++ slotsOf constant⟩)
  else
    (none, pool)

/-- `push?` with the refusal named. -/
def push (pool : Pool) (constant : Constant) : Except PoolError UInt16 × Pool :=
  match pool.push? constant with
  | (some index, next) => (.ok index, next)
  | (none, next) => (.error .full, next)

def pushText (pool : Pool) (text : String) : Except PoolError UInt16 × Pool :=
  pool.push (.text text)

/-- The table a pool is. -/
def symbols (pool : Pool) : SymbolTable := fun index =>
  (pool.slots[index.toNat]?).join

/-- Slot by slot equality of two pools, constants compared by `Constant.same`. -/
def same (a b : Pool) : Bool :=
  a.slots.isEqv b.slots fun
    | some c, some d => c.same d
    | none, none => true
    | _, _ => false

/-- An admitted constant adds its width, a refused one nothing. -/
theorem slotCount_push? (pool : Pool) (constant : Constant) :
    (pool.push? constant).2.slotCount =
      if pool.slotCount < 65536 then pool.slotCount + constant.width else pool.slotCount := by
  unfold push?
  split
  · cases wide : constant.isWide <;> simp [slotCount, slotsOf, Constant.width_eq, wide]
  · rfl

end Pool

end Decompiler.ClassFile
