/- # Decompiler.Proofs.PoolGrowth — an index once given keeps its constant

A pool only ever grows at its end. So whatever a pool resolves, it resolves to the same
constant after any further constants were appended (`extends_pushAll`), and the index that
an admitted constant was given resolves to it from then on (`symbols_push?_new`), also
behind a constant that takes two slots.
-/
import Decompiler.ClassFile.Pool

namespace Decompiler.ClassFile

set_option autoImplicit false

/-- The table resolves all that the smaller one does, to the same constants. -/
def SymbolTable.Extends (symbols smaller : SymbolTable) : Prop :=
  ∀ index constant, smaller index = some constant → symbols index = some constant

theorem SymbolTable.Extends.refl (symbols : SymbolTable) : symbols.Extends symbols :=
  fun _ _ found => found

theorem SymbolTable.Extends.trans {symbols middle smaller : SymbolTable}
    (outer : symbols.Extends middle) (inner : middle.Extends smaller) : symbols.Extends smaller :=
  fun index constant found => outer index constant (inner index constant found)

namespace Pool

/-- Appends constants in order, as long as none is refused. -/
def pushAll : List Constant → Pool → Option Pool
  | [], pool => some pool
  | constant :: rest, pool =>
      match pool.push? constant with
      | (some _, next) => pushAll rest next
      | (none, _) => none

theorem pushAll_append (front back : List Constant) (pool : Pool) :
    pushAll (front ++ back) pool = (pushAll front pool).bind (pushAll back) := by
  induction front generalizing pool with
  | nil => rfl
  | cons constant rest ih =>
      simp only [List.cons_append, pushAll]
      split
      · exact ih _
      · rfl

/-- What was there stays, whether the constant is admitted or refused. -/
theorem extends_push? (pool : Pool) (constant : Constant) :
    SymbolTable.Extends (pool.push? constant).2.symbols pool.symbols := by
  intro index found resolves
  unfold push?
  split
  · unfold symbols at resolves
    rcases Nat.lt_or_ge index.toNat pool.slots.size with inside | outside
    · show (pool.slots ++ slotsOf constant)[index.toNat]?.join = some found
      rw [Array.getElem?_append_left inside]
      exact resolves
    · rw [Array.getElem?_eq_none outside] at resolves
      cases resolves
  · exact resolves

/-- An admitted constant stands at the index it was given. -/
theorem symbols_push?_new {pool next : Pool} {constant : Constant} {index : UInt16}
    (admitted : pool.push? constant = (some index, next)) : next.symbols index = some constant := by
  unfold push? at admitted
  split at admitted
  · next room =>
      cases admitted
      have here : (UInt16.ofNat pool.slotCount).toNat = pool.slots.size :=
        UInt16.toNat_ofNat_of_lt room
      unfold symbols
      rw [here, Array.getElem?_append_right (Nat.le_refl _), Nat.sub_self]
      cases wide : constant.isWide <;> simp [slotsOf, wide]
  · cases admitted

theorem extends_pushAll {pool next : Pool} {constants : List Constant}
    (admitted : pushAll constants pool = some next) :
    SymbolTable.Extends next.symbols pool.symbols := by
  induction constants generalizing pool with
  | nil =>
      cases admitted
      exact .refl _
  | cons constant rest ih =>
      have grown := extends_push? pool constant
      rw [pushAll] at admitted
      generalize pool.push? constant = outcome at admitted grown
      obtain ⟨index, middle⟩ := outcome
      cases index with
      | none => cases admitted
      | some index => exact (ih admitted).trans grown

end Pool

end Decompiler.ClassFile
