/- # Decompiler.Proofs.PoolCapacity — how far a pool can grow, and when every slot has an index

A class file names a slot by 16 bits, so a slot past 65535 has no name. A constant is
accepted while its own index has one, and nothing is asked of the slot behind a wide
constant. So the pool outgrows the indices in exactly one way, by one slot: a wide constant
is asked for when a single index is left (`Overhangs`). Until an index is missing every
constant is accepted, so whether that happens can be read off the calls alone: the
constants before it ask for 65534 slots together (`slotCount_after_eq_iff`).

`Addressable` is what a class file needs of a pool, and `addressable_iff` says that a run
of calls gives it exactly if it does not overhang. `long_at_last_index` is a run that does.
-/
import Mathlib.Data.List.Induction
import Decompiler.Proofs.PoolHistory

namespace Decompiler.ClassFile

set_option autoImplicit false

namespace Pool

/-- Every slot that the constant would take has an index of 16 bits. -/
def Fits (pool : Pool) (constant : Constant) : Prop :=
  pool.slotCount + constant.width ≤ 65536

/-- The slots that calls ask for together, accepted or not. -/
def requested : List Call → Nat
  | [] => 0
  | call :: rest => call.constant.width + requested rest

/-- A wide constant is asked for when a single index is left. -/
def Overhangs (calls : List Call) : Prop :=
  ∃ front call back, calls = front ++ call :: back ∧ call.constant.isWide = true ∧
    requested front = 65534

/-- What a class file needs of the pool that calls on a new one make. -/
structure Addressable (calls : List Call) : Prop where
  /-- The last slot has an index of 16 bits. -/
  slots : (empty.after calls).slotCount ≤ 65536
  /-- So have all slots of an accepted constant, the second one of a wide constant included. -/
  entries : ∀ entry ∈ accepted empty calls, entry.2.toNat + entry.1.width ≤ 65536
  /-- A constant that does not fit is rejected, and the pool stays as it is. -/
  rejected : ∀ front call back, calls = front ++ call :: back →
    ¬ Fits (empty.after front) call.constant →
      call.run (empty.after front) = (none, empty.after front)

/-! ## Slots asked for and slots taken -/

theorem Call.slotCount_run (pool : Pool) (call : Call) :
    (call.run pool).2.slotCount =
      if pool.slotCount < 65536 then pool.slotCount + call.constant.width else pool.slotCount := by
  rw [run_eq_push?, slotCount_push?]

theorem slotCount_after_concat (pool : Pool) (calls : List Call) (call : Call) :
    (pool.after (calls ++ [call])).slotCount =
      if (pool.after calls).slotCount < 65536 then
        (pool.after calls).slotCount + call.constant.width
      else (pool.after calls).slotCount := by
  rw [after_append, after_cons, after_nil, Call.slotCount_run]

/-- Calls take at most the slots that they ask for, and exactly those while an index is left. -/
theorem slotCount_after_le (pool : Pool) (calls : List Call) :
    (pool.after calls).slotCount ≤ pool.slotCount + requested calls ∧
      ((pool.after calls).slotCount < 65536 →
        (pool.after calls).slotCount = pool.slotCount + requested calls) := by
  induction calls generalizing pool with
  | nil => simp [requested]
  | cons call rest ih =>
      have later := ih (call.run pool).2
      rw [call.slotCount_run] at later
      rw [after_cons, requested]
      split at later
      · omega
      · next full =>
          have same : (call.run pool).2.slotCount = pool.slotCount := by
            rw [call.slotCount_run, if_neg full]
          have stays : (call.run pool).2.after rest = (call.run pool).2 :=
            after_of_full (by omega) rest
          rw [stays]
          omega

/-- A single index is left exactly if all others but 0 were asked for. -/
theorem slotCount_after_eq_iff (calls : List Call) :
    (empty.after calls).slotCount = 65535 ↔ requested calls = 65534 := by
  obtain ⟨atMost, exactly⟩ := slotCount_after_le empty calls
  have start : empty.slotCount = 1 := rfl
  omega

/-! ## Runs that overhang -/

theorem Overhangs.append {calls : List Call} (overhangs : Overhangs calls) (later : List Call) :
    Overhangs (calls ++ later) := by
  obtain ⟨front, call, back, rfl, wide, asked⟩ := overhangs
  exact ⟨front, call, back ++ later, by simp, wide, asked⟩

/-- The wide constant is accepted at the last index, and its second slot has none. -/
theorem Overhangs.slotCount {calls : List Call} (overhangs : Overhangs calls) :
    (empty.after calls).slotCount = 65537 := by
  obtain ⟨front, call, back, rfl, wide, asked⟩ := overhangs
  have two : call.constant.width = 2 := by rw [Constant.width_eq, if_pos wide]
  have single := (slotCount_after_eq_iff front).mpr asked
  have past : (empty.after (front ++ [call])).slotCount = 65537 := by
    rw [slotCount_after_concat, single, two]
    rfl
  rw [List.append_cons, after_append, after_of_full (by omega), past]

theorem Overhangs.not_addressable {calls : List Call} (overhangs : Overhangs calls) :
    ¬ Addressable calls := by
  intro addressable
  have slots := addressable.slots
  rw [overhangs.slotCount] at slots
  omega

/-- A pool that is past the last index got there by a wide constant. -/
theorem overhangs_of_slotCount {calls : List Call}
    (past : 65536 < (empty.after calls).slotCount) : Overhangs calls := by
  -- The last call either moved the pool past the last index or found it there.
  induction calls using List.reverseRecOn with
  | nil => exact absurd past (by decide)
  | append_singleton calls call ih =>
      rw [slotCount_after_concat] at past
      split at past
      · next room =>
          have wide : call.constant.isWide = true := by
            by_contra narrow
            have one : call.constant.width = 1 := by rw [Constant.width_eq, if_neg narrow]
            omega
          have two : call.constant.width = 2 := by rw [Constant.width_eq, if_pos wide]
          have single : (empty.after calls).slotCount = 65535 := by omega
          exact ⟨calls, call, [], rfl, wide, (slotCount_after_eq_iff calls).mp single⟩
      · exact (ih past).append [call]

/-- **Every slot of a pool has an index of 16 bits, unless a wide constant is asked for when a single
index is left.** Then, and only then, that constant is accepted although it does not fit, and the pool
ends one slot past the last index; no pool ends further. -/
theorem addressable_iff (calls : List Call) :
    (Addressable calls ↔ ¬ Overhangs calls) ∧
      ((empty.after calls).slotCount ≤ 65536 ∨
        (empty.after calls).slotCount = 65537 ∧ Overhangs calls) := by
  refine ⟨⟨fun addressable overhangs => overhangs.not_addressable addressable,
    fun supported => ?_⟩, ?_⟩
  · have slots : (empty.after calls).slotCount ≤ 65536 :=
      Nat.le_of_not_lt fun past => supported (overhangs_of_slotCount past)
    refine ⟨slots, fun entry listed => ?_, fun front call back split unfit => ?_⟩
    · exact Nat.le_trans ((records_empty.after calls).within entry listed).2 slots
    · obtain ⟨room, -⟩ | ⟨-, ran⟩ := call.run_cases (empty.after front)
      · have past : 65536 < (empty.after (front ++ [call])).slotCount := by
          rw [slotCount_after_concat, if_pos (by omega)]
          exact Nat.lt_of_not_le unfit
        rw [split, List.append_cons] at supported
        exact absurd ((overhangs_of_slotCount past).append back) supported
      · exact ran
  · rcases Nat.lt_or_ge 65536 (empty.after calls).slotCount with past | within
    · have overhangs := overhangs_of_slotCount past
      exact .inr ⟨overhangs.slotCount, overhangs⟩
    · exact .inl within

/-- 65534 integers leave one index, a long is accepted there, and its second slot would be the
65537th. -/
theorem long_at_last_index :
    let integers := List.replicate 65534 (Call.tryPush (.integer 0))
    let wide := Call.tryPush (.long 1)
    (wide.run (empty.after integers)).1 = some 65535 ∧
      (empty.after (integers ++ [wide])).slotCount = 65537 ∧
      ¬ Addressable (integers ++ [wide]) := by
  intro integers wide
  have single : (empty.after integers).slotCount = 65535 :=
    slotCount_after_replicate rfl empty (by decide)
  clear_value integers
  have overhangs : Overhangs (integers ++ [wide]) :=
    ⟨integers, wide, [], rfl, rfl, (slotCount_after_eq_iff integers).mp single⟩
  refine ⟨?_, overhangs.slotCount, overhangs.not_addressable⟩
  obtain ⟨-, index, next, ran, place, -⟩ | ⟨full, -⟩ := wide.run_cases (empty.after integers)
  · have last : index = 65535 := UInt16.toNat_inj.mp (place.trans single)
    rw [ran, last]
  · omega

end Pool

end Decompiler.ClassFile
