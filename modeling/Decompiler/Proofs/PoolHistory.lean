/- # Decompiler.Proofs.PoolHistory — a pool is the record of the calls made on it

Whatever calls are made on a new pool, the constants accepted so far and the indices they
were given say everything about it. `accepted` lists them in order, and `Records pool log`
ties a pool to such a list: the slots are slot 0 and the widths of the constants, an index
resolves to a constant exactly if it was given to it, and each constant begins where the
widths before it end.

What a single call can do is said once (`Call.run_cases`): either it takes the next slot
as its index and changes the table there and nowhere else, or every index is taken and the
pool stays as it is. `Records.after` carries the record through a whole run, and
`accounts_of_calls` is what a caller can rely on.
-/
import Mathlib.Logic.Function.Basic
import Decompiler.Proofs.PoolGrowth

namespace Decompiler.ClassFile

set_option autoImplicit false

theorem Constant.width_pos (constant : Constant) : 0 < constant.width := by
  cases constant <;> exact Nat.succ_pos _

namespace Pool

/-! ## Calls -/

/-- A request to append a constant, in each form that a caller can choose. -/
inductive Call where
  | tryPush (constant : Constant)
  | push (constant : Constant)
  | pushText (text : String)

namespace Call

def constant : Call → Constant
  | tryPush constant | push constant => constant
  | pushText text => .text text

/-- The index that a call answers with, none where it is rejected, and the pool behind it. -/
def run (pool : Pool) : Call → Option UInt16 × Pool
  | tryPush constant => pool.push? constant
  | push constant => ((pool.push constant).1.toOption, (pool.push constant).2)
  | pushText text => ((pool.pushText text).1.toOption, (pool.pushText text).2)

end Call

/-- The pool behind calls made in order, rejected or not. -/
def after (pool : Pool) (calls : List Call) : Pool :=
  calls.foldl (fun pool call => (call.run pool).2) pool

/-- The constants that calls made in order get into a pool, each with the index it was given. -/
def accepted : Pool → List Call → List (Constant × UInt16)
  | _, [] => []
  | pool, call :: rest =>
      ((call.run pool).1.map (call.constant, ·)).toList ++ accepted (call.run pool).2 rest

/-- The slots that constants take together. -/
def widths : List (Constant × UInt16) → Nat
  | [] => 0
  | (constant, _) :: rest => constant.width + widths rest

@[simp] theorem after_nil (pool : Pool) : pool.after [] = pool := rfl

@[simp] theorem after_cons (pool : Pool) (call : Call) (rest : List Call) :
    pool.after (call :: rest) = (call.run pool).2.after rest := rfl

theorem after_append (pool : Pool) (front back : List Call) :
    pool.after (front ++ back) = (pool.after front).after back :=
  List.foldl_append

theorem widths_append (front back : List (Constant × UInt16)) :
    widths (front ++ back) = widths front + widths back := by
  induction front with
  | nil => exact (Nat.zero_add _).symm
  | cons entry rest ih => rw [List.cons_append, widths, widths, ih, Nat.add_assoc]

theorem Call.run_eq_push? (pool : Pool) (call : Call) : call.run pool = pool.push? call.constant := by
  cases call with
  | tryPush constant => rfl
  | push constant | pushText text =>
      simp only [run, Pool.pushText, Pool.push, Call.constant]
      rcases pool.push? _ with ⟨_ | index, next⟩ <;> rfl

/-! ## What one call does -/

/-- The slot behind the last one does not resolve. -/
theorem symbols_of_slotCount_le {pool : Pool} {index : UInt16}
    (beyond : pool.slotCount ≤ index.toNat) : pool.symbols index = none := by
  unfold symbols
  rw [Array.getElem?_eq_none beyond]
  rfl

/-- Of the slots that a constant takes, the first resolves to it. -/
theorem join_slotsOf (constant : Constant) (offset : Nat) :
    (slotsOf constant)[offset]?.join = if offset = 0 then some constant else none := by
  cases wide : constant.isWide with
  | false => cases offset <;> simp [slotsOf, wide]
  | true => rcases offset with _ | _ | _ <;> simp [slotsOf, wide]

/-- An accepted constant changes the table at the index it was given, and nowhere else: the slot
behind a wide one is new but does not resolve either. -/
theorem symbols_push? {pool next : Pool} {constant : Constant} {index : UInt16}
    (admitted : pool.push? constant = (some index, next)) :
    next.symbols = Function.update pool.symbols index (some constant) := by
  unfold push? at admitted
  split at admitted
  · next room =>
      cases admitted
      have here : (UInt16.ofNat pool.slotCount).toNat = pool.slots.size :=
        UInt16.toNat_ofNat_of_lt room
      funext other
      have same : other = UInt16.ofNat pool.slotCount ↔ other.toNat = pool.slots.size := by
        rw [← UInt16.toNat_inj, here]
      show (pool.slots ++ slotsOf constant)[other.toNat]?.join = _
      rcases Nat.lt_trichotomy other.toNat pool.slots.size with inside | at_end | beyond
      · rw [Array.getElem?_append_left inside, Function.update_of_ne (mt same.mp (Nat.ne_of_lt inside))]
        rfl
      · rw [same.mpr at_end, here, Array.getElem?_append_right (Nat.le_refl _), Nat.sub_self,
          Function.update_self]
        exact join_slotsOf constant 0
      · have past : other.toNat - pool.slots.size ≠ 0 := Nat.sub_ne_zero_of_lt beyond
        rw [Array.getElem?_append_right (Nat.le_of_lt beyond), join_slotsOf, if_neg past,
          Function.update_of_ne (mt same.mp (Nat.ne_of_gt beyond)),
          symbols_of_slotCount_le (Nat.le_of_lt beyond)]
  · cases admitted

/-- All that a call can do. -/
theorem Call.run_cases (pool : Pool) (call : Call) :
    (pool.slotCount ≤ 65535 ∧ ∃ index next, call.run pool = (some index, next) ∧
      index.toNat = pool.slotCount ∧ next.slotCount = pool.slotCount + call.constant.width ∧
      next.symbols = Function.update pool.symbols index (some call.constant)) ∨
    (65535 < pool.slotCount ∧ call.run pool = (none, pool)) := by
  rw [run_eq_push?]
  by_cases room : pool.slotCount < 65536
  · left
    have admitted : pool.push? call.constant =
        (some (UInt16.ofNat pool.slotCount), ⟨pool.slots ++ slotsOf call.constant⟩) := if_pos room
    have slots := slotCount_push? pool call.constant
    rw [admitted, if_pos room] at slots
    exact ⟨by omega, _, _, admitted, UInt16.toNat_ofNat_of_lt room, slots, symbols_push? admitted⟩
  · right
    exact ⟨by omega, if_neg room⟩

theorem Call.run_eq_none_iff (pool : Pool) (call : Call) :
    (call.run pool).1 = none ↔ 65535 < pool.slotCount := by
  obtain ⟨room, index, next, ran, -⟩ | ⟨full, ran⟩ := call.run_cases pool
  · rw [ran]
    simp [room]
  · rw [ran]
    simp [full]

/-- Nothing gets into a full pool any more. -/
theorem after_of_full {pool : Pool} (full : 65535 < pool.slotCount) (calls : List Call) :
    pool.after calls = pool := by
  induction calls with
  | nil => rfl
  | cons call rest ih =>
      obtain ⟨room, -⟩ | ⟨-, ran⟩ := call.run_cases pool
      · omega
      · rw [after_cons, ran]
        exact ih

/-- Whatever a pool resolves, it still does after any calls. -/
theorem extends_after (pool : Pool) (calls : List Call) :
    SymbolTable.Extends (pool.after calls).symbols pool.symbols := by
  induction calls generalizing pool with
  | nil => exact .refl _
  | cons call rest ih =>
      have step := extends_push? pool call.constant
      rw [← Call.run_eq_push?] at step
      exact (ih _).trans step

/-! ## The record of a run -/

/-- The pool holds the constants of the log at the indices of the log, in this order, and nothing
else. -/
structure Records (pool : Pool) (log : List (Constant × UInt16)) : Prop where
  slots : pool.slotCount = 1 + widths log
  resolves : ∀ index constant, pool.symbols index = some constant ↔ (constant, index) ∈ log
  /-- A later constant begins where the slots of the earlier one have ended. -/
  spaced : log.Pairwise fun earlier later => earlier.2.toNat + earlier.1.width ≤ later.2.toNat
  within : ∀ entry ∈ log, 0 < entry.2.toNat ∧ entry.2.toNat + entry.1.width ≤ pool.slotCount

theorem records_empty : Records empty [] where
  slots := rfl
  resolves index constant := by
    have nothing : empty.symbols index = none := by
      rcases Nat.eq_zero_or_pos index.toNat with zero | positive
      · simp [symbols, empty, zero]
      · exact symbols_of_slotCount_le positive
    simp [nothing]
  spaced := .nil
  within := nofun

namespace Records

variable {pool : Pool} {log : List (Constant × UInt16)}

/-- One call more keeps the record, with the constant at its end if it was accepted. -/
theorem call (records : Records pool log) (call : Call) :
    Records (call.run pool).2 (log ++ ((call.run pool).1.map (call.constant, ·)).toList) := by
  obtain ⟨room, index, next, ran, place, slots, table⟩ | ⟨full, ran⟩ := call.run_cases pool
  · rw [ran]
    have free : pool.symbols index = none := symbols_of_slotCount_le (Nat.le_of_eq place.symm)
    refine ⟨?_, ?_, ?_, ?_⟩
    · show next.slotCount = 1 + widths (log ++ [(call.constant, index)])
      rw [slots, records.slots, widths_append]
      simp [widths]
      omega
    · intro other constant
      show next.symbols other = some constant ↔ (constant, other) ∈ log ++ [(call.constant, index)]
      rw [table, List.mem_append, List.mem_singleton, Prod.mk.injEq]
      by_cases same : other = index
      · subst same
        have absent : (constant, other) ∉ log := by
          intro listed
          have := (records.resolves other constant).mpr listed
          rw [free] at this
          cases this
        simp [absent, eq_comm]
      · simp [records.resolves, same]
    · refine List.pairwise_append.mpr ⟨records.spaced, List.pairwise_singleton _ _, ?_⟩
      intro earlier listed later isNew
      obtain rfl : later = (call.constant, index) := List.mem_singleton.mp isNew
      rw [place]
      exact (records.within earlier listed).2
    · intro entry listed
      show 0 < entry.2.toNat ∧ entry.2.toNat + entry.1.width ≤ next.slotCount
      rw [slots]
      rcases List.mem_append.mp listed with old | new
      · have := records.within entry old
        omega
      · obtain rfl : entry = (call.constant, index) := List.mem_singleton.mp new
        have := records.slots
        show 0 < index.toNat ∧ index.toNat + call.constant.width ≤ _
        omega
  · rw [ran]
    simpa using records

theorem after (records : Records pool log) (calls : List Call) :
    Records (pool.after calls) (log ++ accepted pool calls) := by
  induction calls generalizing pool log with
  | nil => simpa [accepted] using records
  | cons call rest ih =>
      have step := ih (records.call call)
      rwa [List.append_assoc] at step

theorem symbols_zero (records : Records pool log) : pool.symbols 0 = none := by
  cases found : pool.symbols 0 with
  | none => rfl
  | some constant =>
      have listed := (records.resolves 0 constant).mp found
      exact absurd (records.within _ listed).1 (Nat.lt_irrefl 0)

theorem distinct (records : Records pool log) : (log.map (·.2)).Nodup := by
  refine List.pairwise_map.mpr (records.spaced.imp ?_)
  intro earlier later apart same
  have wide := earlier.1.width_pos
  rw [same] at apart
  omega

/-- The second slot of a wide constant belongs to no other: one listed before it ends no later than it
begins, and one listed behind it begins no earlier than it ends. -/
theorem symbols_behind_wide (records : Records pool log) {constant : Constant} {index next : UInt16}
    (listed : (constant, index) ∈ log) (two : constant.width = 2)
    (behind : next.toNat = index.toNat + 1) : pool.symbols next = none := by
  cases found : pool.symbols next with
  | none => rfl
  | some other =>
      have otherListed := (records.resolves next other).mp found
      have one := other.width_pos
      obtain ⟨front, back, rfl⟩ := List.append_of_mem listed
      obtain ⟨-, later, before⟩ := List.pairwise_append.mp records.spaced
      rcases List.mem_append.mp otherListed with isBefore | here
      · have := before _ isBefore _ List.mem_cons_self
        simp only at this
        omega
      · rcases List.mem_cons.mp here with same | isLater
        · cases same
          omega
        · have := (List.pairwise_cons.mp later).1 _ isLater
          simp only at this
          omega

end Records

/-! ## What a caller can rely on -/

/-- A new pool after calls made in order, told by the constants it accepted. -/
structure Accounts (calls : List Call) : Prop where
  slots : (empty.after calls).slotCount = 1 + widths (accepted empty calls)
  /-- An index resolves to a constant exactly if an accepted call gave it to that constant. -/
  resolves : ∀ index constant, (empty.after calls).symbols index = some constant ↔
    (constant, index) ∈ accepted empty calls
  /-- An accepted constant begins where the slots of those accepted before it end. -/
  indexed : ∀ (call : Call) (index : UInt16), (call.run (empty.after calls)).1 = some index →
    index.toNat = 1 + widths (accepted empty calls)
  /-- A call is rejected exactly where no index is left. -/
  rejected : ∀ call : Call,
    (call.run (empty.after calls)).1 = none ↔ 65535 < (empty.after calls).slotCount
  unchanged : ∀ call : Call, (call.run (empty.after calls)).1 = none →
    (call.run (empty.after calls)).2 = empty.after calls
  /-- Behind a rejected call, no other is accepted. -/
  closed : ∀ call : Call, (call.run (empty.after calls)).1 = none →
    ∀ (later : List Call) (next : Call),
      (next.run (empty.after (calls ++ call :: later))).1 = none
  zero : (empty.after calls).symbols 0 = none
  behindLong : ∀ (value : Int64) (index next : UInt16),
    (Constant.long value, index) ∈ accepted empty calls → next.toNat = index.toNat + 1 →
      (empty.after calls).symbols next = none
  behindDouble : ∀ (word : UInt64) (index next : UInt16),
    (Constant.double word, index) ∈ accepted empty calls → next.toNat = index.toNat + 1 →
      (empty.after calls).symbols next = none
  distinct : ((accepted empty calls).map (·.2)).Nodup
  /-- An index once given resolves to its constant for the rest of the run. -/
  kept : ∀ (constant : Constant) (index : UInt16), (constant, index) ∈ accepted empty calls →
    ∀ later : List Call, (empty.after (calls ++ later)).symbols index = some constant

/-- **A pool is the record of the calls made on it**: its slots, its table, the next index and whether
there is one follow from the constants accepted so far, after every run of calls on a new pool. -/
theorem accounts_of_calls (calls : List Call) : Accounts calls := by
  have records : Records (empty.after calls) (accepted empty calls) := records_empty.after calls
  refine
    { slots := records.slots
      resolves := records.resolves
      indexed := ?_
      rejected := fun call => call.run_eq_none_iff _
      unchanged := ?_
      closed := ?_
      zero := records.symbols_zero
      behindLong := fun _ _ _ listed => records.symbols_behind_wide listed rfl
      behindDouble := fun _ _ _ listed => records.symbols_behind_wide listed rfl
      distinct := records.distinct
      kept := ?_ }
  · intro call index given
    obtain ⟨-, found, next, ran, place, -⟩ | ⟨-, ran⟩ := call.run_cases (empty.after calls)
    · rw [ran] at given
      cases given
      rw [place, records.slots]
    · rw [ran] at given
      cases given
  · intro call refused
    obtain ⟨-, found, next, ran, -⟩ | ⟨-, ran⟩ := call.run_cases (empty.after calls)
    · rw [ran] at refused
      cases refused
    · rw [ran]
  · intro call refused later next
    have full := (call.run_eq_none_iff _).mp refused
    rw [after_append, after_of_full full]
    exact (next.run_eq_none_iff _).mpr full
  · intro constant index listed later
    rw [after_append]
    exact extends_after _ later index constant ((records.resolves index constant).mpr listed)

/-- Constants of one slot each take as many slots as there are of them, as long as there is room. -/
theorem slotCount_after_replicate {call : Call} (narrow : call.constant.width = 1) (pool : Pool)
    {count : Nat} (room : pool.slotCount + count ≤ 65536) :
    (pool.after (List.replicate count call)).slotCount = pool.slotCount + count := by
  induction count with
  | zero => rfl
  | succ count ih =>
      have before := ih (Nat.le_of_succ_le room)
      rw [List.replicate_succ', after_append]
      obtain ⟨-, index, next, ran, -, slots, -⟩ | ⟨full, -⟩ :=
        call.run_cases (pool.after (List.replicate count call))
      · show (call.run _).2.slotCount = _
        rw [ran, slots, before, narrow, Nat.add_assoc]
      · omega

theorem accepted_append (pool : Pool) (front back : List Call) :
    accepted pool (front ++ back) = accepted pool front ++ accepted (pool.after front) back := by
  induction front generalizing pool with
  | nil => rfl
  | cons call rest ih => rw [List.cons_append, accepted, accepted, ih, after_cons, List.append_assoc]

/-- A long and a double take the slots 1 to 4, the second of each without resolving, and 65531 integers
take the others. The pool is then full: a constant of two slots is rejected and changes nothing, and so
is any after it. -/
theorem full_after_long_and_double :
    let wide := [Call.tryPush (.long 1), Call.push (.double 0)]
    let calls := wide ++ List.replicate 65531 (Call.push (.integer 0))
    let late := Call.tryPush (.long 1)
    accepted empty wide = [(.long 1, 1), (.double 0, 3)] ∧
      (empty.after calls).symbols 1 = some (.long 1) ∧ (empty.after calls).symbols 2 = none ∧
      (empty.after calls).symbols 3 = some (.double 0) ∧ (empty.after calls).symbols 4 = none ∧
      (empty.after calls).slotCount = 65536 ∧ late.run (empty.after calls) = (none, empty.after calls) ∧
      ∀ (later : List Call) (next : Call),
        (next.run (empty.after (calls ++ late :: later))).1 = none := by
  intro wide calls late
  have first : accepted empty wide = [(.long 1, 1), (.double 0, 3)] := rfl
  have slots : (empty.after calls).slotCount = 65536 := by
    have before : (empty.after wide).slotCount = 5 := rfl
    rw [after_append, slotCount_after_replicate rfl _ (by omega), before]
  have listed : ∀ entry ∈ accepted empty wide, entry ∈ accepted empty calls := by
    intro entry isFirst
    rw [accepted_append]
    exact List.mem_append_left _ isFirst
  have accounts := accounts_of_calls calls
  clear_value calls
  have long : (.long 1, 1) ∈ accepted empty calls := listed _ (by simp [first])
  have double : (.double 0, 3) ∈ accepted empty calls := listed _ (by simp [first])
  have refused : (late.run (empty.after calls)).1 = none :=
    (accounts.rejected late).mpr (by rw [slots]; decide)
  exact ⟨first, (accounts.resolves 1 _).mpr long, accounts.behindLong 1 1 2 long rfl,
    (accounts.resolves 3 _).mpr double, accounts.behindDouble 0 3 4 double rfl, slots,
    Prod.ext refused (accounts.unchanged late refused), accounts.closed late refused⟩

end Pool

end Decompiler.ClassFile
