/- # Decompiler.Proofs.BindingHistory — the first offer for a name stays

Bindings change by two calls: a value is offered for a name, or all names are freed.
Whatever calls were made, all that counts is what was offered since the last clear, in
order (`sinceClear`), and of that the first value for each name. `Records bindings log`
ties bindings to such a log: every name has the first value that the log has for it, and
no name stands twice. `Records.offer` carries it over one offer, `records_after` over a
whole run, and `first_offer_stays` is what a caller can rely on.

Nothing is assumed of the comparison of values. A value may differ from itself, as a NaN
does, and is then refused when it is offered again, although it is the value bound; or it
may equal another one, as the two zeros do, and is then accepted without being kept.
-/
import Mathlib.Data.Finset.Card
import Mathlib.Data.List.DropRight
import Decompiler.ClassFile.Constant
import Decompiler.Proofs.Unification

namespace Decompiler.Idiom.Bindings

set_option autoImplicit false

open ClassFile (Constant)

variable {V : Type}

/-! ## Calls -/

/-- A request that may change bindings. -/
inductive Call (V : Type) where
  | offer (name : String) (value : V)
  | clear

/-- What a call offers, if it is an offer. -/
def Call.offered? : Call V → Option (String × V)
  | offer name value => some (name, value)
  | clear => none

/-- What was offered after the last clear, in order. -/
def sinceClear (calls : List (Call V)) : List (String × V) :=
  (calls.rtakeWhile (·.offered?.isSome)).filterMap Call.offered?

/-- The values that a log of offers has for a name, in order. -/
def valuesFor (name : String) (log : List (String × V)) : List V :=
  log.filterMap fun (other, value) => if other = name then some value else none

theorem sinceClear_offer (calls : List (Call V)) (name : String) (value : V) :
    sinceClear (calls ++ [.offer name value]) = sinceClear calls ++ [(name, value)] := by
  rw [sinceClear, List.rtakeWhile_concat_pos _ _ _ rfl, List.filterMap_append]
  rfl

theorem sinceClear_clear (calls : List (Call V)) : sinceClear (calls ++ [.clear]) = [] := by
  rw [sinceClear, List.rtakeWhile_concat_neg _ _ _ Bool.false_ne_true]
  rfl

theorem valuesFor_concat (name other : String) (value : V) (log : List (String × V)) :
    valuesFor name (log ++ [(other, value)]) =
      valuesFor name log ++ if other = name then [value] else [] := by
  rw [valuesFor, List.filterMap_append]
  split <;> simp_all [valuesFor]

theorem valuesFor_eq_nil_iff {name : String} {log : List (String × V)} :
    valuesFor name log = [] ↔ name ∉ log.map (·.1) := by
  rw [valuesFor, List.filterMap_eq_nil_iff, List.mem_map]
  constructor
  · rintro unused ⟨entry, member, rfl⟩
    simpa using unused entry member
  · intro absent entry member
    exact if_neg fun same => absent ⟨entry, member, same⟩

section Run

variable [BEq V]

/-- The answer to a call, none where it has none, and the bindings behind it. -/
def Call.run (bindings : Bindings V) : Call V → Option Bool × Bindings V
  | offer name value => (some (bindings.unify name value).1, (bindings.unify name value).2)
  | clear => (none, empty)

/-- The bindings behind calls made in order. -/
def after (bindings : Bindings V) (calls : List (Call V)) : Bindings V :=
  calls.foldl (fun bindings call => (call.run bindings).2) bindings

/-- The answers to calls made in order. -/
def answers : Bindings V → List (Call V) → List (Option Bool)
  | _, [] => []
  | bindings, call :: rest => (call.run bindings).1 :: answers (call.run bindings).2 rest

theorem after_concat (bindings : Bindings V) (calls : List (Call V)) (call : Call V) :
    bindings.after (calls ++ [call]) = (call.run (bindings.after calls)).2 :=
  List.foldl_concat ..

/-- Each call is answered by the bindings that the calls before it left. -/
theorem getElem?_answers (bindings : Bindings V) (front : List (Call V)) (call : Call V)
    (back : List (Call V)) :
    (bindings.answers (front ++ call :: back))[front.length]? =
      some (call.run (bindings.after front)).1 := by
  induction front generalizing bindings with
  | nil => rfl
  | cons first rest ih => exact ih (first.run bindings).2

/-! ## One offer -/

theorem unify_eq_true_iff (bindings : Bindings V) (name : String) (value : V) :
    (bindings.unify name value).1 = true ↔
      bindings.get? name = none ∨
        ∃ first, bindings.get? name = some first ∧ (first == value) = true := by
  unfold unify
  cases bindings.get? name <;> simp

theorem unify_of_refused {bindings : Bindings V} {name : String} {value : V}
    (refused : (bindings.unify name value).1 = false) :
    (bindings.unify name value).2 = bindings := by
  unfold unify at refused ⊢
  cases bound : bindings.get? name with
  | some first => rfl
  | none => simp [bound] at refused

end Run

/-! ## The record of a run -/

/-- The bindings are the first values in a log of offers. -/
structure Records (bindings : Bindings V) (log : List (String × V)) : Prop where
  bound : ∀ name, bindings.get? name = (valuesFor name log).head?
  distinct : bindings.Distinct

theorem records_empty : Records (empty : Bindings V) [] where
  bound _ := rfl
  distinct := List.nodup_nil

namespace Records

variable {bindings : Bindings V} {log : List (String × V)}

theorem offer [BEq V] (records : Records bindings log) (name : String) (value : V) :
    Records (bindings.unify name value).2 (log ++ [(name, value)]) where
  bound other := by
    rw [get?_unify, records.bound, valuesFor_concat, List.head?_append]
    cases (valuesFor other log).head? with
    | some first => rfl
    | none =>
        by_cases same : other = name
        · simp [same]
        · simp [same, Ne.symm same]
  distinct := distinct_unify name value records.distinct

/-- The names bound are those that offers were made for. -/
theorem mem_names_iff (records : Records bindings log) (name : String) :
    name ∈ bindings.entries.map (·.1) ↔ name ∈ log.map (·.1) := by
  rw [← not_iff_not, ← get?_eq_none_iff, records.bound, List.head?_eq_none_iff,
    valuesFor_eq_nil_iff]

theorem size (records : Records bindings log) :
    bindings.size = (log.map (·.1)).toFinset.card := by
  have names : (bindings.entries.map (·.1)).toFinset = (log.map (·.1)).toFinset := by
    ext name
    simp only [List.mem_toFinset, records.mem_names_iff]
  rw [← names, List.toFinset_card_of_nodup records.distinct, List.length_map]
  rfl

end Records

variable [BEq V]

theorem records_after (calls : List (Call V)) :
    Records ((empty : Bindings V).after calls) (sinceClear calls) := by
  -- The last call either adds to the log or empties it, so the induction is from the right.
  induction calls using List.reverseRecOn with
  | nil => exact records_empty
  | append_singleton calls call ih =>
      rw [after_concat]
      cases call with
      | offer name value =>
          rw [sinceClear_offer]
          exact ih.offer name value
      | clear =>
          rw [sinceClear_clear]
          exact records_empty

/-! ## What a caller can rely on -/

/-- Bindings after calls made in order, from none, told by the offers since the last clear. -/
structure FirstOffers (calls : List (Call V)) : Prop where
  bound : ∀ name,
    ((empty : Bindings V).after calls).get? name = (valuesFor name (sinceClear calls)).head?
  size : ((empty : Bindings V).after calls).size = ((sinceClear calls).map (·.1)).toFinset.card
  /-- Each name is listed once, with the first value offered for it. -/
  once : (((empty : Bindings V).after calls).entries.map (·.1)).Nodup
  listed : ∀ name value, (name, value) ∈ ((empty : Bindings V).after calls).entries ↔
    (valuesFor name (sinceClear calls)).head? = some value
  /-- Every offer of the run was accepted exactly if it was the first for its name since the clear
  before it, or the first one compared equal to it. -/
  answered : ∀ front name value back, calls = front ++ .offer name value :: back →
    ∃ accepted, ((empty : Bindings V).answers calls)[front.length]? = some (some accepted) ∧
      (accepted = true ↔ valuesFor name (sinceClear front) = [] ∨
        ∃ first, (valuesFor name (sinceClear front)).head? = some first ∧ (first == value) = true)
  /-- A refused offer left the bindings as they were. -/
  unchanged : ∀ front name value back, calls = front ++ .offer name value :: back →
    ((empty : Bindings V).answers calls)[front.length]? = some (some false) →
      (empty : Bindings V).after (front ++ [.offer name value]) = empty.after front

/-- **The first offer for a name stays**, over every run of offers and clears and for every way to
compare values: names, values and answers all follow from the first offers since the last clear. -/
theorem first_offer_stays (calls : List (Call V)) : FirstOffers calls := by
  have records := records_after calls
  refine
    { bound := records.bound
      size := records.size
      once := records.distinct
      listed := ?_
      answered := ?_
      unchanged := ?_ }
  · intro name value
    rw [mem_entries_iff records.distinct, records.bound]
  · rintro front name value back rfl
    refine ⟨_, getElem?_answers empty front (.offer name value) back, ?_⟩
    rw [unify_eq_true_iff, (records_after front).bound, List.head?_eq_none_iff]
  · rintro front name value back rfl refused
    rw [getElem?_answers] at refused
    have answer : (((empty : Bindings V).after front).unify name value).1 = false :=
      Option.some.inj (Option.some.inj refused)
    rw [after_concat]
    exact unify_of_refused answer

/-- Constants are compared as numbers. Offered once more, the NaN bound to a name is refused and stays
bound; a negative zero is accepted for the other name, whose positive zero stays. -/
theorem first_floats_stay :
    letI : BEq Constant := ⟨Constant.same⟩
    let nan := Constant.float 0x7FC00000
    let zero := Constant.float 0
    let negative := Constant.float 0x80000000
    let calls : List (Call Constant) :=
      [.offer "x" zero, .clear, .offer "x" nan, .offer "y" zero, .offer "x" nan, .offer "y" negative]
    (empty : Bindings Constant).answers calls =
        [some true, none, some true, some true, some false, some true] ∧
      ((empty : Bindings Constant).after calls).get? "x" = some nan ∧
      ((empty : Bindings Constant).after calls).get? "y" = some zero ∧
      ((empty : Bindings Constant).after calls).size = 2 := by
  let : BEq Constant := ⟨Constant.same⟩
  intro nan zero negative calls
  have stays := first_offer_stays calls
  have since : sinceClear calls = [("x", nan), ("y", zero), ("x", nan), ("y", negative)] := rfl
  refine ⟨by decide, (stays.bound "x").trans ?_, (stays.bound "y").trans ?_, stays.size.trans ?_⟩
  · rw [since]
    rfl
  · rw [since]
    rfl
  · rw [since]
    rfl

end Decompiler.Idiom.Bindings
