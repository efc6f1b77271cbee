/- # Decompiler.Proofs.Unification — a match is consistent unification

For targets that answer by requests, the state threaded through a match can be replaced by
a condition on the requests of all aligned nodes, in preorder and rule order: every check
holds, and every value offered for a name after the first equals the first
(`Request.Consistent`). `run_iff_consistent` says that a match succeeds exactly if every
node of the pattern has a target and the requests are consistent, and that the names are
then bound to the first values offered for them. The engine may be any: what earlier
matches left in it plays no part.

The comparison is the target's own `==`, of which nothing is assumed. It is asked with the
first value on its left, and never of a value that is the first for its name.

The proof keeps, for each name, the list of its values so far: the value bound, if there
is one, followed by those still to be offered (`Request.claimed`). Binding a free name
leaves that list as it is.
-/
import Decompiler.Idiom.Request
import Decompiler.Proofs.Alignment
import Decompiler.Proofs.FieldOrder

namespace Decompiler.Idiom

set_option autoImplicit false

variable {V τ : Type}

/-- Every value after the first is equal to the first. -/
def AgreeWithFirst [BEq V] : List V → Prop
  | [] => True
  | first :: later => ∀ value ∈ later, (first == value) = true

/-- No name is bound twice. -/
def Bindings.Distinct (bindings : Bindings V) : Prop :=
  (bindings.entries.map (·.1)).Nodup

theorem Bindings.distinct_unify [BEq V] {bindings : Bindings V} (name : String) (value : V)
    (distinct : bindings.Distinct) : (bindings.unify name value).2.Distinct := by
  unfold unify
  cases free : bindings.get? name with
  | some bound => exact distinct
  | none =>
      have fresh := get?_eq_none_iff.mp free
      rw [Distinct, List.map_append, List.nodup_append]
      refine ⟨distinct, by simp, ?_⟩
      intro other member last isLast
      obtain rfl : last = name := by simpa using isLast
      rintro rfl
      exact fresh member

theorem Bindings.mem_entries_iff {bindings : Bindings V} (distinct : bindings.Distinct)
    {name : String} {value : V} :
    (name, value) ∈ bindings.entries ↔ bindings.get? name = some value := by
  constructor
  · exact lookup_of_mem distinct
  · intro found
    obtain ⟨front, back, split, -⟩ := List.lookup_eq_some_iff.mp found
    simp [split]

namespace Request

/-- The values that requests offer for a name, in order. -/
def offers (name : String) (requests : List (Request V)) : List V :=
  requests.filterMap fun
    | bind other value => if other = name then some value else none
    | check _ => none

/-- Requests that can be met together. -/
structure Consistent [BEq V] (requests : List (Request V)) : Prop where
  checks : ∀ holds, check holds ∈ requests → holds = true
  values : ∀ name, AgreeWithFirst (offers name requests)

/-- The value bound to a name, if there is one, and then those that requests offer for it. -/
def claimed (bindings : Bindings V) (requests : List (Request V)) (name : String) : List V :=
  (bindings.get? name).toList ++ offers name requests

@[simp] theorem offers_nil (name : String) : offers name ([] : List (Request V)) = [] := rfl

@[simp] theorem offers_check (name : String) (holds : Bool) (rest : List (Request V)) :
    offers name (check holds :: rest) = offers name rest := rfl

theorem offers_bind (name other : String) (value : V) (rest : List (Request V)) :
    offers name (bind other value :: rest) =
      if other = name then value :: offers name rest else offers name rest := by
  unfold offers
  split <;> simp_all

variable [BEq V]

/-! ## One offer -/

/-- A free name is bound to the offer, which changes the values of no name. -/
theorem claimed_unify_free {bindings : Bindings V} {name : String}
    (free : bindings.get? name = none) (value : V) (rest : List (Request V)) :
    claimed (bindings.unify name value).2 rest = claimed bindings (bind name value :: rest) := by
  funext other
  simp only [claimed, Bindings.get?_unify, offers_bind]
  by_cases same : other = name
  · subst same
    simp [free]
  · have different : ¬ name = other := fun equal => same equal.symm
    cases bindings.get? other <;> simp [same, different]

/-- A bound name keeps its value, and the offer has to equal it. -/
theorem agree_bind_iff {bindings : Bindings V} {name : String} {bound : V}
    (isBound : bindings.get? name = some bound) (value : V) (rest : List (Request V)) :
    (∀ other, AgreeWithFirst (claimed bindings (bind name value :: rest) other)) ↔
      (bound == value) = true ∧ ∀ other, AgreeWithFirst (claimed bindings rest other) := by
  have atName (requests : List (Request V)) :
      AgreeWithFirst (claimed bindings requests name) ↔
        ∀ offered ∈ offers name requests, (bound == offered) = true := by
    simp [claimed, isBound, AgreeWithFirst]
  have elsewhere (other : String) (different : name ≠ other) :
      claimed bindings (bind name value :: rest) other = claimed bindings rest other := by
    simp [claimed, offers_bind, different]
  constructor
  · intro agree
    have here := (atName _).mp (agree name)
    rw [offers_bind, if_pos rfl, List.forall_mem_cons] at here
    refine ⟨here.1, fun other => ?_⟩
    by_cases same : name = other
    · subst same
      exact (atName rest).mpr here.2
    · rw [← elsewhere other same]
      exact agree other
  · rintro ⟨equal, agree⟩ other
    by_cases same : name = other
    · subst same
      rw [atName, offers_bind, if_pos rfl, List.forall_mem_cons]
      exact ⟨equal, (atName rest).mp (agree name)⟩
    · rw [elsewhere other same]
      exact agree other

/-! ## All requests, in order -/

theorem meetAll_append (front back : List (Request V)) (bindings : Bindings V) :
    meetAll (front ++ back) bindings =
      match meetAll front bindings with
      | (true, next) => meetAll back next
      | (false, next) => (false, next) := by
  induction front generalizing bindings with
  | nil => rfl
  | cons request rest ih =>
      simp only [List.cons_append, meetAll]
      cases request.meet bindings with
      | mk met next =>
          cases met with
          | false => rfl
          | true => exact ih next

theorem meetAll_bind_free {bindings : Bindings V} {name : String}
    (free : bindings.get? name = none) (value : V) (rest : List (Request V)) :
    meetAll (bind name value :: rest) bindings = meetAll rest (bindings.unify name value).2 := by
  have met : (bindings.unify name value).1 = true := by simp [Bindings.unify, free]
  rw [meetAll, meet, ← Prod.eta (bindings.unify name value), met]

theorem meetAll_bind_bound {bindings : Bindings V} {name : String} {bound : V}
    (isBound : bindings.get? name = some bound) (value : V) (rest : List (Request V)) :
    meetAll (bind name value :: rest) bindings =
      if bound == value then meetAll rest bindings else (false, bindings) := by
  have outcome : bindings.unify name value = (bound == value, bindings) := by
    simp [Bindings.unify, isBound]
  rw [meetAll, meet, outcome]
  cases bound == value <;> rfl

/-- Requests are met from given bindings exactly if every check holds and, for every name, the values
bound and offered agree. -/
theorem meetAll_eq_true_iff (requests : List (Request V)) (bindings : Bindings V) :
    (meetAll requests bindings).1 = true ↔
      (∀ holds, check holds ∈ requests → holds = true) ∧
        ∀ name, AgreeWithFirst (claimed bindings requests name) := by
  induction requests generalizing bindings with
  | nil =>
      have single (name : String) : AgreeWithFirst (claimed bindings [] name) := by
        cases bound : bindings.get? name <;> simp [claimed, bound, AgreeWithFirst]
      exact ⟨fun _ => ⟨nofun, single⟩, fun _ => rfl⟩
  | cons request rest ih =>
      cases request with
      | check holds =>
          cases holds with
          | false => simp [meetAll, meet]
          | true => simpa [meetAll, meet, claimed] using ih bindings
      | bind name value =>
          have checks : (∀ holds, check holds ∈ bind name value :: rest → holds = true) ↔
              ∀ holds, check holds ∈ rest → holds = true := by simp
          rw [checks]
          cases bound : bindings.get? name with
          | none => rw [meetAll_bind_free bound, ih, claimed_unify_free bound]
          | some first =>
              rw [meetAll_bind_bound bound, agree_bind_iff bound]
              cases first == value with
              | false => simp
              | true => simpa using ih bindings

theorem meetAll_empty_iff (requests : List (Request V)) :
    (meetAll requests Bindings.empty).1 = true ↔ Consistent requests := by
  rw [meetAll_eq_true_iff]
  exact ⟨fun ⟨checks, values⟩ => ⟨checks, values⟩, fun ⟨checks, values⟩ => ⟨checks, values⟩⟩

/-- Requests that are met bind every name to the first value bound or offered. -/
theorem get?_meetAll (requests : List (Request V)) (bindings : Bindings V)
    (met : (meetAll requests bindings).1 = true) (name : String) :
    (meetAll requests bindings).2.get? name = (claimed bindings requests name).head? := by
  induction requests generalizing bindings with
  | nil => cases bound : bindings.get? name <;> simp [meetAll, claimed, bound]
  | cons request rest ih =>
      cases request with
      | check holds =>
          cases holds with
          | false => simp [meetAll, meet] at met
          | true => exact ih bindings met
      | bind other value =>
          cases bound : bindings.get? other with
          | none =>
              rw [meetAll_bind_free bound] at met ⊢
              rw [ih _ met, claimed_unify_free bound]
          | some first =>
              rw [meetAll_bind_bound bound] at met ⊢
              by_cases equal : (first == value) = true
              · -- The offer is met, but the value bound before it stays the first.
                rw [if_pos equal] at met ⊢
                rw [ih bindings met]
                by_cases same : other = name
                · subst same
                  simp [claimed, bound]
                · simp [claimed, offers_bind, same]
              · rw [if_neg equal] at met
                cases met

/-- What every offer preserves, requests in order preserve, whether they are all met or not. -/
theorem meetAll_preserves {invariant : Bindings V → Prop}
    (step : ∀ bindings name value, invariant bindings → invariant (bindings.unify name value).2)
    (requests : List (Request V)) (bindings : Bindings V) (start : invariant bindings) :
    invariant (meetAll requests bindings).2 := by
  induction requests generalizing bindings with
  | nil => exact start
  | cons request rest ih =>
      have next : invariant (request.meet bindings).2 := by
        cases request with
        | check holds => exact start
        | bind name value => exact step bindings name value start
      rw [meetAll]
      generalize request.meet bindings = outcome at next ⊢
      obtain ⟨met, after⟩ := outcome
      cases met with
      | false => exact next
      | true => exact ih after next

end Request

/-! ## The whole pattern -/

/-- The requests of aligned nodes, node after node. -/
def demanded (requests : NodeKind → List Rule → τ → List (Request V))
    (pairs : List (Node × Option τ)) : List (Request V) :=
  pairs.flatMap fun
    | (node, some target) => requests node.kind node.rules target
    | (_, none) => []

/-- A pass over aligned nodes succeeds exactly if all of them have targets and their requests are met
one after the other, and it leaves the same bindings. -/
theorem visit_eq_true_iff [BEq V] (requests : NodeKind → List Rule → τ → List (Request V))
    (pairs : List (Node × Option τ)) (bindings last : Bindings V) :
    visit (fun node target => Request.meetAll (requests node.kind node.rules target)) pairs bindings
        = (true, last) ↔
      (∀ pair ∈ pairs, pair.2.isSome = true) ∧
        Request.meetAll (demanded requests pairs) bindings = (true, last) := by
  induction pairs generalizing bindings with
  | nil => simp [visit, demanded, Request.meetAll]
  | cons pair rest ih =>
      obtain ⟨node, target⟩ := pair
      cases target with
      | none => simp [visit]
      | some target =>
          have split : demanded requests ((node, some target) :: rest) =
              requests node.kind node.rules target ++ demanded requests rest := rfl
          rw [visit, split, Request.meetAll_append, List.forall_mem_cons]
          generalize Request.meetAll (requests node.kind node.rules target) bindings = outcome
          obtain ⟨met, next⟩ := outcome
          cases met with
          | false => simp
          | true => simpa using ih next

namespace Engine

/-- The nodes of the engine's pattern with their targets. -/
def alignment (engine : Engine V) (childAt : NodeKind → Nat → τ → Option τ) (target : τ) :
    List (Node × Option τ) :=
  engine.pattern.root.aligned (fun node => childAt node.kind) (some target)

variable [BEq V]

/-- The outcome of a match against a target that answers by requests. -/
def outcome (engine : Engine V) (requests : NodeKind → List Rule → τ → List (Request V))
    (childAt : NodeKind → Nat → τ → Option τ) (target : τ) : Bool × Engine V :=
  Id.run (engine.run (View.ofRequests requests childAt) target)

theorem outcome_eq_visit (engine : Engine V)
    (requests : NodeKind → List Rule → τ → List (Request V))
    (childAt : NodeKind → Nat → τ → Option τ) (target : τ) :
    engine.outcome requests childAt target =
      let (matched, bindings) :=
        visit (fun node target => Request.meetAll (requests node.kind node.rules target))
          (engine.alignment childAt target) Bindings.empty
      (matched, { engine with bindings }) := by
  have isStateful : (View.ofRequests requests childAt : View (StateM (Bindings V)) τ) =
      View.stateful (fun node target => Request.meetAll (requests node.kind node.rules target))
        (fun node => childAt node.kind) := rfl
  have matched := View.matchNode_eq_visit
    (fun node target => Request.meetAll (requests node.kind node.rules target))
    (fun node => childAt node.kind) target Bindings.empty engine.pattern.root
  rw [alignment, ← matched, outcome, isStateful]
  rfl

/-- **A match is consistent unification.** Whatever matches an engine has served, and whatever the
target that answers by requests: the match succeeds exactly if every node of the pattern has a target
and the requests of all nodes, in preorder and rule order, are consistent; and then each name is bound
once, to the first value offered for it, and no other name is bound. -/
theorem run_iff_consistent (engine : Engine V)
    (requests : NodeKind → List Rule → τ → List (Request V))
    (childAt : NodeKind → Nat → τ → Option τ) (target : τ) :
    ((engine.outcome requests childAt target).1 = true ↔
      (∀ pair ∈ engine.alignment childAt target, pair.2.isSome = true) ∧
        Request.Consistent (demanded requests (engine.alignment childAt target))) ∧
    ((engine.outcome requests childAt target).1 = true →
      (∀ name, (engine.outcome requests childAt target).2.value? name =
        (Request.offers name (demanded requests (engine.alignment childAt target))).head?) ∧
      (engine.outcome requests childAt target).2.bindings.Distinct) := by
  have passes := visit_eq_true_iff requests (engine.alignment childAt target) Bindings.empty
  have consistent := Request.meetAll_empty_iff (demanded requests (engine.alignment childAt target))
  rw [outcome_eq_visit]
  generalize visit _ (engine.alignment childAt target) _ = result at passes ⊢
  obtain ⟨matched, bindings⟩ := result
  constructor
  · constructor
    · rintro rfl
      obtain ⟨present, met⟩ := (passes bindings).mp rfl
      exact ⟨present, consistent.mp (by rw [met])⟩
    · rintro ⟨present, holds⟩
      have met := consistent.mpr holds
      have passed := (passes _).mpr ⟨present, Prod.ext met rfl⟩
      exact congrArg Prod.fst passed
  · rintro rfl
    obtain ⟨-, met⟩ := (passes bindings).mp rfl
    have final : bindings = (Request.meetAll
        (demanded requests (engine.alignment childAt target)) Bindings.empty).2 := by rw [met]
    constructor
    · intro name
      rw [value?, final]
      exact Request.get?_meetAll _ _ (by rw [met]) name
    · rw [final]
      exact Request.meetAll_preserves (fun _ => Bindings.distinct_unify) _ _ List.nodup_nil

end Engine

end Decompiler.Idiom
