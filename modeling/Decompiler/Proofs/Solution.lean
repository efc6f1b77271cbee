/- # Decompiler.Proofs.Solution — a match solves its requests, in whatever order

Where values are compared by equality, the order in which requests are met plays no part.
An assignment of values to names solves them if every check holds and every value offered
for a name is the one it assigns (`Request.Solves`). Requests are met exactly if some
assignment solves them, and then the names bound are those of the offers, each with its
value (`meetAll_iff_solvable`, `get?_meetAll_iff`): both sides speak of membership alone.

For whole patterns `outcome_eq_true_iff` and `value?_outcome_iff` say the same. So two
patterns can be compared by the requests they make of a target, with no regard to where a
run would stop or which of several offers comes first. Sketches are targets of this sort,
since forms are compared by equality (`Form.equal_iff`).
-/
import Decompiler.Form
import Decompiler.Proofs.Unification

namespace Decompiler

set_option autoImplicit false

/-! ## Forms -/

mutual

theorem Form.equal_iff : ∀ form other : Form, form.equal other = true ↔ form = other
  | .null, other => by cases other <;> simp [Form.equal]
  | .boolean value, other => by cases other <;> simp [Form.equal]
  | .integer value, other => by cases other <;> simp [Form.equal]
  | .decimal negative digits places, other => by cases other <;> simp [Form.equal, and_assoc]
  | .text value, other => by cases other <;> simp [Form.equal]
  | .list items, other => by cases other <;> simp [Form.equal, Form.equalList_iff items]
  | .record fields, other => by cases other <;> simp [Form.equal, Form.equalFields_iff fields]

theorem Form.equalList_iff : ∀ items others : List Form,
    Form.equalList items others = true ↔ items = others
  | [], others => by cases others <;> simp [Form.equalList]
  | form :: rest, others => by
      cases others <;> simp [Form.equalList, Form.equal_iff form, Form.equalList_iff rest]

theorem Form.equalFields_iff : ∀ fields others : List (String × Form),
    Form.equalFields fields others = true ↔ fields = others
  | [], others => by cases others <;> simp [Form.equalFields]
  | field :: rest, others => by
      cases others <;> simp [Form.equalFields, Form.equalField_iff field, Form.equalFields_iff rest]

theorem Form.equalField_iff : ∀ field other : String × Form,
    Form.equalField field other = true ↔ field = other
  | (name, form), (other, content) => by simp [Form.equalField, Form.equal_iff form]

end

instance : LawfulBEq Form where
  rfl {form} := (form.equal_iff form).mpr rfl
  eq_of_beq {form other} := (form.equal_iff other).mp

namespace Idiom

variable {V τ : Type}

/-! ## Requests -/

namespace Request

/-- What a request asks of an assignment of values to names. -/
def SolvedBy (solution : String → Option V) : Request V → Prop
  | check holds => holds = true
  | bind name value => solution name = some value

/-- The assignment meets every request. -/
def Solves (solution : String → Option V) (requests : List (Request V)) : Prop :=
  ∀ request ∈ requests, request.SolvedBy solution

theorem Solves.subset {solution : String → Option V} {requests fewer : List (Request V)}
    (solves : Solves solution requests) (subset : fewer ⊆ requests) : Solves solution fewer :=
  fun request member => solves request (subset member)

theorem mem_offers_iff {name : String} {value : V} {requests : List (Request V)} :
    value ∈ offers name requests ↔ bind name value ∈ requests := by
  induction requests with
  | nil => simp
  | cons request rest ih =>
      cases request with
      | check holds => simp [ih]
      | bind other offered =>
          rw [offers_bind]
          by_cases same : other = name
          · subst same
            simp [ih]
          · have different : ¬ name = other := fun equal => same equal.symm
            simp [same, different, ih]

variable [BEq V] [LawfulBEq V]

theorem agreeWithFirst_iff {values : List V} :
    AgreeWithFirst values ↔ ∀ value ∈ values, values.head? = some value := by
  cases values with
  | nil => simp [AgreeWithFirst]
  | cons first later => simp [AgreeWithFirst]

/-- Consistent requests are solved by the first offers. -/
theorem consistent_iff_solvable {requests : List (Request V)} :
    Consistent requests ↔ ∃ solution, Solves solution requests := by
  constructor
  · rintro ⟨checks, values⟩
    refine ⟨fun name => (offers name requests).head?, fun request member => ?_⟩
    cases request with
    | check holds => exact checks holds member
    | bind name value => exact agreeWithFirst_iff.mp (values name) value (mem_offers_iff.mpr member)
  · rintro ⟨solution, solves⟩
    refine ⟨fun holds member => solves _ member, fun name => ?_⟩
    have same : ∀ value ∈ offers name requests, solution name = some value :=
      fun value member => solves _ (mem_offers_iff.mp member)
    rw [agreeWithFirst_iff]
    intro value member
    cases offered : offers name requests with
    | nil => simp [offered] at member
    | cons first later =>
        have assigned := same first (by simp [offered])
        rw [same value member] at assigned
        exact assigned.symm

theorem meetAll_iff_solvable (requests : List (Request V)) :
    (meetAll requests Bindings.empty).1 = true ↔ ∃ solution, Solves solution requests := by
  rw [meetAll_empty_iff, consistent_iff_solvable]

/-- Requests that are met bind exactly what they offer. -/
theorem get?_meetAll_iff {requests : List (Request V)}
    (met : (meetAll requests Bindings.empty).1 = true) {name : String} {value : V} :
    (meetAll requests Bindings.empty).2.get? name = some value ↔ bind name value ∈ requests := by
  have first := get?_meetAll requests Bindings.empty met name
  have consistent := (meetAll_empty_iff requests).mp met
  simp only [claimed, Bindings.get?_empty, Option.toList_none, List.nil_append] at first
  rw [first, ← mem_offers_iff]
  exact ⟨List.mem_of_head?, agreeWithFirst_iff.mp (consistent.values name) value⟩

end Request

/-! ## Whole patterns -/

theorem mem_demanded_iff {requests : NodeKind → List Rule → τ → List (Request V)}
    {pairs : List (Node × Option τ)} {request : Request V} :
    request ∈ demanded requests pairs ↔
      ∃ node target, (node, some target) ∈ pairs ∧ request ∈ requests node.kind node.rules target := by
  rw [demanded, List.mem_flatMap]
  constructor
  · rintro ⟨⟨node, target⟩, member, asked⟩
    cases target with
    | none => cases asked
    | some target => exact ⟨node, target, member, asked⟩
  · rintro ⟨node, target, member, asked⟩
    exact ⟨(node, some target), member, asked⟩

namespace Engine

/-- All requests of the engine's pattern on a target. -/
def demands (engine : Engine V) (requests : NodeKind → List Rule → τ → List (Request V))
    (childAt : NodeKind → Nat → τ → Option τ) (target : τ) : List (Request V) :=
  demanded requests (engine.alignment childAt target)

/-- Every node of the engine's pattern has a target. -/
def Placed (engine : Engine V) (childAt : NodeKind → Nat → τ → Option τ) (target : τ) : Prop :=
  ∀ pair ∈ engine.alignment childAt target, pair.2.isSome = true

variable [BEq V] {engine : Engine V} {requests : NodeKind → List Rule → τ → List (Request V)}
  {childAt : NodeKind → Nat → τ → Option τ} {target : τ}

/-- A match that succeeds leaves the bindings that meeting all its requests makes. -/
theorem outcome_eq_iff_met {last : Bindings V} :
    engine.outcome requests childAt target = (true, { engine with bindings := last }) ↔
      engine.Placed childAt target ∧
        Request.meetAll (engine.demands requests childAt target) Bindings.empty = (true, last) := by
  rw [Placed, demands, ← visit_eq_true_iff, outcome_eq_visit]
  generalize visit _ (engine.alignment childAt target) _ = result
  obtain ⟨matched, bindings⟩ := result
  simp

theorem exists_outcome_eq (matched : (engine.outcome requests childAt target).1 = true) :
    ∃ last, engine.outcome requests childAt target = (true, { engine with bindings := last }) := by
  rw [outcome_eq_visit] at matched ⊢
  generalize visit _ (engine.alignment childAt target) _ = result at matched ⊢
  obtain ⟨_, last⟩ := result
  obtain rfl := matched
  exact ⟨last, rfl⟩

/-- A match leaves no name bound twice. -/
theorem distinct_outcome (matched : (engine.outcome requests childAt target).1 = true) :
    (engine.outcome requests childAt target).2.bindings.Distinct := by
  obtain ⟨last, ended⟩ := exists_outcome_eq matched
  obtain ⟨-, met⟩ := outcome_eq_iff_met.mp ended
  have distinct : Bindings.Distinct
      (Request.meetAll (engine.demands requests childAt target) Bindings.empty).2 :=
    Request.meetAll_preserves (fun _ => Bindings.distinct_unify) _ _ List.nodup_nil
  rw [met] at distinct
  rw [ended]
  exact distinct

variable [LawfulBEq V]

/-- A match succeeds exactly if every node has a target and some assignment solves all requests. -/
theorem outcome_iff_solvable :
    (engine.outcome requests childAt target).1 = true ↔
      engine.Placed childAt target ∧
        ∃ solution, Request.Solves solution (engine.demands requests childAt target) := by
  rw [← Request.meetAll_iff_solvable]
  constructor
  · intro matched
    obtain ⟨last, ended⟩ := exists_outcome_eq matched
    obtain ⟨placed, met⟩ := outcome_eq_iff_met.mp ended
    exact ⟨placed, by rw [met]⟩
  · rintro ⟨placed, met⟩
    have ended := outcome_eq_iff_met.mpr ⟨placed, Prod.ext met rfl⟩
    rw [ended]

/-- A match that succeeds binds exactly what is offered. -/
theorem value?_outcome_iff (matched : (engine.outcome requests childAt target).1 = true)
    {name : String} {value : V} :
    (engine.outcome requests childAt target).2.value? name = some value ↔
      Request.bind name value ∈ engine.demands requests childAt target := by
  obtain ⟨last, ended⟩ := exists_outcome_eq matched
  obtain ⟨-, met⟩ := outcome_eq_iff_met.mp ended
  have bound : (Request.meetAll (engine.demands requests childAt target) Bindings.empty).2.get? name =
      some value ↔ Request.bind name value ∈ engine.demands requests childAt target :=
    Request.get?_meetAll_iff (by rw [met])
  rw [met] at bound
  rw [ended]
  exact bound

end Engine

end Idiom

end Decompiler
