/- # Decompiler.Idiom.Bindings — the values of variables during a match

The first value a name is offered binds it; every later one is compared with that and
changes nothing. Names stand in the order in which they were bound.
-/

namespace Decompiler.Idiom

set_option autoImplicit false

structure Bindings (V : Type) where
  entries : List (String × V)
deriving Repr

namespace Bindings

variable {V : Type}

def empty : Bindings V := ⟨[]⟩

def get? (bindings : Bindings V) (name : String) : Option V :=
  bindings.entries.lookup name

def size (bindings : Bindings V) : Nat := bindings.entries.length

def isEmpty (bindings : Bindings V) : Bool := bindings.entries.isEmpty

/-- Offers a value for a name: the name is bound to it if it is free, and otherwise the value must
equal the one bound. -/
def unify [BEq V] (bindings : Bindings V) (name : String) (value : V) : Bool × Bindings V :=
  match bindings.get? name with
  | some bound => (bound == value, bindings)
  | none => (true, ⟨bindings.entries ++ [(name, value)]⟩)

@[simp] theorem get?_empty (name : String) : (empty : Bindings V).get? name = none := rfl

theorem get?_eq_none_iff {bindings : Bindings V} {name : String} :
    bindings.get? name = none ↔ name ∉ bindings.entries.map (·.1) := by
  rw [get?, List.lookup_eq_none_iff, List.mem_map]
  constructor
  · rintro free ⟨entry, member, rfl⟩
    simpa using free entry member
  · intro absent entry member
    rw [bne_iff_ne]
    rintro rfl
    exact absent ⟨entry, member, rfl⟩

/-- What a name is bound to after an offer: its own value if it had one, else the offer if it was
made for this name. -/
theorem get?_unify [BEq V] (bindings : Bindings V) (name other : String) (value : V) :
    (bindings.unify name value).2.get? other =
      match bindings.get? other with
      | some bound => some bound
      | none => if other = name then some value else none := by
  unfold unify
  cases free : bindings.get? name with
  | some bound =>
      by_cases same : other = name
      · subst same; simp [free]
      · cases bindings.get? other <;> simp [same]
  | none =>
      simp only [get?, List.lookup_append, List.lookup_cons, List.lookup_nil]
      cases bindings.entries.lookup other with
      | some bound => rfl
      | none =>
          by_cases same : other = name
          · simp [same]
          · simp [same, beq_eq_false_iff_ne.mpr same]

end Bindings

end Decompiler.Idiom
