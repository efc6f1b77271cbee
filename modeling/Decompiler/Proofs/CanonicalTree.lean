/- # Decompiler.Proofs.CanonicalTree — what decoded trees look like at every value

A decoded tree says nothing that a class file cannot say: class literals are keywords or
names that a descriptor can hold, and the type of an enum constant is read back from its
descriptor. Arrays get their types one level at a time, each from its first element, with
the number of dimensions held at 255. `Value.spine` follows first elements down to a value
that is no array, or to an array with nothing in it, and `Spine.type` says what comes out
of all those steps at once: the dimensions at the end and one for each array on the way,
255 at most. `type_eq_spine` has it by induction along the spine.
-/
import Decompiler.Proofs.Descriptor
import Decompiler.Proofs.Item

namespace Decompiler.ClassFile

set_option autoImplicit false

/-! ## The leftmost way down -/

/-- What is met by following first elements: a number of arrays, and then a value that is none,
unless the last of the arrays is empty. -/
structure Spine where
  arrays : Nat
  last : Option Value

def Value.spine : Value → Spine
  | .array _ [] => ⟨1, none⟩
  | .array _ (first :: _) =>
      let below := first.spine
      ⟨below.arrays + 1, below.last⟩
  | value => ⟨0, some value⟩

/-- The type at the top of a spine. -/
def Spine.type : Spine → JavaType
  | ⟨arrays, some last⟩ =>
      ⟨last.type.base, UInt8.ofNat (min 255 (last.type.dimensions.toNat + arrays))⟩
  | ⟨arrays, none⟩ => ⟨.object "java/lang/Object", UInt8.ofNat (min 255 arrays)⟩

theorem JavaType.arrayOf_saturated (base : BaseType) (dimensions : Nat) :
    arrayOf ⟨base, UInt8.ofNat (min 255 dimensions)⟩ =
      ⟨base, UInt8.ofNat (min 255 (dimensions + 1))⟩ := by
  unfold arrayOf
  by_cases full : 255 ≤ dimensions
  · rw [Nat.min_eq_left full, Nat.min_eq_left (Nat.le_succ_of_le full)]
    rfl
  · have small : min 255 dimensions = dimensions := Nat.min_eq_right (by omega)
    have next : min 255 (dimensions + 1) = dimensions + 1 := Nat.min_eq_right (by omega)
    have fits : dimensions < 256 := by omega
    have room : UInt8.ofNat dimensions ≠ 255 := by
      intro same
      have count : dimensions = 255 := by
        rw [← UInt8.toNat_ofNat_of_lt' fits, same]
        rfl
      exact full (Nat.le_of_eq count.symm)
    rw [small, next]
    simp only [if_neg room, UInt8.ofNat_add]
    rfl

/-- One array more on the way is one dimension more, up to 255. -/
theorem Spine.type_succ (arrays : Nat) (last : Option Value) :
    Spine.type ⟨arrays + 1, last⟩ = (Spine.type ⟨arrays, last⟩).arrayOf := by
  cases last with
  | none => rw [type, type, JavaType.arrayOf_saturated]
  | some last => rw [type, type, JavaType.arrayOf_saturated, Nat.add_assoc]

/-- No dimension is lost where there is no array on the way. -/
theorem Spine.type_zero (last : Value) : Spine.type ⟨0, some last⟩ = last.type := by
  have small : last.type.dimensions.toNat ≤ 255 := Nat.le_of_lt_succ last.type.dimensions.toNat_lt
  rw [type, Nat.add_zero, Nat.min_eq_right small, UInt8.ofNat_toNat]

section Derived

variable {symbols : SymbolTable}

/-- The type of a value that stands in some bytes is the one at the top of its spine. -/
theorem Value.type_eq_spine (value : Value) (bytes : List UInt8)
    (derived : ElementGrammar symbols bytes value) : value.type = value.spine.type := by
  -- Along first elements only: the elements behind the first have no say in an array's type.
  induction value using Value.spine.induct generalizing bytes with
  | case1 type =>
      obtain ⟨payload⟩ := derived
      cases payload with
      | array => rfl
  | case2 type first rest ih =>
      obtain ⟨payload⟩ := derived
      cases payload with
      | array _ pieces =>
          cases pieces with
          | cons derivedFirst _ =>
              show first.type.arrayOf = _
              rw [ih _ derivedFirst, Value.spine, Spine.type_succ]
  | case3 value notEmpty notArray =>
      rw [Value.spine.eq_3 value notEmpty notArray, Spine.type_zero]

/-! ## One value -/

/-- What can be said of a decoded value: a class literal is a keyword or a name that a descriptor can
hold, the type of an enum constant is read back from its descriptor, and the type of an array follows
from its spine. -/
def Value.Canonical : Value → Prop
  | .primitive _ _ => True
  | .classLiteral name =>
      name ∈ ["byte", "char", "double", "float", "int", "long", "short", "boolean", "void"] ∨
        (name ≠ "" ∧ ';' ∉ name.toList)
  | .enumConstant type _ => JavaType.parse type.descriptor = .ok type
  | .array type elements => type = (Value.array type elements).spine.type
  | .nested _ => True

theorem BaseType.Valid.reflectiveName {base : BaseType} (valid : base.Valid) :
    (Value.classLiteral base.reflectiveName).Canonical := by
  cases base with
  | object name => exact .inr valid
  | byte | char | double | float | int | long | short | boolean | void =>
      exact .inl (by simp [BaseType.reflectiveName])

theorem Value.canonical_of_derived (value : Value) (bytes : List UInt8)
    (derived : ElementGrammar symbols bytes value) : value.Canonical := by
  cases value with
  | primitive | nested => trivial
  | array type elements => exact Value.type_eq_spine (.array type elements) bytes derived
  | classLiteral name =>
      obtain ⟨payload⟩ := derived
      cases payload with
      | classLiteral _ denotes =>
          obtain ⟨valid, -⟩ := JavaType.parse_eq_ok_iff.mp denotes
          exact valid.base.reflectiveName
  | enumConstant type name =>
      obtain ⟨payload⟩ := derived
      cases payload with
      | enumConstant _ _ denotes =>
          obtain ⟨valid, -⟩ := JavaType.parse_eq_ok_iff.mp denotes
          exact JavaType.parse_descriptor valid

end Derived

/-- **Decoded trees are canonical at every value**, whatever the symbol table, the bytes and the item
that was asked for. -/
theorem decoded_canonical (symbols : SymbolTable) (item : Item) (cursor next : Cursor)
    (tree : item.Tree) (decoded : item.decoder symbols cursor = .ok tree next) :
    ∀ value ∈ item.values tree, value.Canonical := by
  intro value member
  obtain ⟨_, -, -, derived⟩ := Item.derived_of_decoded decoded
  obtain ⟨bytes, derivedValue⟩ := Item.values_derived derived member
  exact Value.canonical_of_derived value bytes derivedValue

/-- Two arrays around a constant whose type has 254 dimensions already: the inner one takes the last
dimension, and the outer one stays at 255. -/
theorem saturated_arrays_canonical :
    let symbols : SymbolTable := fun index =>
      if index = 1 then some (.text (JavaType.descriptor ⟨.int, 254⟩))
      else if index = 2 then some (.text "A") else some (.text "V")
    let inner : Value := .array ⟨.int, 255⟩ [.enumConstant ⟨.int, 254⟩ "A"]
    let outer : Value := .array ⟨.int, 255⟩ [inner, .classLiteral "void"]
    Decoder.element symbols
        (Cursor.start [91, 0, 2, 91, 0, 1, 101, 0, 1, 0, 2, 99, 0, 3]) = .ok outer ⟨14, []⟩ ∧
      outer.spine.arrays = 2 ∧ outer.values.length = 4 ∧ ∀ value ∈ outer.values, value.Canonical := by
  intro symbols inner outer
  have constant : ElementGrammar symbols [101, 0, 1, 0, 2] (.enumConstant ⟨.int, 254⟩ "A") := by
    have valid : JavaType.Valid ⟨.int, 254⟩ := ⟨trivial, nofun⟩
    show ElementGrammar symbols (_ :: (wordBytes 1 ++ wordBytes 2)) _
    exact .tagged (.enumConstant ⟨1, rfl, rfl⟩ ⟨2, rfl, rfl⟩ (JavaType.parse_descriptor valid))
  have literal : ElementGrammar symbols [99, 0, 3] (.classLiteral "void") := by
    have valid : JavaType.Valid ⟨.void, 0⟩ := ⟨trivial, fun _ => rfl⟩
    exact .tagged (.classLiteral ⟨3, rfl, rfl⟩ (JavaType.parse_descriptor valid))
  have derivedInner : ElementGrammar symbols [91, 0, 1, 101, 0, 1, 0, 2] inner :=
    .tagged (@PayloadGrammar.array symbols 1 _ _ rfl (.cons constant .nil))
  have derived : ElementGrammar symbols [91, 0, 2, 91, 0, 1, 101, 0, 1, 0, 2, 99, 0, 3] outer :=
    .tagged (@PayloadGrammar.array symbols 2 _ _ rfl (.cons derivedInner (.cons literal .nil)))
  have decoded := (Decoder.recognizes_element symbols 15 0 _ (by decide) outer ⟨14, []⟩).mpr
    ⟨_, [], rfl, rfl, derived⟩
  exact ⟨decoded, rfl, rfl, decoded_canonical symbols .element _ _ outer decoded⟩

end Decompiler.ClassFile
