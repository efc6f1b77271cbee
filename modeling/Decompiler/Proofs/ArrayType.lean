/- # Decompiler.Proofs.ArrayType — which arrays of a decoded tree have a type that a descriptor denotes

Types come about in two ways. A descriptor is read as a type, and none is read as an array
of `void`; an array gets the type of its first element with one dimension more, and there
nothing is refused. The two agree as long as no array is made of `void`. But `void` itself
has a descriptor, the type of an enum constant is read from any, and so an array of such
constants has a type that no descriptor denotes (`void_array_decoded`).

Nothing else can go wrong outside of nested annotations, whose names are any text: what
stands at the end of the leftmost way down has a base type with a descriptor
(`Value.base_of_derived`), and dimensions are held at the number that a descriptor can have.
-/
import Decompiler.Proofs.CanonicalTree

namespace Decompiler.ClassFile

set_option autoImplicit false

/-! ## Types with dimensions -/

namespace JavaType

/-- Of `void` there are no arrays, and of any other base type with a descriptor there are all. -/
theorem valid_array_iff {type : JavaType} (isArray : type.dimensions ≠ 0) :
    type.Valid ↔ type.base.Valid ∧ type.base ≠ .void := by
  constructor
  · intro valid
    exact ⟨valid.base, fun isVoid => isArray (valid.void isVoid)⟩
  · rintro ⟨base, solid⟩
    exact ⟨base, fun isVoid => absurd isVoid solid⟩

theorem parse_void_array {type : JavaType} (isArray : type.dimensions ≠ 0)
    (isVoid : type.base = .void) :
    parse type.descriptor = .error (.invalidDescriptor type.descriptor) := by
  obtain ⟨base, dimensions⟩ := type
  obtain rfl : base = .void := isVoid
  have positive : dimensions.toNat ≠ 0 := fun zero => isArray (UInt8.toNat_inj.mp zero)
  have valid : BaseType.void.Valid := trivial
  have unread : ofDescriptor? (descriptor ⟨.void, dimensions⟩) = none := by
    show ofDescriptor? (bracketed dimensions.toNat .void) = none
    rw [ofDescriptor?_bracketed valid]
    exact if_neg fun admitted => positive (admitted.2 rfl)
  rw [parse, unread]

end JavaType

theorem PrimitiveKind.base_type (kind : PrimitiveKind) :
    kind.type.base.Valid ∧ kind.type.base ≠ .void := by
  cases kind with
  | string => exact ⟨⟨by decide, by decide⟩, by decide⟩
  | byte | char | double | float | int | long | short | boolean => exact ⟨trivial, by decide⟩

/-! ## The end of the leftmost way down -/

theorem Value.spine_arrays_pos (type : JavaType) (elements : List Value) :
    0 < (Value.array type elements).spine.arrays := by
  cases elements with
  | nil => exact Nat.one_pos
  | cons first rest => exact Nat.succ_pos _

/-- The type at the top of a spine has a dimension if there is an array on the way. -/
theorem Spine.dimensions_ne_zero {spine : Spine} (some : 0 < spine.arrays) :
    spine.type.dimensions ≠ 0 := by
  have positive (count : Nat) (less : 0 < count) : UInt8.ofNat (min 255 count) ≠ 0 := by
    intro zero
    have small : min 255 count < 256 := by omega
    have count : min 255 count = 0 := by
      rw [← UInt8.toNat_ofNat_of_lt' small, zero]
      rfl
    omega
  obtain ⟨arrays, _ | last⟩ := spine
  · exact positive arrays some
  · exact positive _ (Nat.lt_of_lt_of_le some (Nat.le_add_left ..))

section Derived

variable {symbols : SymbolTable}

/-- The end of the way down stands in bytes of its own, and is no array. -/
theorem Value.spine_last_derived (value : Value) (bytes : List UInt8)
    (derived : ElementGrammar symbols bytes value) :
    ∀ last ∈ value.spine.last,
      (∃ part, ElementGrammar symbols part last) ∧ ∀ type elements, last ≠ .array type elements := by
  induction value using Value.spine.induct generalizing bytes with
  | case1 type => simp [Value.spine]
  | case2 type first rest ih =>
      obtain ⟨payload⟩ := derived
      cases payload with
      | array _ pieces =>
          cases pieces with
          | cons derivedFirst _ => exact ih _ derivedFirst
  | case3 value notEmpty notArray =>
      intro last isLast
      rw [Value.spine.eq_3 value notEmpty notArray] at isLast
      obtain rfl : value = last := Option.some.inj isLast
      refine ⟨⟨bytes, derived⟩, fun type elements same => ?_⟩
      cases elements with
      | nil => exact notEmpty type same
      | cons first rest => exact notArray type first rest same

/-- A value that is neither an array nor an annotation has a base type with a descriptor; it is `void`
only for an enum constant whose type was read as `void`. -/
theorem Value.base_of_derived (value : Value) (bytes : List UInt8)
    (derived : ElementGrammar symbols bytes value)
    (notArray : ∀ type elements, value ≠ .array type elements)
    (notNested : ∀ node, value ≠ .nested node) :
    value.type.base.Valid ∧
      (value.type.base = .void ↔ ∃ name, value = .enumConstant (.ofBase .void) name) := by
  cases value with
  | primitive kind constant =>
      obtain ⟨valid, solid⟩ := kind.base_type
      exact ⟨valid, iff_of_false solid (by simp)⟩
  | classLiteral name =>
      have solid : JavaType.classType.base ≠ .void := by decide
      exact ⟨⟨by decide, by decide⟩, iff_of_false solid (by simp)⟩
  | enumConstant type name =>
      obtain ⟨payload⟩ := derived
      cases payload with
      | enumConstant _ _ denotes =>
          obtain ⟨valid, -⟩ := JavaType.parse_eq_ok_iff.mp denotes
          refine ⟨valid.base, fun isVoid => ⟨name, ?_⟩, ?_⟩
          · obtain ⟨base, dimensions⟩ := type
            obtain rfl : base = .void := isVoid
            obtain rfl : dimensions = 0 := valid.void rfl
            rfl
          · rintro ⟨_, same⟩
            cases same
            rfl
  | array type elements => exact absurd rfl (notArray type elements)
  | nested node => exact absurd rfl (notNested node)

end Derived

/-! ## Decoded trees -/

/-- **An array of a decoded tree has a type that a descriptor denotes, unless the leftmost way down ends
in an enum constant of type `void`.** Then the array is one of `void`, and its descriptor is refused.
Arrays whose way down ends in an annotation are left out, since an annotation's name may be any text. -/
theorem decoded_array_readable_iff (symbols : SymbolTable) (item : Item) (cursor next : Cursor)
    (tree : item.Tree) (decoded : item.decoder symbols cursor = .ok tree next) (type : JavaType)
    (elements : List Value) (member : Value.array type elements ∈ item.values tree)
    (notNested : ∀ node, (Value.array type elements).spine.last ≠ some (.nested node)) :
    (JavaType.parse type.descriptor = .ok type ↔
      ∀ name, (Value.array type elements).spine.last ≠ some (.enumConstant (.ofBase .void) name)) ∧
    ∀ name, (Value.array type elements).spine.last = some (.enumConstant (.ofBase .void) name) →
      type.base = .void ∧
        JavaType.parse type.descriptor = .error (.invalidDescriptor type.descriptor) := by
  obtain ⟨_, -, -, derivedTree⟩ := Item.derived_of_decoded decoded
  obtain ⟨bytes, derived⟩ := Item.values_derived derivedTree member
  have isTop : type = (Value.array type elements).spine.type :=
    Value.type_eq_spine (.array type elements) bytes derived
  have isArray : type.dimensions ≠ 0 := by
    rw [isTop]
    exact Spine.dimensions_ne_zero (Value.spine_arrays_pos type elements)
  have readable : JavaType.parse type.descriptor = .ok type ↔ type.base.Valid ∧ type.base ≠ .void := by
    rw [JavaType.parse_eq_ok_iff, JavaType.valid_array_iff isArray]
    simp
  have ends := Value.spine_last_derived (.array type elements) bytes derived
  generalize (Value.array type elements).spine = spine at isTop notNested ends
  obtain ⟨arrays, _ | last⟩ := spine
  · have base : type.base = .object "java/lang/Object" := by rw [isTop]; rfl
    refine ⟨?_, by simp⟩
    rw [readable, base]
    exact iff_of_true ⟨⟨by decide, by decide⟩, by simp⟩ (by simp)
  · have base : type.base = last.type.base := by rw [isTop]; rfl
    obtain ⟨⟨part, derivedLast⟩, notArray⟩ := ends last rfl
    obtain ⟨valid, void⟩ := Value.base_of_derived last part derivedLast notArray
      fun node same => notNested node (congrArg some same)
    refine ⟨?_, fun name isLast => ?_⟩
    · rw [readable, base, ne_eq, void]
      simp [valid]
    · have isVoid : type.base = .void := base.trans (void.mpr ⟨name, Option.some.inj isLast⟩)
      exact ⟨isVoid, JavaType.parse_void_array isArray isVoid⟩

/-- An array of an empty array and of an array of `void`: what comes first decides, so the outer one has
a type with a descriptor and the second one inside has not. -/
theorem first_element_decides :
    let symbols : SymbolTable := fun index =>
      if index = 1 then some (.text "V") else if index = 2 then some (.text "A") else none
    let inner : Value := .array ⟨.void, 1⟩ [.enumConstant (.ofBase .void) "A"]
    let outer : Value := .array ⟨.object "java/lang/Object", 2⟩ [.array .objectArray [], inner]
    Decoder.element symbols
        (Cursor.start [91, 0, 2, 91, 0, 0, 91, 0, 1, 101, 0, 1, 0, 2]) = .ok outer ⟨14, []⟩ ∧
      JavaType.parse (JavaType.descriptor ⟨.object "java/lang/Object", 2⟩) =
        .ok ⟨.object "java/lang/Object", 2⟩ ∧
      JavaType.parse (JavaType.descriptor ⟨.void, 1⟩) =
        .error (.invalidDescriptor (JavaType.descriptor ⟨.void, 1⟩)) := by
  intro symbols inner outer
  have decoded : Decoder.element symbols
      (Cursor.start [91, 0, 2, 91, 0, 0, 91, 0, 1, 101, 0, 1, 0, 2]) = .ok outer ⟨14, []⟩ := by
    with_unfolding_all rfl
  have isOuter : outer ∈ Item.values .element outer := List.mem_cons_self
  have isInner : inner ∈ Item.values .element outer := by
    show inner ∈ outer :: (.array .objectArray [] :: (inner.values ++ []))
    simp [inner, Value.values]
  have readable := decoded_array_readable_iff symbols .element _ _ outer decoded _ _ isOuter
    (by simp [Value.spine])
  have refused := decoded_array_readable_iff symbols .element _ _ outer decoded _ _ isInner
    (by simp [Value.spine])
  exact ⟨decoded, readable.1.mpr (by simp [Value.spine]), (refused.2 "A" rfl).2⟩

/-- An array of one enum constant of type `void` is decoded, with a type whose descriptor is refused. -/
theorem void_array_decoded :
    let symbols : SymbolTable := fun index =>
      if index = 1 then some (.text "V") else if index = 2 then some (.text "A") else none
    let array : Value := .array ⟨.void, 1⟩ [.enumConstant (.ofBase .void) "A"]
    Decoder.element symbols (Cursor.start [91, 0, 1, 101, 0, 1, 0, 2]) = .ok array ⟨8, []⟩ ∧
      (∀ node, array.spine.last ≠ some (.nested node)) ∧
      JavaType.parse array.type.descriptor = .error (.invalidDescriptor "[V") := by
  intro symbols array
  refine ⟨by with_unfolding_all rfl, by simp [array, Value.spine], ?_⟩
  exact JavaType.parse_void_array (by decide) rfl

end Decompiler.ClassFile
