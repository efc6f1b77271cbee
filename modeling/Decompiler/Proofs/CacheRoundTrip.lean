/- # Decompiler.Proofs.CacheRoundTrip — what is stored comes back

`LawfulCached` says of a type that every value is restored from its stored form, and from
every form alike to that one, so the order in which a record keeps its fields plays no
part. Words, texts, types and target information are lawful without a condition. Floating
constants are not: a NaN is stored as null. So constants, values and annotations come back
if no floating constant is in them (`Value.restore?_alike`), whatever the types of
their arrays: an array's type is stored beside the elements and never derived again.

Values are restored under a bound on the depth of forms. The induction is over the value,
with the bound taken for the form at hand; `Form.Alike.eq_case` and `Form.Alike.fields`
find what the form holds, which is less deep than the form.
-/
import Decompiler.Cache.Annotation
import Decompiler.Proofs.FieldOrder
import Decompiler.Proofs.RoundTrip

namespace Decompiler

set_option autoImplicit false

/-- Values come back from their stored forms, with the fields of records in any order. -/
class LawfulCached (α : Type) [Cached α] : Prop where
  restore?_alike : ∀ {value : α} {form : Form}, (store value).Alike form → restore? form = some value

export LawfulCached (restore?_alike)

theorem read_then {α β : Type} {first : Option α} {next : α → Option β} {found : α} {made : β}
    (reads : first = some found) (makes : next found = some made) : (first >>= next) = some made := by
  rw [reads]
  exact makes

/-! ## Words, texts and lists -/

/-- A number that fits its word is restored to that word. -/
theorem Cached.map_integer? {α : Type} {low high number : Int} {make : Int → α} {value : α}
    (least : low ≤ number) (less : number < high) (back : make number = value) :
    (Cached.integer? low high (.integer number)).map make = some value := by
  rw [Cached.integer?, if_pos ⟨least, less⟩, Option.map_some, back]

instance : LawfulCached UInt8 where
  restore?_alike {value form} alike := by
    have less := value.toNat_lt
    rw [alike.eq_integer]
    exact Cached.map_integer? (by omega) (by omega) (by simp)

instance : LawfulCached UInt16 where
  restore?_alike {value form} alike := by
    have less := value.toNat_lt
    rw [alike.eq_integer]
    exact Cached.map_integer? (by omega) (by omega) (by simp)

instance : LawfulCached Int32 where
  restore?_alike {value form} alike := by
    have least := value.le_toInt
    have less := value.toInt_lt
    rw [alike.eq_integer]
    exact Cached.map_integer? (by omega) (by omega) (by simp)

instance : LawfulCached Int64 where
  restore?_alike {value form} alike := by
    have least := value.le_toInt
    have less := value.toInt_lt
    rw [alike.eq_integer]
    exact Cached.map_integer? (by omega) (by omega) (by simp)

instance : LawfulCached String where
  restore?_alike alike := by
    rw [alike.eq_text]
    rfl

theorem mapM_restore?_alike {α : Type} [Cached α] [LawfulCached α] : ∀ {values : List α}
    {forms : List Form}, Form.AlikeList (values.map store) forms → forms.mapM restore? = some values
  | [], _, .nil => rfl
  | value :: rest, _, .cons first others => by
      simp [restore?_alike first, mapM_restore?_alike others]

instance {α : Type} [Cached α] [LawfulCached α] : LawfulCached (List α) where
  restore?_alike alike := by
    obtain ⟨items, rfl, inside⟩ := alike.eq_list
    exact mapM_restore?_alike inside

end Decompiler

namespace Decompiler.ClassFile

set_option autoImplicit false

/-! ## Types and targets -/

instance : LawfulCached PrimitiveKind where
  restore?_alike {kind form} alike := by
    rw [alike.eq_text]
    cases kind <;> rfl

instance : LawfulCached Target where
  restore?_alike {target form} alike := by
    rw [alike.eq_text]
    cases target <;> rfl

instance : LawfulCached BaseType where
  restore?_alike {base form} alike := by
    cases base with
    | object name =>
        obtain ⟨body, rfl, inside⟩ := alike.eq_case
        exact congrArg (Option.map BaseType.object) (restore?_alike inside)
    | _ =>
        rw [alike.eq_text]
        rfl

instance : LawfulCached JavaType where
  restore?_alike {type form} alike := by
    obtain ⟨contents, given, inside, -⟩ := alike.fields (by simp)
    rcases inside with _ | ⟨base, _ | ⟨dimensions, _ | _⟩⟩
    exact read_then given (read_then (restore?_alike base) (read_then (restore?_alike dimensions) rfl))

instance : LawfulCached LocalVarRange where
  restore?_alike {range form} alike := by
    obtain ⟨contents, given, inside, -⟩ := alike.fields (by simp)
    rcases inside with _ | ⟨startPc, _ | ⟨length, _ | ⟨index, _ | _⟩⟩⟩
    exact read_then given (read_then (restore?_alike startPc)
      (read_then (restore?_alike length) (read_then (restore?_alike index) rfl)))

instance : LawfulCached PathStep where
  restore?_alike {step form} alike := by
    obtain ⟨contents, given, inside, -⟩ := alike.fields (by simp)
    rcases inside with _ | ⟨kind, _ | ⟨argument, _ | _⟩⟩
    exact read_then given (read_then (restore?_alike kind) (read_then (restore?_alike argument) rfl))

/-- A case with one field gives back what was stored in the field. -/
theorem TargetInfo.restoreField?_alike {α : Type} [Cached α] [LawfulCached α] {name : String}
    {value : α} {body : Form} (alike : Form.Alike (.record [(name, store value)]) body) :
    TargetInfo.restoreField? name body = some value := by
  obtain ⟨contents, given, inside, -⟩ := alike.named (by simp)
  rcases inside with _ | ⟨field, _ | _⟩
  exact read_then given (restore?_alike field)

instance : LawfulCached TargetInfo where
  restore?_alike {info form} alike := by
    cases info with
    | empty =>
        rw [alike.eq_text]
        rfl
    | localVar ranges =>
        obtain ⟨body, rfl, inside⟩ := alike.eq_case
        exact read_then rfl (read_then (restore?_alike inside) rfl)
    | typeParameterBound parameter bound =>
        obtain ⟨body, rfl, inside⟩ := alike.eq_case
        obtain ⟨contents, given, inside, -⟩ := inside.named (by simp)
        rcases inside with _ | ⟨parameter, _ | ⟨bound, _ | _⟩⟩
        exact read_then rfl (read_then given
          (read_then (restore?_alike parameter) (read_then (restore?_alike bound) rfl)))
    | typeArgument offset argument =>
        obtain ⟨body, rfl, inside⟩ := alike.eq_case
        obtain ⟨contents, given, inside, -⟩ := inside.named (by simp)
        rcases inside with _ | ⟨offset, _ | ⟨argument, _ | _⟩⟩
        exact read_then rfl (read_then given
          (read_then (restore?_alike offset) (read_then (restore?_alike argument) rfl)))
    | _ =>
        obtain ⟨body, rfl, inside⟩ := alike.eq_case
        exact read_then rfl (read_then (TargetInfo.restoreField?_alike inside) rfl)

/-! ## Constants, values and annotations -/

/-- Neither a float nor a double. -/
def Constant.FloatFree : Constant → Prop
  | .float _ | .double _ => False
  | _ => True

/-- No constant in the value is floating. -/
def Value.FloatFree (value : Value) : Prop :=
  ∀ constant ∈ value.constants, constant.FloatFree

def Annotation.FloatFree (node : Annotation) : Prop :=
  ∀ constant ∈ node.constants, constant.FloatFree

def TypeAnnotation.FloatFree (typed : TypeAnnotation) : Prop :=
  typed.node.FloatFree

theorem Constant.restore?_alike {constant : Constant} {form : Form} (free : constant.FloatFree)
    (alike : (store constant).Alike form) : restore? form = some constant := by
  cases constant with
  | float | double => cases free
  | integer | long | text =>
      obtain ⟨body, rfl, inside⟩ := alike.eq_case
      exact congrArg (Option.map _) (LawfulCached.restore?_alike inside)

open Annotation (restorePair?)

mutual

theorem Value.restoreWithin?_alike : ∀ (value : Value) {form : Form} {depth : Nat},
    value.stored.Alike form → form.depth ≤ depth + 1 → value.FloatFree →
      Value.restoreWithin? (depth + 1) form = some value
  | .primitive kind constant, form, depth, alike, within, free => by
      rw [Value.stored] at alike
      obtain ⟨body, rfl, inside⟩ := alike.eq_case
      obtain ⟨contents, given, inside, -⟩ := inside.named (by simp)
      rcases inside with _ | ⟨kind, _ | ⟨value, _ | _⟩⟩
      have free : constant.FloatFree := free constant (by simp [Value.constants])
      exact read_then rfl (read_then given
        (read_then (restore?_alike kind) (read_then (Constant.restore?_alike free value) rfl)))
  | .classLiteral name, form, depth, alike, within, free => by
      rw [Value.stored] at alike
      obtain ⟨body, rfl, inside⟩ := alike.eq_case
      exact read_then rfl (read_then (restore?_alike inside) rfl)
  | .enumConstant type name, form, depth, alike, within, free => by
      rw [Value.stored] at alike
      obtain ⟨body, rfl, inside⟩ := alike.eq_case
      obtain ⟨contents, given, inside, -⟩ := inside.named (by simp)
      rcases inside with _ | ⟨type, _ | ⟨name, _ | _⟩⟩
      exact read_then rfl (read_then given
        (read_then (restore?_alike type) (read_then (restore?_alike name) rfl)))
  | .array type elements, form, depth, alike, within, free => by
      rw [Value.stored] at alike
      obtain ⟨body, rfl, inside⟩ := alike.eq_case
      have bodyWithin := Form.depth_lt_case "Array" body
      obtain ⟨contents, given, inside, contentsWithin⟩ := inside.named (by simp)
      rcases inside with _ | ⟨type, _ | ⟨listed, _ | _⟩⟩
      obtain ⟨items, rfl, inside⟩ := listed.eq_list
      have itemsWithin : Form.depthList items ≤ depth := by
        simp only [Form.depthList, Form.depth] at contentsWithin
        omega
      have restored := Value.mapM_restoreWithin?_alike elements inside itemsWithin free
      exact read_then rfl (read_then given
        (read_then (restore?_alike type) (read_then restored rfl)))
  | .nested node, form, depth, alike, within, free => by
      rw [Value.stored] at alike
      obtain ⟨body, rfl, inside⟩ := alike.eq_case
      have bodyWithin : body.depth ≤ depth :=
        Nat.le_of_lt_succ (Nat.lt_of_lt_of_le (Form.depth_lt_case "Annotation" body) within)
      have restored := Annotation.restoreOf?_alike node inside bodyWithin free
      exact read_then rfl (read_then restored rfl)

theorem Value.mapM_restoreWithin?_alike : ∀ (values : List Value) {forms : List Form} {depth : Nat},
    Form.AlikeList (Value.storedList values) forms → Form.depthList forms ≤ depth →
      (∀ constant ∈ Value.constantsList values, constant.FloatFree) →
        forms.mapM (Value.restoreWithin? depth) = some values
  | [], _, _, .nil, _, _ => rfl
  | value :: rest, form :: others, depth, .cons first later, within, free => by
      rw [Form.depthList, Nat.max_le] at within
      rw [Value.constantsList, List.forall_mem_append] at free
      obtain ⟨less, rfl⟩ := Form.exists_succ_of_depth_le within.1
      rw [List.mapM_cons]
      have restored := Value.restoreWithin?_alike value first within.1 free.1
      have others := Value.mapM_restoreWithin?_alike rest later within.2 free.2
      exact read_then restored (read_then others rfl)

theorem Annotation.restoreOf?_alike : ∀ (node : Annotation) {form : Form} {depth : Nat},
    node.stored.Alike form → form.depth ≤ depth → node.FloatFree →
      Annotation.restoreOf? (Value.restoreWithin? depth) form = some node
  | ⟨typeName, pairs⟩, form, depth, alike, within, free => by
      unfold Annotation.stored at alike
      obtain ⟨contents, given, inside, contentsWithin⟩ := alike.fields (by simp)
      rcases inside with _ | ⟨typeName, _ | ⟨listed, _ | _⟩⟩
      obtain ⟨items, rfl, inside⟩ := listed.eq_list
      have itemsWithin : Form.depthList items ≤ depth := by
        simp only [Form.depthList, Form.depth] at contentsWithin
        omega
      unfold Annotation.FloatFree Annotation.constants at free
      have restored := Annotation.mapM_restorePair?_alike pairs inside itemsWithin
        (List.forall_mem_cons.mp free).2
      exact read_then given (read_then (restore?_alike typeName) (read_then restored rfl))

theorem Annotation.mapM_restorePair?_alike : ∀ (pairs : List ElementPair) {forms : List Form}
    {depth : Nat}, Form.AlikeList (ElementPair.storedList pairs) forms → Form.depthList forms ≤ depth →
      (∀ constant ∈ ElementPair.constantsList pairs, constant.FloatFree) →
        forms.mapM (restorePair? (Value.restoreWithin? depth)) = some pairs
  | [], _, _, .nil, _, _ => rfl
  | pair :: rest, form :: others, depth, .cons first later, within, free => by
      rw [Form.depthList, Nat.max_le] at within
      rw [ElementPair.constantsList, List.forall_mem_append] at free
      rw [List.mapM_cons]
      have restored := Annotation.restorePair?_alike pair first within.1 free.1
      have others := Annotation.mapM_restorePair?_alike rest later within.2 free.2
      exact read_then restored (read_then others rfl)

theorem Annotation.restorePair?_alike : ∀ (pair : ElementPair) {form : Form} {depth : Nat},
    pair.stored.Alike form → form.depth ≤ depth →
      (∀ constant ∈ pair.constants, constant.FloatFree) →
        restorePair? (Value.restoreWithin? depth) form = some pair
  | ⟨name, value⟩, form, depth, alike, within, free => by
      rw [ElementPair.stored] at alike
      obtain ⟨contents, given, inside, contentsWithin⟩ := alike.fields (by simp)
      rcases inside with _ | ⟨name, _ | ⟨inner, _ | _⟩⟩
      rename_i body
      have bodyWithin : body.depth ≤ depth := by
        simp only [Form.depthList] at contentsWithin
        omega
      rw [ElementPair.constants] at free
      obtain ⟨less, rfl⟩ := Form.exists_succ_of_depth_le bodyWithin
      have restored := Value.restoreWithin?_alike value inner bodyWithin
        (List.forall_mem_cons.mp free).2
      exact read_then given (read_then (restore?_alike name) (read_then restored rfl))

end

theorem Value.restore?_alike {value : Value} {form : Form} (free : value.FloatFree)
    (alike : (store value).Alike form) : restore? form = some value := by
  obtain ⟨less, depth⟩ := Form.exists_succ_of_depth_le (Nat.le_refl form.depth)
  show Value.restoreWithin? form.depth form = some value
  rw [depth]
  exact Value.restoreWithin?_alike value alike (Nat.le_of_eq depth) free

theorem Annotation.restore?_alike {node : Annotation} {form : Form} (free : node.FloatFree)
    (alike : (store node).Alike form) : restore? form = some node :=
  Annotation.restoreOf?_alike node alike (Nat.le_refl form.depth) free

theorem TypeAnnotation.restore?_alike {typed : TypeAnnotation} {form : Form}
    (free : typed.FloatFree) (alike : (store typed).Alike form) : restore? form = some typed := by
  obtain ⟨contents, given, inside, -⟩ := alike.fields (by simp)
  rcases inside with _ | ⟨target, _ | ⟨info, _ | ⟨path, _ | ⟨node, _ | _⟩⟩⟩⟩
  have restored := Annotation.restore?_alike free node
  exact read_then given (read_then (LawfulCached.restore?_alike target)
    (read_then (LawfulCached.restore?_alike info)
      (read_then (LawfulCached.restore?_alike path) (read_then restored rfl))))

/-! ## The whole cache -/

/-- The values of which `admitted` holds come back, also if the fields of records were rearranged,
and no form, rearranged or not, stands for two of them. -/
structure Faithful {α : Type} [Cached α] (admitted : α → Prop) : Prop where
  restored : ∀ value, admitted value → restore? (store value) = some value
  rearranged : ∀ value form, admitted value → (store value).Alike form → restore? form = some value
  apart : ∀ value other form, admitted value → admitted other → (store value).Alike form →
    (store other).Alike form → value = other

theorem faithful_of_alike {α : Type} [Cached α] {admitted : α → Prop}
    (back : ∀ {value : α} {form : Form}, admitted value → (store value).Alike form →
      restore? form = some value) : Faithful admitted where
  restored value holds := back holds (.refl (store value))
  rearranged value form holds alike := back holds alike
  apart value other form holds otherHolds alike otherAlike := by
    have same : some value = some other := (back holds alike).symm.trans (back otherHolds otherAlike)
    exact Option.some.inj same

/-- **What is stored comes back.** Values, annotations, type annotations and constants without
floating constants, and all types, are restored exactly from their stored forms. Nothing else is
asked of them: arrays keep the type they were stored with, and target information comes back whether
or not it fits the target. So no two of them have the same form. -/
theorem cache_faithful :
    Faithful Value.FloatFree ∧ Faithful Annotation.FloatFree ∧ Faithful TypeAnnotation.FloatFree ∧
      Faithful (fun _ : JavaType => True) ∧ Faithful Constant.FloatFree :=
  ⟨faithful_of_alike Value.restore?_alike, faithful_of_alike Annotation.restore?_alike,
    faithful_of_alike TypeAnnotation.restore?_alike,
    faithful_of_alike fun _ => LawfulCached.restore?_alike, faithful_of_alike Constant.restore?_alike⟩

/-- Information that does not fit its target, a path step of no known kind, and an array of arrays
whose types its elements do not give it. -/
theorem misfit_comes_back :
    let odd : Value := .array ⟨.void, 255⟩ [.primitive .byte (.long (-1)), .array ⟨.object "", 0⟩ []]
    let typed : TypeAnnotation := ⟨.field, .typeArgument 65535 255, [⟨9, 200⟩], ⟨"", [⟨";", odd⟩]⟩⟩
    typed.FloatFree ∧ restore? (store typed) = some typed := by
  intro odd typed
  have free : typed.FloatFree := by
    simp [typed, odd, TypeAnnotation.FloatFree, Annotation.FloatFree, ElementPair.constantsList,
      ElementPair.constants, Value.constants, Value.constantsList, Annotation.constants,
      Constant.FloatFree]
  exact ⟨free, cache_faithful.2.2.1.restored typed free⟩

-- A float that is no number does not come back.
example : (restore? (store (Constant.float 0x7FC00000)) : Option Constant) = none := by decide

end Decompiler.ClassFile
