/- # Decompiler.Proofs.Outline — an outline determines its tree

An outline begins with the entry of its root, and that entry says what the root is and how
many trees follow one level deeper. So two trees with the same entries in front are the
same, and what is left behind them is the same too: `Value.outline_append_inj` and its
companions cancel a value, a pair, or lists of them of one length from longer lists of
entries. With nothing left behind, no two trees have the same outline.
-/
import Mathlib.Logic.Function.Basic
import Decompiler.ClassFile.Annotation.Outline

namespace Decompiler.ClassFile

set_option autoImplicit false

namespace Value

/-- The first entry of a value's outline. -/
def entry : Value → OutlineEntry
  | primitive kind constant => .primitive kind constant
  | classLiteral name => .classLiteral name
  | enumConstant type name => .enumConstant type name
  | array type elements => .array type elements.length
  | nested node => .nested node.typeName node.pairs.length

/-- The entries behind the first. -/
def outlineBelow (depth : Nat) : Value → Outline
  | primitive .. | classLiteral _ | enumConstant .. => []
  | array _ elements => outlineList depth elements
  | nested node => ElementPair.outlineList depth node.pairs

theorem outline_eq_cons (depth : Nat) (value : Value) :
    value.outline depth = (depth, value.entry) :: value.outlineBelow (depth + 1) := by
  cases value with
  | nested node => cases node; rfl
  | primitive | classLiteral | enumConstant | array => rfl

theorem entry_eq_of_outline {depth : Nat} {value other : Value} {rest tail : Outline}
    (same : value.outline depth ++ rest = other.outline depth ++ tail) :
    value.entry = other.entry ∧
      value.outlineBelow (depth + 1) ++ rest = other.outlineBelow (depth + 1) ++ tail := by
  rw [outline_eq_cons, outline_eq_cons, List.cons_append, List.cons_append, List.cons.injEq,
    Prod.mk.injEq] at same
  exact ⟨same.1.2, same.2⟩

end Value

mutual

/-- A value can be cancelled from the front of a list of entries. -/
theorem Value.outline_append_inj (depth : Nat) : ∀ (value other : Value) {rest tail : Outline},
    value.outline depth ++ rest = other.outline depth ++ tail → value = other ∧ rest = tail
  | .primitive kind constant, other, _, _, same => by
      obtain ⟨entries, behind⟩ := Value.entry_eq_of_outline same
      cases other with
      | primitive => cases entries; exact ⟨rfl, behind⟩
      | classLiteral | enumConstant | array | nested => cases entries
  | .classLiteral name, other, _, _, same => by
      obtain ⟨entries, behind⟩ := Value.entry_eq_of_outline same
      cases other with
      | classLiteral => cases entries; exact ⟨rfl, behind⟩
      | primitive | enumConstant | array | nested => cases entries
  | .enumConstant type name, other, _, _, same => by
      obtain ⟨entries, behind⟩ := Value.entry_eq_of_outline same
      cases other with
      | enumConstant => cases entries; exact ⟨rfl, behind⟩
      | primitive | classLiteral | array | nested => cases entries
  | .array type elements, other, _, _, same => by
      obtain ⟨entries, behind⟩ := Value.entry_eq_of_outline same
      cases other with
      | array otherType others =>
          obtain ⟨rfl, count⟩ := OutlineEntry.array.inj entries
          obtain ⟨rfl, left⟩ := Value.outlineList_append_inj (depth + 1) elements others count behind
          exact ⟨rfl, left⟩
      | primitive | classLiteral | enumConstant | nested => cases entries
  | .nested ⟨typeName, pairs⟩, other, _, _, same => by
      obtain ⟨entries, behind⟩ := Value.entry_eq_of_outline same
      cases other with
      | nested other =>
          obtain ⟨otherName, others⟩ := other
          obtain ⟨rfl, count⟩ := OutlineEntry.nested.inj entries
          obtain ⟨rfl, left⟩ := ElementPair.outlineList_append_inj (depth + 1) pairs others count behind
          exact ⟨rfl, left⟩
      | primitive | classLiteral | enumConstant | array => cases entries
termination_by structural value => value

theorem Value.outlineList_append_inj (depth : Nat) :
    ∀ (values others : List Value) {rest tail : Outline}, values.length = others.length →
      Value.outlineList depth values ++ rest = Value.outlineList depth others ++ tail →
        values = others ∧ rest = tail
  | [], [], _, _, _, same => ⟨rfl, same⟩
  | value :: values, other :: others, _, _, count, same => by
      rw [Value.outlineList, Value.outlineList, List.append_assoc, List.append_assoc] at same
      obtain ⟨rfl, behind⟩ := Value.outline_append_inj depth value other same
      obtain ⟨rfl, left⟩ :=
        Value.outlineList_append_inj depth values others (Nat.succ.inj count) behind
      exact ⟨rfl, left⟩
termination_by structural values => values

theorem ElementPair.outlineList_append_inj (depth : Nat) :
    ∀ (pairs others : List ElementPair) {rest tail : Outline}, pairs.length = others.length →
      ElementPair.outlineList depth pairs ++ rest = ElementPair.outlineList depth others ++ tail →
        pairs = others ∧ rest = tail
  | [], [], _, _, _, same => ⟨rfl, same⟩
  | pair :: pairs, other :: others, _, _, count, same => by
      rw [ElementPair.outlineList, ElementPair.outlineList, List.append_assoc,
        List.append_assoc] at same
      obtain ⟨rfl, behind⟩ := ElementPair.outline_append_inj depth pair other same
      obtain ⟨rfl, left⟩ :=
        ElementPair.outlineList_append_inj depth pairs others (Nat.succ.inj count) behind
      exact ⟨rfl, left⟩
termination_by structural pairs => pairs

theorem ElementPair.outline_append_inj (depth : Nat) :
    ∀ (pair other : ElementPair) {rest tail : Outline},
      pair.outline depth ++ rest = other.outline depth ++ tail → pair = other ∧ rest = tail
  | ⟨name, value⟩, ⟨otherName, other⟩, _, _, same => by
      rw [ElementPair.outline, ElementPair.outline, List.cons_append, List.cons_append,
        List.cons.injEq, Prod.mk.injEq] at same
      obtain ⟨⟨-, entries⟩, behind⟩ := same
      cases entries
      obtain ⟨rfl, left⟩ := Value.outline_append_inj depth value other behind
      exact ⟨rfl, left⟩
termination_by structural pair => pair

end

/-- **No two values have the same outline.** -/
theorem Value.outline_injective (depth : Nat) : Function.Injective (Value.outline depth) := by
  intro value other same
  have alone : value.outline depth ++ [] = other.outline depth ++ [] := by rw [same]
  exact (Value.outline_append_inj depth value other alone).1

/-- Nor have two annotations: one is outlined as the value that it is. -/
theorem Annotation.outline_injective (depth : Nat) :
    Function.Injective fun node : Annotation => node.outline depth := by
  intro node other same
  have values : (Value.nested node).outline depth = (Value.nested other).outline depth := same
  exact Value.nested.inj (Value.outline_injective depth values)

end Decompiler.ClassFile
