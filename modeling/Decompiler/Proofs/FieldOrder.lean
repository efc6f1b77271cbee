/- # Decompiler.Proofs.FieldOrder — forms that differ in the order of fields only

Records are read by name, and what keeps plain data may hand its fields back in another
order than it was given them. `Form.Alike` relates the forms that are the same but for
that order, at any depth. A reader that looks fields up finds in an alike form what it
would find in the form itself (`Alike.eq_case`, `Alike.fields`), provided that no name stands
twice in a record. What is found is less deep than the form, which a reader with a bound
on the depth relies on.
-/
import Mathlib.Data.List.Nodup
import Decompiler.Form

namespace Decompiler

set_option autoImplicit false

/-- In a table without repeated names every entry is found under its name. -/
theorem lookup_of_mem {V : Type} {entries : List (String × V)} {name : String} {value : V}
    (distinct : (entries.map (·.1)).Nodup) (member : (name, value) ∈ entries) :
    entries.lookup name = some value := by
  induction entries with
  | nil => cases member
  | cons entry rest ih =>
      obtain ⟨fresh, distinct⟩ := List.nodup_cons.mp distinct
      rcases List.mem_cons.mp member with rfl | later
      · exact List.lookup_cons_self
      · have present : name ∈ rest.map (·.1) := List.mem_map_of_mem later
        have other : (name == entry.1) = false := by
          rw [beq_eq_false_iff_ne]
          rintro rfl
          exact fresh present
        rw [List.lookup_cons, other]
        exact ih distinct later

namespace Form

mutual

/-- The same data, with the fields of records in any order. -/
inductive Alike : Form → Form → Prop
  | refl (form : Form) : Alike form form
  | list {items others : List Form} : AlikeList items others → Alike (.list items) (.list others)
  | record {fields others rearranged : List (String × Form)} :
      AlikeFields fields others → others.Perm rearranged → Alike (.record fields) (.record rearranged)

inductive AlikeList : List Form → List Form → Prop
  | nil : AlikeList [] []
  | cons {form other : Form} {rest others : List Form} :
      Alike form other → AlikeList rest others → AlikeList (form :: rest) (other :: others)

/-- Field by field, under the same names. -/
inductive AlikeFields : List (String × Form) → List (String × Form) → Prop
  | nil : AlikeFields [] []
  | cons {form other : Form} {rest others : List (String × Form)} (name : String) :
      Alike form other → AlikeFields rest others →
        AlikeFields ((name, form) :: rest) ((name, other) :: others)

end

theorem AlikeList.refl : ∀ forms : List Form, AlikeList forms forms
  | [] => .nil
  | form :: rest => .cons (.refl form) (.refl rest)

theorem AlikeFields.refl : ∀ fields : List (String × Form), AlikeFields fields fields
  | [] => .nil
  | (name, form) :: rest => .cons name (.refl form) (.refl rest)

theorem AlikeFields.names : ∀ {fields others : List (String × Form)}, AlikeFields fields others →
    others.map (·.1) = fields.map (·.1)
  | _, _, .nil => rfl
  | _, _, .cons name _ rest => congrArg (name :: ·) rest.names

theorem AlikeFields.contents : ∀ {fields others : List (String × Form)}, AlikeFields fields others →
    AlikeList (fields.map (·.2)) (others.map (·.2))
  | _, _, .nil => .nil
  | _, _, .cons _ first rest => .cons first rest.contents

/-! ## Forms alike to a given one -/

theorem Alike.eq_text {value : String} {form : Form} (alike : Alike (.text value) form) :
    form = .text value := by
  cases alike
  rfl

theorem Alike.eq_integer {value : Int} {form : Form} (alike : Alike (.integer value) form) :
    form = .integer value := by
  cases alike
  rfl

theorem Alike.eq_list {items : List Form} {form : Form} (alike : Alike (.list items) form) :
    ∃ others, form = .list others ∧ AlikeList items others := by
  cases alike with
  | refl => exact ⟨items, rfl, .refl items⟩
  | list inside => exact ⟨_, rfl, inside⟩

theorem Alike.eq_record {fields : List (String × Form)} {form : Form}
    (alike : Alike (.record fields) form) :
    ∃ others rearranged, form = .record rearranged ∧ AlikeFields fields others ∧
      others.Perm rearranged := by
  cases alike with
  | refl => exact ⟨fields, fields, rfl, .refl fields, .refl fields⟩
  | record inside perm => exact ⟨_, _, rfl, inside, perm⟩

/-! ## Depth -/

theorem exists_succ_of_depth_le {form : Form} {bound : Nat} (within : form.depth ≤ bound) :
    ∃ less, bound = less + 1 := by
  have positive : 0 < form.depth := by cases form <;> simp [depth]
  exact Nat.exists_eq_add_one.mpr (Nat.lt_of_lt_of_le positive within)

theorem depthList_le {bound : Nat} : ∀ {forms : List Form},
    (∀ form ∈ forms, form.depth ≤ bound) → depthList forms ≤ bound
  | [], _ => Nat.zero_le bound
  | form :: rest, each => by
      obtain ⟨first, others⟩ := List.forall_mem_cons.mp each
      rw [depthList]
      exact Nat.max_le.mpr ⟨first, depthList_le others⟩

theorem depth_le_depthFields {name : String} {form : Form} : ∀ {fields : List (String × Form)},
    (name, form) ∈ fields → form.depth ≤ depthFields fields
  | field :: rest, member => by
      rw [depthFields]
      rcases List.mem_cons.mp member with rfl | later
      · exact Nat.le_max_left ..
      · exact Nat.le_trans (depth_le_depthFields later) (Nat.le_max_right ..)

/-! ## What a reader finds -/

/-- A form alike to one written for a case is written for that case. -/
theorem Alike.eq_case {name : String} {body form : Form}
    (alike : Alike (.record [(name, body)]) form) :
    ∃ other, form = .record [(name, other)] ∧ Alike body other := by
  obtain ⟨others, rearranged, rfl, inside, perm⟩ := alike.eq_record
  rcases inside with _ | ⟨_, first, _ | _⟩
  obtain rfl := List.singleton_perm.mp perm
  exact ⟨_, rfl, first⟩

theorem depth_lt_case (name : String) (body : Form) : body.depth < (record [(name, body)]).depth := by
  rw [depth]
  exact Nat.lt_succ_of_le (depth_le_depthFields List.mem_cons_self)

theorem mapM_lookup {table : List (String × Form)} : ∀ {entries : List (String × Form)},
    (∀ entry ∈ entries, table.lookup entry.1 = some entry.2) →
      (entries.map (·.1)).mapM (table.lookup ·) = some (entries.map (·.2))
  | [], _ => rfl
  | entry :: rest, found => by
      obtain ⟨first, others⟩ := List.forall_mem_cons.mp found
      simp [first, mapM_lookup others]

/-- All fields of a record are found in a form alike to it. -/
theorem Alike.named {fields : List (String × Form)} {form : Form}
    (alike : Alike (.record fields) form) (distinct : (fields.map (·.1)).Nodup) :
    ∃ contents, form.named? (fields.map (·.1)) = some contents ∧
      AlikeList (fields.map (·.2)) contents ∧ depthList contents < form.depth := by
  obtain ⟨others, rearranged, rfl, inside, perm⟩ := alike.eq_record
  have distinctNames : (rearranged.map (·.1)).Nodup := by
    rw [← inside.names] at distinct
    exact (perm.map _).nodup distinct
  have found : ∀ entry ∈ others, rearranged.lookup entry.1 = some entry.2 :=
    fun entry member => lookup_of_mem distinctNames (perm.mem_iff.mp member)
  refine ⟨others.map (·.2), ?_, inside.contents, ?_⟩
  · rw [named?, ← inside.names, mapM_lookup found]
  · rw [depth]
    refine Nat.lt_succ_of_le (depthList_le fun content member => ?_)
    obtain ⟨entry, present, rfl⟩ := List.mem_map.mp member
    exact depth_le_depthFields (perm.mem_iff.mp present)

/-- The same where a list of the contents would be accepted too. -/
theorem Alike.fields {fields : List (String × Form)} {form : Form}
    (alike : Alike (.record fields) form) (distinct : (fields.map (·.1)).Nodup) :
    ∃ contents, form.fields? (fields.map (·.1)) = some contents ∧
      AlikeList (fields.map (·.2)) contents ∧ depthList contents < form.depth := by
  obtain ⟨_, rearranged, rfl, -, -⟩ := alike.eq_record
  exact alike.named distinct

end Form

end Decompiler
