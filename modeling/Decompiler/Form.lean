/- # Decompiler.Form — plain data

The data that caches hold and that sketches show: null, truth values, whole numbers
of any size, decimal fractions, text, lists and records. A sum type's case is written
as a record with one field, named for the case, or as a text if nothing goes with it.
-/

namespace Decompiler

set_option autoImplicit false

inductive Form where
  | null
  | boolean (value : Bool)
  | integer (value : Int)
  /-- `digits / 10 ^ places`, negated if `negative`. -/
  | decimal (negative : Bool) (digits places : Nat)
  | text (value : String)
  | list (items : List Form)
  | record (fields : List (String × Form))
deriving Inhabited

namespace Form

/-- The case a form is written for and what goes with it. -/
def case? : Form → Option (String × Form)
  | text name => some (name, null)
  | record [field] => some field
  | _ => none

/-- The contents of the named fields of a record, which may have others besides. -/
def named? (names : List String) : Form → Option (List Form)
  | record fields => names.mapM (fields.lookup ·)
  | _ => none

/-- The contents of the named fields of a record, or the items of a list that has just as many. -/
def fields? (names : List String) : Form → Option (List Form)
  | list items => if items.length = names.length then some items else none
  | form => form.named? names

end Form

mutual

/-- The greatest number of forms on a path into the form, itself included. -/
def Form.depth : Form → Nat
  | .list items => Form.depthList items + 1
  | .record fields => Form.depthFields fields + 1
  | _ => 1

def Form.depthList : List Form → Nat
  | [] => 0
  | form :: rest => max form.depth (Form.depthList rest)

def Form.depthFields : List (String × Form) → Nat
  | [] => 0
  | field :: rest => max (Form.depthField field) (Form.depthFields rest)

def Form.depthField : String × Form → Nat
  | (_, form) => form.depth

end

mutual

def Form.equal : Form → Form → Bool
  | .null, .null => true
  | .boolean a, .boolean b => a == b
  | .integer a, .integer b => a == b
  | .decimal s d p, .decimal s' d' p' => s == s' && d == d' && p == p'
  | .text a, .text b => a == b
  | .list items, .list items' => Form.equalList items items'
  | .record fields, .record fields' => Form.equalFields fields fields'
  | _, _ => false

def Form.equalList : List Form → List Form → Bool
  | [], [] => true
  | form :: rest, form' :: rest' => form.equal form' && Form.equalList rest rest'
  | _, _ => false

def Form.equalFields : List (String × Form) → List (String × Form) → Bool
  | [], [] => true
  | field :: rest, field' :: rest' => Form.equalField field field' && Form.equalFields rest rest'
  | _, _ => false

def Form.equalField : String × Form → String × Form → Bool
  | (name, form), (name', form') => name == name' && form.equal form'

end

instance : BEq Form := ⟨Form.equal⟩

end Decompiler
