/- # Decompiler.Cache.Basic — storing values as plain data

A type is `Cached` if its values can be stored as forms and restored from them.
Structures are records by field name, cases of a sum are tagged by their name, numbers
must fit the word they are restored to. Restoring is lenient where nothing is lost: a
record may hold further fields, and a structure may be given as the list of its fields
in order. The fields of a case are always given by name.

Floating words are stored as decimals, read back by way of double precision; a word
that is not a finite number is stored as null and does not come back.
-/
import Decompiler.Binary.Shortest
import Decompiler.Binary.Nearest
import Decompiler.Form

namespace Decompiler

set_option autoImplicit false

class Cached (α : Type) where
  store : α → Form
  restore? : Form → Option α

export Cached (store restore?)

namespace Cached

/-- A whole number between two bounds, the upper one excluded. -/
def integer? (low high : Int) : Form → Option Int
  | .integer value => if low ≤ value ∧ value < high then some value else none
  | _ => none

/-- A member of a finite set, by its name. -/
def member? {α : Type} (all : List α) (name : α → String) (form : Form) : Option α :=
  match form.case? with
  | some (tag, .null) => all.find? fun member => name member == tag
  | _ => none

end Cached

instance : Cached UInt8 where
  store value := .integer value.toNat
  restore? form := (Cached.integer? 0 0x100 form).map fun value => UInt8.ofNat value.toNat

instance : Cached UInt16 where
  store value := .integer value.toNat
  restore? form := (Cached.integer? 0 0x10000 form).map fun value => UInt16.ofNat value.toNat

instance : Cached Int32 where
  store value := .integer value.toInt
  restore? form := (Cached.integer? (-0x80000000) 0x80000000 form).map Int32.ofInt

instance : Cached Int64 where
  store value := .integer value.toInt
  restore? form := (Cached.integer? (-0x8000000000000000) 0x8000000000000000 form).map Int64.ofInt

instance : Cached String where
  store := .text
  restore?
    | .text value => some value
    | _ => none

instance {α : Type} [Cached α] : Cached (List α) where
  store values := .list (values.map store)
  restore?
    | .list items => items.mapM restore?
    | _ => none

/-! ## Floating words -/

namespace Binary.Format

/-- The decimal that stands for a word: the shortest one at double precision. -/
def stored (format : Format) (word : Nat) : Form :=
  match format.decode word with
  | .finite negative significand exponent =>
      match double.decode (double.convert (.finite negative significand exponent)) with
      | .finite _ 0 _ => .decimal negative 0 1
      | .finite _ significand exponent =>
          let decimal := double.shortest significand exponent
          .decimal negative (decimal.digits * Nat.pow 10 (decimal.exponent + 1).toNat)
            (max 1 (-decimal.exponent).toNat)
      | _ => .null
  | _ => .null

/-- The word that a number is restored to. Whole numbers of at most 64 bits are rounded once, all
others by way of double precision. -/
def restored? (format : Format) : Form → Option Nat
  | .integer value =>
      if -0x8000000000000000 ≤ value ∧ value < 0x10000000000000000 then
        some (format.nearest (value < 0) value.natAbs 1)
      else
        some (format.convert (double.decode (double.nearest (value < 0) value.natAbs 1)))
  | .decimal negative digits places =>
      some (format.convert (double.decode (double.nearest negative digits (Nat.pow 10 places))))
  | _ => none

end Binary.Format

end Decompiler
