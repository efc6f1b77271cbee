/- # Decompiler.ClassFile.Constant — the constants a class file's pool can hold

Byte, char, short and boolean values are stored as `integer`, as the class-file
format stores them, and both kinds of text resolve to `text`. Floating constants
are kept as their IEEE 754 words, so no payload is lost; `Constant.same` is the
equality of the numbers those words denote, under which a NaN differs from itself
and the two zeros agree.
-/
import Decompiler.Binary.Format

namespace Decompiler.ClassFile

set_option autoImplicit false

/-- A resolved constant. -/
inductive Constant where
  | integer (value : Int32)
  | float (word : UInt32)
  | long (value : Int64)
  | double (word : UInt64)
  | text (value : String)
deriving DecidableEq, Repr

namespace Constant

/-- The kinds of constant, as diagnoses name them. -/
inductive Kind where
  | integer | float | long | double | text
deriving DecidableEq, Repr

def Kind.name : Kind → String
  | integer => "integer"
  | float => "float"
  | long => "long"
  | double => "double"
  | text => "string"

def kind : Constant → Kind
  | integer _ => .integer
  | float _ => .float
  | long _ => .long
  | double _ => .double
  | text _ => .text

/-- Whether the constant takes two slots of the pool. -/
def isWide : Constant → Bool
  | long _ | double _ => true
  | integer _ | float _ | text _ => false

/-- The number of slots the constant takes. -/
def width : Constant → Nat
  | long _ | double _ => 2
  | integer _ | float _ | text _ => 1

theorem width_eq (constant : Constant) : constant.width = if constant.isWide then 2 else 1 := by
  cases constant <;> rfl

/-- Equal kind and equal value, floating words compared as the numbers they denote. -/
def same : Constant → Constant → Bool
  | integer a, integer b => a == b
  | float a, float b => Binary.Format.single.equal a.toNat b.toNat
  | long a, long b => a == b
  | double a, double b => Binary.Format.double.equal a.toNat b.toNat
  | text a, text b => a == b
  | _, _ => false

end Constant

end Decompiler.ClassFile
