/- # Decompiler.Idiom.Rule — rules and the tokens that spell them

```text
rule := property:value | property:parameter:value
```

Without a parameter it is 0. The faults of a token are looked for in the order of
`Rule.parse`, and the first one found is reported.
-/
import Decompiler.Text.Split
import Decompiler.Idiom.Error

namespace Decompiler.Idiom

set_option autoImplicit false

/-- One constraint on a node. -/
structure Rule where
  property : Property
  /-- Which of several occurrences of the property is meant, such as the position of an
  argument. -/
  parameter : UInt32
  value : RuleValue
deriving DecidableEq, Repr

namespace Rule

/-- The fields of a token: the property's name, the parameter if there is one, the value. None of
them is empty. -/
def split? (token : List Char) : Option (List Char × Option (List Char) × List Char) :=
  match Text.fields ':' token with
  | [name, value] => if name ≠ [] ∧ value ≠ [] then some (name, none, value) else none
  | [name, parameter, value] =>
      if name ≠ [] ∧ parameter ≠ [] ∧ value ≠ [] then some (name, some parameter, value) else none
  | _ => none

/-- The parameter that a field denotes. -/
def parseParameter : Option (List Char) → Except RuleFault UInt32
  | none => .ok 0
  | some text =>
      match Text.uint32? text with
      | some parameter => .ok parameter
      | none => .error (.invalidParameter (String.ofList text))

/-- The rule that a token spells on a node of a given kind. -/
def parse (kind : NodeKind) (token : List Char) : Except RuleFault Rule :=
  match split? token with
  | none => .error (.malformed (String.ofList token))
  | some (name, parameter, value) =>
      match Property.ofName? kind (String.ofList name) with
      | none => .error (.unknownProperty kind (String.ofList name))
      | some property => do
          let parameter ← parseParameter parameter
          match property.value? value with
          | none => .error (.invalidValue property (String.ofList value))
          | some value => .ok ⟨property, parameter, value⟩

end Rule

end Decompiler.Idiom
