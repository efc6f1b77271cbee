/- # Decompiler.Proofs.RuleGrammar — the tokens that spell rules

`Rule.Spelled kind token rule` is the grammar of rule tokens without the machinery that
reads them. A token has a name, perhaps a parameter, and a value, with colons between them
(`Rule.Fields`). The name is that of a property of the node's kind, the parameter a numeral
below 2³², and what the value may be is the property's matter: a word of its vocabulary, a
signed numeral of 32 bits, or any text (`Property.Denotes`).

Numerals stand on their own: digits denote a number by their places
(`Text.Digits`, through `Nat.ofDigits`), before them there may be a sign, and no two
numbers share a numeral (`Unsigned.unique`, `Signed.unique`). So whether a token is
accepted, and as which rule, depends on the numbers in it and not on how they are spelt.
-/
import Mathlib.Data.Nat.Digits.Defs
import Mathlib.Data.List.Induction
import Decompiler.Proofs.PatternTyping

namespace Decompiler

set_option autoImplicit false

/-! ## Numerals -/

namespace Text

/-- A row of ASCII digits, and the number that it denotes in decimal. -/
structure Digits (text : List Char) (number : Nat) : Prop where
  nonempty : text ≠ []
  digits : ∀ c ∈ text, '0' ≤ c ∧ c ≤ '9'
  value : number = Nat.ofDigits 10 (text.reverse.map fun c => c.toNat - '0'.toNat)

/-- Digits, perhaps behind a plus sign. -/
inductive Unsigned : List Char → Nat → Prop
  | plain {text : List Char} {number : Nat} (digits : Digits text number) : Unsigned text number
  | plus {text : List Char} {number : Nat} (digits : Digits text number) :
      Unsigned ('+' :: text) number

/-- Digits, perhaps behind a sign. -/
inductive Signed : List Char → Int → Prop
  | unsigned {text : List Char} {number : Nat} (numeral : Unsigned text number) :
      Signed text number
  | minus {text : List Char} {number : Nat} (digits : Digits text number) :
      Signed ('-' :: text) (-number)

theorem isDigit_iff (c : Char) : c.isDigit = true ↔ '0' ≤ c ∧ c ≤ '9' := by
  simp [Char.isDigit, Char.le_def]

/-- Reading digits from the left adds them up by their places. -/
theorem foldl_digits (text : List Char) :
    text.foldl (fun value c => 10 * value + (c.toNat - '0'.toNat)) 0 =
      Nat.ofDigits 10 (text.reverse.map fun c => c.toNat - '0'.toNat) := by
  induction text using List.reverseRecOn with
  | nil => rfl
  | append_singleton front last ih =>
      rw [List.foldl_append, ih, List.reverse_append, List.reverse_singleton, List.singleton_append,
        List.map_cons, Nat.ofDigits_cons, Nat.add_comm]
      rfl

theorem digits?_eq_some_iff (text : List Char) (number : Nat) :
    digits? text = some number ↔ Digits text number := by
  have digits : text.all Char.isDigit = true ↔ ∀ c ∈ text, '0' ≤ c ∧ c ≤ '9' := by
    simp [List.all_eq_true, isDigit_iff]
  rw [digits?, Option.ite_none_right_eq_some, Option.some.injEq, foldl_digits, digits]
  constructor
  · rintro ⟨⟨nonempty, digits⟩, value⟩
    exact ⟨nonempty, digits, value.symm⟩
  · rintro ⟨nonempty, digits, value⟩
    exact ⟨⟨nonempty, digits⟩, value.symm⟩

/-- Zeros before the digits change nothing. -/
theorem Digits.leadingZeros {text : List Char} {number : Nat} (digits : Digits text number)
    (zeros : Nat) : Digits (List.replicate zeros '0' ++ text) number where
  nonempty := List.append_ne_nil_of_right_ne_nil _ digits.nonempty
  digits c member := by
    rcases List.mem_append.mp member with inZeros | inText
    · rw [List.eq_of_mem_replicate inZeros]
      decide
    · exact digits.digits c inText
  value := by
    have zero : '0'.toNat - '0'.toNat = 0 := rfl
    rw [List.reverse_append, List.reverse_replicate, List.map_append, List.map_replicate, zero,
      Nat.ofDigits_append_replicate_zero]
    exact digits.value

/-- No sign is a digit. -/
theorem Digits.head_ne {text : List Char} {number : Nat} {sign : Char}
    (digits : Digits (sign :: text) number) : sign ≠ '+' ∧ sign ≠ '-' := by
  have range := digits.digits sign List.mem_cons_self
  constructor <;> rintro rfl <;> exact absurd range (by decide)

theorem unsigned?_eq_some_iff (text : List Char) (number : Nat) :
    unsigned? text = some number ↔ Unsigned text number := by
  unfold unsigned?
  split
  · rw [digits?_eq_some_iff]
    constructor
    · exact .plus
    · intro numeral
      cases numeral with
      | plain digits => exact absurd rfl digits.head_ne.1
      | plus digits => exact digits
  · next unsignedText =>
      rw [digits?_eq_some_iff]
      constructor
      · exact .plain
      · intro numeral
        cases numeral with
        | plain digits => exact digits
        | plus digits => exact absurd rfl (unsignedText _)

theorem signed?_eq_some_iff (text : List Char) (number : Int) :
    signed? text = some number ↔ Signed text number := by
  unfold signed?
  split
  · next rest =>
      constructor
      · intro read
        cases found : digits? rest with
        | none => simp [found] at read
        | some size =>
            obtain rfl : -(size : Int) = number := by simpa [found] using read
            exact .minus ((digits?_eq_some_iff ..).mp found)
      · intro numeral
        cases numeral with
        | unsigned numeral =>
            cases numeral with
            | plain digits => exact absurd rfl digits.head_ne.2
        | minus digits => simp [(digits?_eq_some_iff ..).mpr digits]
  · next notMinus =>
      constructor
      · intro read
        cases found : unsigned? text with
        | none => simp [found] at read
        | some size =>
            obtain rfl : (size : Int) = number := by simpa [found] using read
            exact .unsigned ((unsigned?_eq_some_iff ..).mp found)
      · intro numeral
        cases numeral with
        | unsigned numeral => simp [(unsigned?_eq_some_iff ..).mpr numeral]
        | minus digits => exact absurd rfl (notMinus _)

theorem Unsigned.unique {text : List Char} {number other : Nat} (numeral : Unsigned text number)
    (second : Unsigned text other) : number = other := by
  rw [← unsigned?_eq_some_iff] at numeral second
  exact Option.some.inj (numeral.symm.trans second)

theorem Signed.unique {text : List Char} {number other : Int} (numeral : Signed text number)
    (second : Signed text other) : number = other := by
  rw [← signed?_eq_some_iff] at numeral second
  exact Option.some.inj (numeral.symm.trans second)

theorem uint32?_eq_some_iff (text : List Char) (word : UInt32) :
    uint32? text = some word ↔
      ∃ number, Unsigned text number ∧ number ≤ 4294967295 ∧ word = UInt32.ofNat number := by
  simp only [← unsigned?_eq_some_iff, uint32?]
  cases unsigned? text with
  | none => simp
  | some number =>
      simp only [Option.ite_none_right_eq_some, Option.some.injEq, exists_eq_left']
      exact and_congr (by omega) eq_comm

theorem int32?_eq_some_iff (text : List Char) (word : Int32) :
    int32? text = some word ↔
      ∃ number, Signed text number ∧ (-2147483648 ≤ number ∧ number ≤ 2147483647) ∧
        word = Int32.ofInt number := by
  simp only [← signed?_eq_some_iff, int32?]
  cases signed? text with
  | none => simp
  | some number =>
      simp only [Option.ite_none_right_eq_some, Option.some.injEq, exists_eq_left']
      exact and_congr (by omega) eq_comm

/-- A numeral has no colon in it, and is not empty. -/
theorem Signed.ne_nil_and_no_colon {text : List Char} {number : Int} (numeral : Signed text number) :
    text ≠ [] ∧ ':' ∉ text := by
  have noColon {text : List Char} {number : Nat} (digits : Digits text number) : ':' ∉ text :=
    fun member => absurd (digits.digits ':' member) (by decide)
  cases numeral with
  | unsigned numeral =>
      cases numeral with
      | plain digits => exact ⟨digits.nonempty, noColon digits⟩
      | plus digits => exact ⟨by simp, by simp [noColon digits]⟩
  | minus digits => exact ⟨by simp, by simp [noColon digits]⟩

end Text

/-! ## Values and parameters -/

namespace Idiom

/-- The text is a word of the vocabulary, kept as one case of value. -/
def Vocabulary.Spells {α : Type} [Vocabulary α] (keep : α → RuleValue) (text : List Char)
    (value : RuleValue) : Prop :=
  ∃ member : α, text = (name member).toList ∧ value = keep member

/-- Any text: a variable between two `$`, or itself. -/
inductive RuleValue.FreeText : List Char → RuleValue → Prop
  | var {name : List Char} (nonempty : name ≠ []) :
      FreeText ('$' :: (name ++ ['$'])) (.var (String.ofList name))
  | literal {text : List Char} (notVar : ∀ name, name ≠ [] → text ≠ '$' :: (name ++ ['$'])) :
      FreeText text (.literal (String.ofList text))

/-- What a text denotes as a value of the property. -/
def Property.Denotes (property : Property) (text : List Char) (value : RuleValue) : Prop :=
  match property with
  | statementType => Vocabulary.Spells .statementType text value
  | statementIfType => Vocabulary.Spells .ifType text value
  | exprType => Vocabulary.Spells .exprType text value
  | exprFuncType => Vocabulary.Spells .functionType text value
  | exprExitType => Vocabulary.Spells .exitType text value
  | exprConstType => Vocabulary.Spells .constType text value
  | statementStatSize | statementExprSize =>
      ∃ number, Text.Signed text number ∧ (-2147483648 ≤ number ∧ number ≤ 2147483647) ∧
        value = .size (Int32.ofInt number)
  | statementRet | statementPosition | exprRet | exprPosition | exprConstValue | invocationClass
  | invocationSignature | invocationParameter | varIndex | fieldName =>
      RuleValue.FreeText text value

theorem Vocabulary.ofName?_eq_some_iff {α : Type} [Vocabulary α] [Vocabulary.Lawful α] (text : String)
    (member : α) : ofName? text = some member ↔ name member = text := by
  constructor
  · intro found
    simpa using List.find?_some found
  · rintro rfl
    exact Lawful.ofName?_name member

theorem Vocabulary.map_ofName?_eq_some_iff {α : Type} [Vocabulary α] [Vocabulary.Lawful α]
    (keep : α → RuleValue) (text : List Char) (value : RuleValue) :
    (ofName? (String.ofList text)).map keep = some value ↔ Spells keep text value := by
  simp only [Option.map_eq_some_iff, ofName?_eq_some_iff, Spells]
  refine exists_congr fun member => and_congr ?_ eq_comm
  rw [← String.toList_inj, String.toList_ofList, eq_comm]

theorem RuleValue.ofFreeText_eq_iff (text : List Char) (value : RuleValue) :
    ofFreeText text = value ↔ FreeText text value := by
  constructor
  · rintro rfl
    unfold ofFreeText
    cases found : variableName? text with
    | some name =>
        obtain ⟨nonempty, rfl⟩ := variableName?_eq_some found
        exact .var nonempty
    | none =>
        refine .literal fun name nonempty same => ?_
        rw [same, variableName?_var name nonempty] at found
        cases found
  · intro free
    cases free with
    | @var name nonempty => rw [ofFreeText, variableName?_var name nonempty]
    | literal notVar =>
        have none : variableName? text = none := by
          cases found : variableName? text with
          | none => rfl
          | some name =>
              obtain ⟨nonempty, same⟩ := variableName?_eq_some found
              exact absurd same (notVar name nonempty)
        rw [ofFreeText, none]

theorem Property.value?_eq_some_iff (property : Property) (text : List Char) (value : RuleValue) :
    property.value? text = some value ↔ property.Denotes text value := by
  cases property with
  | statementType | statementIfType | exprType | exprFuncType | exprExitType | exprConstType =>
      exact Vocabulary.map_ofName?_eq_some_iff _ text value
  | statementStatSize | statementExprSize =>
      show (Text.int32? text).map RuleValue.size = some value ↔ _
      simp only [Option.map_eq_some_iff, Text.int32?_eq_some_iff, Denotes]
      constructor
      · rintro ⟨word, ⟨number, numeral, range, rfl⟩, rfl⟩
        exact ⟨number, numeral, range, rfl⟩
      · rintro ⟨number, numeral, range, rfl⟩
        exact ⟨_, ⟨number, numeral, range, rfl⟩, rfl⟩
  | statementRet | statementPosition | exprRet | exprPosition | exprConstValue | invocationClass
  | invocationSignature | invocationParameter | varIndex | fieldName =>
      show some (RuleValue.ofFreeText text) = some value ↔ _
      rw [Option.some.injEq]
      exact RuleValue.ofFreeText_eq_iff text value

/-! ## Tokens -/

namespace Rule

/-- The parameter that a token has: 0 if there is none, and otherwise what its numeral denotes. -/
inductive ParameterDenotes : Option (List Char) → UInt32 → Prop
  | absent : ParameterDenotes none 0
  | present {text : List Char} {number : Nat} (numeral : Text.Unsigned text number)
      (small : number ≤ 4294967295) : ParameterDenotes (some text) (UInt32.ofNat number)

/-- The token spells the rule, on a node of that kind. -/
inductive Spelled (kind : NodeKind) (token : List Char) (rule : Rule) : Prop
  | fields {name value : List Char} {parameter : Option (List Char)}
      (fields : Fields token name parameter value)
      (nodeKind : rule.property.nodeKind = kind)
      (isName : rule.property.name = String.ofList name)
      (isParameter : ParameterDenotes parameter rule.parameter)
      (isValue : rule.property.Denotes value rule.value)

theorem parseParameter_eq_ok_iff (parameter : Option (List Char)) (word : UInt32) :
    parseParameter parameter = .ok word ↔ ParameterDenotes parameter word := by
  cases parameter with
  | none =>
      constructor
      · rintro ⟨⟩
        exact .absent
      · rintro ⟨⟩
        rfl
  | some text =>
      have read : parseParameter (some text) = .ok word ↔ Text.uint32? text = some word := by
        cases found : Text.uint32? text <;> simp [parseParameter, found]
      rw [read, Text.uint32?_eq_some_iff]
      constructor
      · rintro ⟨number, numeral, small, rfl⟩
        exact .present numeral small
      · intro denotes
        cases denotes with
        | present numeral small => exact ⟨_, numeral, small, rfl⟩

theorem parse_eq_ok_iff (kind : NodeKind) (token : List Char) (rule : Rule) :
    parse kind token = .ok rule ↔ Spelled kind token rule := by
  constructor
  · intro read
    unfold parse at read
    split at read
    · cases read
    · next name parameter text shape =>
        split at read
        · cases read
        · next property known =>
            obtain ⟨word, isParameter, read⟩ := (bind_eq_ok_iff ..).mp read
            split at read
            · cases read
            · next value isValue =>
                cases read
                obtain ⟨nodeKind, isName⟩ := (Property.ofName?_eq_some_iff ..).mp known
                exact .fields ((split?_eq_some_iff ..).mp shape) nodeKind isName
                  ((parseParameter_eq_ok_iff ..).mp isParameter)
                  ((Property.value?_eq_some_iff ..).mp isValue)
  · rintro ⟨fields, nodeKind, isName, isParameter, isValue⟩
    have known := (Property.ofName?_eq_some_iff ..).mpr ⟨nodeKind, isName⟩
    rw [parse, (split?_eq_some_iff ..).mpr fields]
    simp only [known]
    rw [bind_eq_ok_iff]
    refine ⟨rule.parameter, (parseParameter_eq_ok_iff ..).mpr isParameter, ?_⟩
    rw [(Property.value?_eq_some_iff ..).mpr isValue]

/-! ## Other spellings of the same numbers -/

/-- The token with these fields. -/
def joined (name : List Char) : Option (List Char) → List Char → List Char
  | none, value => name ++ ':' :: value
  | some parameter, value => name ++ ':' :: (parameter ++ ':' :: value)

theorem fields_joined_iff {name value : List Char} {parameter : Option (List Char)}
    (nameFree : ':' ∉ name) (parameterFree : ∀ text ∈ parameter, ':' ∉ text) (valueFree : ':' ∉ value)
    (first : List Char) (middle : Option (List Char)) (last : List Char) :
    Fields (joined name parameter value) first middle last ↔
      (name ≠ [] ∧ (∀ text ∈ parameter, text ≠ []) ∧ value ≠ []) ∧
        name = first ∧ parameter = middle ∧ value = last := by
  rw [← split?_eq_some_iff]
  cases parameter with
  | none =>
      have pieces : Text.fields ':' (name ++ ':' :: value) = [name, value] := by
        rw [Text.fields, List.splitOn_append_cons_self_of_not_mem nameFree,
          List.splitOn_eq_singleton valueFree]
      simp [joined, split?, pieces]
  | some parameter =>
      have pieces := Text.fields_three nameFree (parameterFree parameter rfl) valueFree
      simp [joined, split?, pieces]

/-- What a token with these fields spells is said by the fields. -/
theorem spelled_joined_iff (kind : NodeKind) {name value : List Char} {parameter : Option (List Char)}
    (nameFree : ':' ∉ name) (parameterFree : ∀ text ∈ parameter, ':' ∉ text) (valueFree : ':' ∉ value)
    (rule : Rule) :
    Spelled kind (joined name parameter value) rule ↔
      (name ≠ [] ∧ (∀ text ∈ parameter, text ≠ []) ∧ value ≠ []) ∧
        rule.property.nodeKind = kind ∧ rule.property.name = String.ofList name ∧
        ParameterDenotes parameter rule.parameter ∧ rule.property.Denotes value rule.value := by
  constructor
  · rintro ⟨fields, nodeKind, isName, isParameter, isValue⟩
    obtain ⟨whole, rfl, rfl, rfl⟩ := (fields_joined_iff nameFree parameterFree valueFree ..).mp fields
    exact ⟨whole, nodeKind, isName, isParameter, isValue⟩
  · rintro ⟨whole, nodeKind, isName, isParameter, isValue⟩
    have fields := (fields_joined_iff nameFree parameterFree valueFree name parameter value).mpr
      ⟨whole, rfl, rfl, rfl⟩
    exact .fields fields nodeKind isName isParameter isValue

/-- A parameter is known by its number. -/
theorem parameterDenotes_iff {numeral : List Char} {number : Nat}
    (denotes : Text.Unsigned numeral number) (word : UInt32) :
    ParameterDenotes (some numeral) word ↔ number ≤ 4294967295 ∧ word = UInt32.ofNat number := by
  constructor
  · intro isParameter
    cases isParameter with
    | present found small =>
        rw [found.unique denotes] at small ⊢
        exact ⟨small, rfl⟩
  · rintro ⟨small, rfl⟩
    exact .present denotes small

theorem parameterDenotes_none_iff (word : UInt32) : ParameterDenotes none word ↔ word = 0 := by
  constructor
  · intro isParameter
    cases isParameter with
    | absent => rfl
  · rintro rfl
    exact .absent

end Rule

/-- A size is known by its number. -/
theorem Property.denotes_size_iff {property : Property}
    (isSize : property = .statementStatSize ∨ property = .statementExprSize)
    {numeral : List Char} {number : Int} (denotes : Text.Signed numeral number) (value : RuleValue) :
    property.Denotes numeral value ↔
      (-2147483648 ≤ number ∧ number ≤ 2147483647) ∧ value = .size (Int32.ofInt number) := by
  have known : property.Denotes numeral value ↔
      ∃ number, Text.Signed numeral number ∧ (-2147483648 ≤ number ∧ number ≤ 2147483647) ∧
        value = .size (Int32.ofInt number) := by
    rcases isSize with rfl | rfl <;> rfl
  rw [known]
  constructor
  · rintro ⟨found, numeral, isValue⟩
    rwa [numeral.unique denotes] at isValue
  · intro isValue
    exact ⟨number, denotes, isValue⟩

/-- No other property shares its name with a size. -/
theorem Property.eq_of_size_name {property other : Property}
    (isSize : property = .statementStatSize ∨ property = .statementExprSize)
    (same : other.name = property.name) : other = property := by
  rcases isSize with rfl | rfl <;> revert same <;> cases other <;> decide

namespace Rule

/-- How tokens are read as rules on nodes of a kind. -/
structure ReadsByGrammar (kind : NodeKind) : Prop where
  /-- A token is accepted as a rule exactly if it spells the rule. -/
  accepted : ∀ (token : List Char) (rule : Rule), parse kind token = .ok rule ↔ Spelled kind token rule
  /-- No parameter and any numeral of zero are the same. -/
  zero : ∀ name numeral value : List Char, ':' ∉ name → ':' ∉ value → Text.Unsigned numeral 0 →
    ∀ rule : Rule, parse kind (joined name none value) = .ok rule ↔
      parse kind (joined name (some numeral) value) = .ok rule
  /-- Numerals of one number can stand for each other as parameters. -/
  parameter : ∀ (name numeral other value : List Char) (number : Nat), ':' ∉ name → ':' ∉ value →
    Text.Unsigned numeral number → Text.Unsigned other number →
    ∀ rule : Rule, parse kind (joined name (some numeral) value) = .ok rule ↔
      parse kind (joined name (some other) value) = .ok rule
  /-- And as sizes. -/
  size : ∀ (property : Property) (middle : Option (List Char)) (numeral other : List Char)
    (number : Int), property = .statementStatSize ∨ property = .statementExprSize →
    (∀ text ∈ middle, ':' ∉ text) → Text.Signed numeral number → Text.Signed other number →
    ∀ rule : Rule, parse kind (joined property.name.toList middle numeral) = .ok rule ↔
      parse kind (joined property.name.toList middle other) = .ok rule
  /-- A numeral denotes the same number behind more zeros. -/
  leadingZeros : ∀ (digits : List Char) (number zeros : Nat), Text.Digits digits number →
    Text.Digits (List.replicate zeros '0' ++ digits) number

/-- **Tokens are read by their grammar**, and it is the numbers in them that count, not their
spelling. -/
theorem parse_iff_spelled (kind : NodeKind) : ReadsByGrammar kind where
  accepted := parse_eq_ok_iff kind
  zero name numeral value nameFree valueFree denotes rule := by
    obtain ⟨nonempty, numeralFree⟩ := (Text.Signed.unsigned denotes).ne_nil_and_no_colon
    rw [parse_eq_ok_iff, parse_eq_ok_iff, spelled_joined_iff kind nameFree (by simp) valueFree,
      spelled_joined_iff kind nameFree (by simpa using numeralFree) valueFree,
      parameterDenotes_none_iff, parameterDenotes_iff denotes]
    simp [nonempty]
  parameter name numeral other value number nameFree valueFree denotes denotes' rule := by
    obtain ⟨nonempty, numeralFree⟩ := (Text.Signed.unsigned denotes).ne_nil_and_no_colon
    obtain ⟨nonempty', otherFree⟩ := (Text.Signed.unsigned denotes').ne_nil_and_no_colon
    rw [parse_eq_ok_iff, parse_eq_ok_iff,
      spelled_joined_iff kind nameFree (by simpa using numeralFree) valueFree,
      spelled_joined_iff kind nameFree (by simpa using otherFree) valueFree,
      parameterDenotes_iff denotes, parameterDenotes_iff denotes']
    simp [nonempty, nonempty']
  size property middle numeral other number isSize middleFree denotes denotes' rule := by
    have nameFree := property.isField_name.no_colon
    obtain ⟨nonempty, numeralFree⟩ := denotes.ne_nil_and_no_colon
    obtain ⟨nonempty', otherFree⟩ := denotes'.ne_nil_and_no_colon
    rw [parse_eq_ok_iff, parse_eq_ok_iff, spelled_joined_iff kind nameFree middleFree numeralFree,
      spelled_joined_iff kind nameFree middleFree otherFree, String.ofList_toList]
    refine and_congr (by simp [nonempty, nonempty']) (and_congr_right fun _ => ?_)
    refine and_congr_right fun isName => and_congr_right fun _ => ?_
    rw [Property.eq_of_size_name isSize isName, Property.denotes_size_iff isSize denotes,
      Property.denotes_size_iff isSize denotes']
  leadingZeros _ _ zeros digits := digits.leadingZeros zeros

/-- The least size there is, then with a numeral of zero for a parameter, then with zeros of its own. -/
theorem least_size_respelled :
    let rule : Rule := ⟨.statementExprSize, 0, .size (-2147483648)⟩
    parse .statement "exprsize:-2147483648".toList = .ok rule ∧
      parse .statement "exprsize:+000:-2147483648".toList = .ok rule ∧
      parse .statement "exprsize:+000:-0002147483648".toList = .ok rule := by
  intro rule
  have reads := parse_iff_spelled .statement
  have digits : Text.Digits "2147483648".toList 2147483648 :=
    (Text.digits?_eq_some_iff ..).mp (by decide)
  have least : Text.Signed "-2147483648".toList (-2147483648) := .minus digits
  have padded : Text.Signed "-0002147483648".toList (-2147483648) :=
    .minus (reads.leadingZeros _ _ 3 digits)
  have zero : Text.Unsigned "+000".toList 0 := .plus ((Text.digits?_eq_some_iff ..).mp (by decide))
  have spelled : Spelled .statement (joined "exprsize".toList none "-2147483648".toList) rule :=
    (spelled_joined_iff .statement (by decide) (by simp) least.ne_nil_and_no_colon.2 rule).mpr
      ⟨⟨by decide, by simp, by decide⟩, rfl, rfl, .absent, -2147483648, least, by decide, rfl⟩
  have first : parse .statement "exprsize:-2147483648".toList = .ok rule :=
    (reads.accepted _ rule).mpr spelled
  have second : parse .statement "exprsize:+000:-2147483648".toList = .ok rule :=
    (reads.zero "exprsize".toList "+000".toList "-2147483648".toList (by decide) (by decide) zero
      rule).mp first
  have middle : ∀ text ∈ some "+000".toList, ':' ∉ text := by decide
  exact ⟨first, second, (reads.size .statementExprSize (some "+000".toList) "-2147483648".toList
    "-0002147483648".toList _ (.inr rfl) middle least padded rule).mp second⟩

end Rule

end Idiom

end Decompiler
