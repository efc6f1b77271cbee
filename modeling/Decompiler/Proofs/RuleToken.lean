/- # Decompiler.Proofs.RuleToken — what is wrong with a rule's token

A token has two or three fields with a colon between them, none of them empty and none with
a colon in it (`Rule.Fields`). What is wrong with a token is looked for in a fixed order:
its shape, then the name of the property among those of the node's kind, then the
parameter, then the value. `Rule.Faulty` states each fault with what must be right for it
to be reached, and `parse_eq_error_iff` says that the fault reported is the one so stated.
For the rules of a line it is that of the leftmost bad token
(`Line.parse_eq_error_iff`).
-/
import Decompiler.Idiom.Pattern
import Decompiler.Proofs.PatternPrint

namespace Decompiler

set_option autoImplicit false

namespace Text

/-- No field holds the separator. -/
theorem separator_not_mem_fields (separator : Char) (word : List Char) :
    ∀ field ∈ fields separator word, separator ∉ field := by
  intro field member inside
  rw [fields, List.splitOn_eq_splitOnP] at member
  have uncut := uncut_of_mem_splitOnP _ word field member separator inside
  rw [beq_self_eq_true] at uncut
  cases uncut

/-- The fields of a word are those that make it up, with the separator between them and none inside. -/
theorem fields_eq_iff (separator : Char) (word : List Char) (pieces : List (List Char)) :
    fields separator word = pieces ↔
      word = [separator].intercalate pieces ∧ pieces ≠ [] ∧ ∀ field ∈ pieces, separator ∉ field := by
  constructor
  · rintro rfl
    exact ⟨(List.intercalate_splitOn separator).symm, List.splitOn_ne_nil separator word,
      separator_not_mem_fields separator word⟩
  · rintro ⟨rfl, nonempty, free⟩
    exact List.splitOn_intercalate separator free nonempty

end Text

namespace Idiom

/-! ## The first failure -/

section Failures

variable {α β ε : Type}

/-- Two steps fail where the first does, or else where the second does. -/
theorem bind_eq_error_iff (first : Except ε α) (second : α → Except ε β) (error : ε) :
    (first >>= second) = .error error ↔
      first = .error error ∨ ∃ value, first = .ok value ∧ second value = .error error := by
  cases first <;> simp [bind, Except.bind]

/-- A list is mapped up to its first failure. -/
theorem mapM_eq_error_iff (f : α → Except ε β) (items : List α) (error : ε) :
    items.mapM f = .error error ↔
      ∃ front item back, items = front ++ item :: back ∧
        (∀ earlier ∈ front, ∀ other, f earlier ≠ .error other) ∧ f item = .error error := by
  induction items with
  | nil => simp [pure, Except.pure]
  | cons first rest ih =>
      have unfolded : (first :: rest).mapM f = .error error ↔
          f first = .error error ∨ ∃ value, f first = .ok value ∧ rest.mapM f = .error error := by
        rw [List.mapM_cons, bind_eq_error_iff]
        simp only [bind_eq_error_iff, pure, Except.pure, reduceCtorEq, and_false, exists_false, or_false]
      rw [unfolded, ih]
      constructor
      · rintro (failed | ⟨value, read, front, item, back, rfl, sound, failed⟩)
        · exact ⟨[], first, rest, rfl, nofun, failed⟩
        · refine ⟨first :: front, item, back, rfl, ?_, failed⟩
          intro earlier member other
          rcases List.mem_cons.mp member with rfl | later
          · rw [read]
            nofun
          · exact sound earlier later other
      · rintro ⟨front, item, back, split, sound, failed⟩
        cases front with
        | nil =>
            cases split
            exact .inl failed
        | cons earlier front =>
            cases split
            cases read : f first with
            | error other => exact absurd read (sound first List.mem_cons_self other)
            | ok value =>
                exact .inr ⟨value, rfl, front, item, back, rfl,
                  fun other member => sound other (List.mem_cons_of_mem _ member), failed⟩

end Failures

/-! ## Fields -/

namespace Rule

/-- The text can stand between the colons of a token. -/
def IsPart (field : List Char) : Prop :=
  field ≠ [] ∧ ':' ∉ field

/-- The token is made of a name, perhaps a parameter, and a value. -/
inductive Fields : List Char → List Char → Option (List Char) → List Char → Prop
  | two {name value : List Char} (isName : IsPart name) (isValue : IsPart value) :
      Fields (name ++ ':' :: value) name none value
  | three {name parameter value : List Char} (isName : IsPart name) (isParameter : IsPart parameter)
      (isValue : IsPart value) :
      Fields (name ++ ':' :: (parameter ++ ':' :: value)) name (some parameter) value

theorem split?_eq_some_iff (token name : List Char) (parameter : Option (List Char))
    (value : List Char) :
    split? token = some (name, parameter, value) ↔ Fields token name parameter value := by
  constructor
  · intro found
    unfold split? at found
    split at found
    · next first last pieces =>
        obtain ⟨whole, -, free⟩ := (Text.fields_eq_iff ..).mp pieces
        obtain rfl : token = first ++ ':' :: last := by simpa [List.intercalate] using whole
        split at found
        · next nonempty =>
            cases found
            exact .two ⟨nonempty.1, free _ (by simp)⟩ ⟨nonempty.2, free _ (by simp)⟩
        · cases found
    · next first middle last pieces =>
        obtain ⟨whole, -, free⟩ := (Text.fields_eq_iff ..).mp pieces
        obtain rfl : token = first ++ ':' :: (middle ++ ':' :: last) := by
          simpa [List.intercalate] using whole
        split at found
        · next nonempty =>
            cases found
            exact .three ⟨nonempty.1, free _ (by simp)⟩ ⟨nonempty.2.1, free _ (by simp)⟩
              ⟨nonempty.2.2, free _ (by simp)⟩
        · cases found
    · cases found
  · intro fields
    cases fields with
    | two isName isValue =>
        have pieces : Text.fields ':' (name ++ ':' :: value) = [name, value] := by
          rw [Text.fields, List.splitOn_append_cons_self_of_not_mem isName.2,
            List.splitOn_eq_singleton isValue.2]
        simp [split?, pieces, isName.1, isValue.1]
    | three isName isParameter isValue =>
        have pieces := Text.fields_three isName.2 isParameter.2 isValue.2
        simp [split?, pieces, isName.1, isParameter.1, isValue.1]

end Rule

theorem Property.ofName?_eq_some_iff (kind : NodeKind) (name : String) (property : Property) :
    ofName? kind name = some property ↔ property.nodeKind = kind ∧ property.name = name := by
  constructor
  · intro found
    obtain ⟨front, back, listed, -⟩ := List.lookup_eq_some_iff.mp found
    exact (mem_table_iff kind name property).mp (by simp [listed])
  · rintro ⟨rfl, rfl⟩
    exact ofName?_name property

namespace Rule

/-! ## The faults of a token -/

/-- The fault of a token on a node of that kind. A later one is not reached while an earlier one
applies. -/
inductive Faulty (kind : NodeKind) (token : List Char) : RuleFault → Prop
  | malformed (shapeless : ∀ name parameter value, ¬ Fields token name parameter value) :
      Faulty kind token (.malformed (String.ofList token))
  | unknownProperty {name value : List Char} {parameter : Option (List Char)}
      (fields : Fields token name parameter value)
      (unknown : ∀ property : Property,
        ¬ (property.nodeKind = kind ∧ property.name = String.ofList name)) :
      Faulty kind token (.unknownProperty kind (String.ofList name))
  | invalidParameter {name parameter value : List Char} {property : Property}
      (fields : Fields token name (some parameter) value)
      (known : property.nodeKind = kind ∧ property.name = String.ofList name)
      (notNumber : Text.uint32? parameter = none) :
      Faulty kind token (.invalidParameter (String.ofList parameter))
  | invalidValue {name value : List Char} {parameter : Option (List Char)} {property : Property}
      (fields : Fields token name parameter value)
      (known : property.nodeKind = kind ∧ property.name = String.ofList name)
      (number : ∀ text ∈ parameter, Text.uint32? text ≠ none)
      (notValue : property.value? value = none) :
      Faulty kind token (.invalidValue property (String.ofList value))

theorem parseParameter_eq_error_iff (parameter : Option (List Char)) (fault : RuleFault) :
    parseParameter parameter = .error fault ↔
      ∃ text ∈ parameter,
        Text.uint32? text = none ∧ fault = .invalidParameter (String.ofList text) := by
  cases parameter with
  | none => simp [parseParameter]
  | some text => cases number : Text.uint32? text <;> simp [parseParameter, number, eq_comm]

/-- Behind a good shape and a known property, the parameter is judged before the value. -/
theorem parse_of_known {kind : NodeKind} {token name value : List Char}
    {parameter : Option (List Char)} {property : Property}
    (fields : Fields token name parameter value)
    (known : property.nodeKind = kind ∧ property.name = String.ofList name) (fault : RuleFault) :
    parse kind token = .error fault ↔
      parseParameter parameter = .error fault ∨
        (∀ text ∈ parameter, Text.uint32? text ≠ none) ∧ property.value? value = none ∧
          fault = .invalidValue property (String.ofList value) := by
  rw [parse, (split?_eq_some_iff ..).mpr fields]
  simp only [(Property.ofName?_eq_some_iff ..).mpr known]
  rw [bind_eq_error_iff]
  refine or_congr_right ?_
  constructor
  · rintro ⟨number, read, failed⟩
    refine ⟨fun text given notNumber => ?_, ?_⟩
    · rw [(parseParameter_eq_error_iff ..).mpr ⟨text, given, notNumber, rfl⟩] at read
      cases read
    · split at failed
      · next notValue =>
          cases failed
          exact ⟨notValue, rfl⟩
      · cases failed
  · rintro ⟨number, notValue, rfl⟩
    cases read : parseParameter parameter with
    | error other =>
        obtain ⟨text, given, notNumber, -⟩ := (parseParameter_eq_error_iff ..).mp read
        exact absurd notNumber (number text given)
    | ok parsed => exact ⟨parsed, rfl, by simp only [notValue]⟩

theorem parse_eq_error_iff (kind : NodeKind) (token : List Char) (fault : RuleFault) :
    parse kind token = .error fault ↔ Faulty kind token fault := by
  constructor
  · intro failed
    cases shape : split? token with
    | none =>
        rw [parse, shape] at failed
        cases failed
        refine .malformed fun name parameter value fields => ?_
        rw [(split?_eq_some_iff ..).mpr fields] at shape
        cases shape
    | some parts =>
        obtain ⟨name, parameter, value⟩ := parts
        have fields := (split?_eq_some_iff ..).mp shape
        cases found : Property.ofName? kind (String.ofList name) with
        | none =>
            rw [parse, shape] at failed
            simp only [found] at failed
            cases failed
            refine .unknownProperty fields fun property known => ?_
            rw [(Property.ofName?_eq_some_iff ..).mpr known] at found
            cases found
        | some property =>
            have known := (Property.ofName?_eq_some_iff ..).mp found
            rcases (parse_of_known fields known fault).mp failed with badParameter | badValue
            · obtain ⟨text, given, notNumber, rfl⟩ := (parseParameter_eq_error_iff ..).mp badParameter
              cases given
              exact .invalidParameter fields known notNumber
            · obtain ⟨number, notValue, rfl⟩ := badValue
              exact .invalidValue fields known number notValue
  · intro faulty
    cases faulty with
    | malformed shapeless =>
        have shape : split? token = none := by
          cases shape : split? token with
          | none => rfl
          | some parts => exact absurd ((split?_eq_some_iff ..).mp shape) (shapeless _ _ _)
        rw [parse, shape]
    | @unknownProperty name value parameter fields unknown =>
        have found : Property.ofName? kind (String.ofList name) = none := by
          cases found : Property.ofName? kind (String.ofList name) with
          | none => rfl
          | some property => exact absurd ((Property.ofName?_eq_some_iff ..).mp found) (unknown property)
        rw [parse, (split?_eq_some_iff ..).mpr fields]
        simp only [found]
    | @invalidParameter name parameter value property fields known notNumber =>
        exact (parse_of_known fields known _).mpr (.inl ((parseParameter_eq_error_iff ..).mpr
          ⟨parameter, rfl, notNumber, rfl⟩))
    | invalidValue fields known number notValue =>
        exact (parse_of_known fields known _).mpr (.inr ⟨number, notValue, rfl⟩)

end Rule

/-- The fault of a line's rules is that of its leftmost bad token; the first word is the kind. -/
theorem Line.parse_eq_error_iff (content : List Char) (fault : RuleFault) :
    parse content = .error fault ↔
      ∃ word front token back, Text.words content = word :: (front ++ token :: back) ∧
        (∀ earlier ∈ front, ∀ other,
          ¬ Rule.Faulty (NodeKind.ofWord (String.ofList word)) earlier other) ∧
        Rule.Faulty (NodeKind.ofWord (String.ofList word)) token fault := by
  unfold parse
  cases words : Text.words content with
  | nil => simp
  | cons word tokens =>
      simp only [bind_eq_error_iff, mapM_eq_error_iff, pure, Except.pure, reduceCtorEq, and_false,
        exists_false, or_false, ne_eq, Rule.parse_eq_error_iff, List.cons.injEq]
      constructor
      · rintro ⟨front, token, back, split, sound, faulty⟩
        exact ⟨word, front, token, back, ⟨rfl, split⟩, sound, faulty⟩
      · rintro ⟨_, front, token, back, ⟨rfl, split⟩, sound, faulty⟩
        exact ⟨front, token, back, split, sound, faulty⟩

end Idiom

end Decompiler
