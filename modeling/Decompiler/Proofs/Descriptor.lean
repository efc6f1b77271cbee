/- # Decompiler.Proofs.Descriptor — descriptors read back

A valid type is read back from its descriptor, whatever its dimensions
(`parse_descriptor`), and nothing else is read as a type: `ofDescriptor?_eq_some_iff` has
both directions. The two kinds of name that annotations are written with follow: a class
literal's name goes through the descriptor of the type that reflection calls so
(`parse_ofReflectiveName`), which `literalText` spells out, and an annotation's class name
through the descriptor of the class (`annotationClassName_descriptor`).

Descriptors are kept as UTF-8. Whoever cuts the name of a class out of the bytes, after
the brackets with `L` and before the last `;`, gets the bytes of whole characters
(`name_of_utf8`), as no character of several bytes has an ASCII byte among them.
-/
import Mathlib.Data.List.TakeWhile
import Decompiler.ClassFile.JavaType

namespace Decompiler.ClassFile

set_option autoImplicit false

namespace BaseType

/-- A class has a name that a descriptor can hold. -/
def Valid : BaseType → Prop
  | object name => name ≠ "" ∧ ';' ∉ name.toList
  | _ => True

theorem takeWhile_bracket_descriptor (base : BaseType) :
    base.descriptor.takeWhile (· == '[') = [] := by
  cases base <;> rfl

theorem dropWhile_bracket_descriptor (base : BaseType) :
    base.descriptor.dropWhile (· == '[') = base.descriptor := by
  cases base <;> rfl

theorem ofDescriptor?_descriptor {base : BaseType} (valid : base.Valid) :
    ofDescriptor? base.descriptor = some base := by
  cases base with
  | object name =>
      obtain ⟨nonempty, closed⟩ := valid
      have inside : ∀ c ∈ name.toList, (c != ';') = true := by
        intro c member
        rw [bne_iff_ne]
        rintro rfl
        exact closed member
      have taken : (name.toList ++ [';']).takeWhile (· != ';') = name.toList := by
        rw [List.takeWhile_append_of_pos inside]
        simp
      have dropped : (name.toList ++ [';']).dropWhile (· != ';') = [';'] := by
        rw [List.dropWhile_append_of_pos inside]
        rfl
      simp only [descriptor, ofDescriptor?, taken, dropped]
      simp [nonempty]
  | _ => rfl

theorem eq_descriptor_of_ofLetter? {letter : Char} {base : BaseType}
    (read : ofLetter? letter = some base) : base.Valid ∧ [letter] = base.descriptor := by
  unfold ofLetter? at read
  split at read <;> cases read <;> exact ⟨trivial, rfl⟩

/-- Only the descriptor of a base type is read as that type. -/
theorem eq_descriptor_of_ofDescriptor? {text : List Char} {base : BaseType}
    (read : ofDescriptor? text = some base) : base.Valid ∧ text = base.descriptor := by
  unfold ofDescriptor? at read
  split at read
  · rename_i rest
    dsimp only at read
    rw [Option.ite_none_right_eq_some] at read
    obtain ⟨⟨nonempty, closed⟩, made⟩ := read
    cases made
    have split : rest = rest.takeWhile (· != ';') ++ [';'] := by
      rw [← closed, List.takeWhile_append_dropWhile]
    have inside : ';' ∉ rest.takeWhile (· != ';') := by
      intro member
      simpa using List.mem_takeWhile_imp member
    refine ⟨⟨by simpa using nonempty, by simpa using inside⟩, ?_⟩
    rw [descriptor, String.toList_ofList, ← split]
  · exact eq_descriptor_of_ofLetter? read
  · cases read

/-- A keyword's type or a class is called so by reflection. -/
theorem reflectiveName_ofReflectiveName (name : String) :
    (ofReflectiveName name).reflectiveName = name := by
  unfold ofReflectiveName
  split <;> rfl

theorem valid_ofReflectiveName {name : String} (nonempty : name ≠ "") (closed : ';' ∉ name.toList) :
    (ofReflectiveName name).Valid := by
  unfold ofReflectiveName
  split
  case h_10 => exact ⟨nonempty, closed⟩
  all_goals trivial

end BaseType

namespace JavaType

/-- A type that has a descriptor of its own: its class has a name, and there are no arrays of
`void`. -/
structure Valid (type : JavaType) : Prop where
  base : type.base.Valid
  void : type.base = .void → type.dimensions = 0

/-- A base type's descriptor after any number of brackets, also after more than a type can have. -/
def bracketed (count : Nat) (base : BaseType) : String :=
  String.ofList (List.replicate count '[' ++ base.descriptor)

theorem ofDescriptor?_bracketed {base : BaseType} (valid : base.Valid) (count : Nat) :
    ofDescriptor? (bracketed count base) =
      if count ≤ 255 ∧ (base = .void → count = 0) then some ⟨base, UInt8.ofNat count⟩ else none := by
  have brackets : ∀ c ∈ List.replicate count '[', (c == '[') = true := by
    intro c member
    simp [List.eq_of_mem_replicate member]
  simp only [bracketed, ofDescriptor?, String.toList_ofList,
    List.takeWhile_append_of_pos brackets, List.dropWhile_append_of_pos brackets,
    base.takeWhile_bracket_descriptor, base.dropWhile_bracket_descriptor,
    BaseType.ofDescriptor?_descriptor valid, List.append_nil, List.length_replicate,
    List.replicate_eq_nil_iff]

/-- Whatever is read as a type is a base type's descriptor after some brackets. -/
theorem eq_bracketed_of_ofDescriptor? {text : String} {type : JavaType}
    (read : ofDescriptor? text = some type) :
    ∃ count base, base.Valid ∧ text = bracketed count base := by
  have split : text.toList.takeWhile (· == '[') ++ text.toList.dropWhile (· == '[') = text.toList :=
    List.takeWhile_append_dropWhile
  have brackets : text.toList.takeWhile (· == '[') =
      List.replicate (text.toList.takeWhile (· == '[')).length '[' := by
    refine List.eq_replicate_of_mem fun c member => ?_
    simpa using List.mem_takeWhile_imp member
  unfold ofDescriptor? at read
  cases found : BaseType.ofDescriptor? (text.toList.dropWhile (· == '[')) with
  | none => simp [found] at read
  | some base =>
      obtain ⟨valid, rest⟩ := BaseType.eq_descriptor_of_ofDescriptor? found
      refine ⟨(text.toList.takeWhile (· == '[')).length, base, valid, ?_⟩
      rw [bracketed, ← brackets, ← rest, split, String.ofList_toList]

/-- **Reading inverts writing** on the valid types. -/
theorem ofDescriptor?_eq_some_iff {text : String} {type : JavaType} :
    ofDescriptor? text = some type ↔ type.Valid ∧ text = type.descriptor := by
  constructor
  · intro read
    obtain ⟨count, base, valid, rfl⟩ := eq_bracketed_of_ofDescriptor? read
    rw [ofDescriptor?_bracketed valid, Option.ite_none_right_eq_some] at read
    obtain ⟨⟨few, void⟩, made⟩ := read
    cases made
    have kept : (UInt8.ofNat count).toNat = count :=
      UInt8.toNat_ofNat_of_lt' (Nat.lt_succ_of_le few)
    refine ⟨⟨valid, fun isVoid => ?_⟩, ?_⟩
    · show UInt8.ofNat count = 0
      rw [void isVoid]
      rfl
    · rw [descriptor, kept, bracketed]
  · rintro ⟨valid, rfl⟩
    obtain ⟨base, dimensions⟩ := type
    have admitted : dimensions.toNat ≤ 255 ∧ (base = .void → dimensions.toNat = 0) := by
      refine ⟨Nat.le_of_lt_succ dimensions.toNat_lt, fun isVoid => ?_⟩
      rw [show dimensions = 0 from valid.void isVoid]
      rfl
    show ofDescriptor? (bracketed dimensions.toNat base) = _
    rw [ofDescriptor?_bracketed valid.base, if_pos admitted, UInt8.ofNat_toNat]

theorem parse_eq_ok_iff {text : String} {type : JavaType} :
    parse text = .ok type ↔ type.Valid ∧ text = type.descriptor := by
  rw [← ofDescriptor?_eq_some_iff, parse]
  cases ofDescriptor? text <;> simp

theorem parse_descriptor {type : JavaType} (valid : type.Valid) :
    parse type.descriptor = .ok type :=
  parse_eq_ok_iff.mpr ⟨valid, rfl⟩

theorem descriptor_object (name : String) : (object name).descriptor = "L" ++ name ++ ";" := by
  refine String.toList_inj.mp ?_
  simp [object, ofBase, descriptor, BaseType.descriptor]

/-- The text that a class literal is written with: a letter for each of the nine keywords, and the
descriptor of a class for every other name. -/
def literalText : String → String
  | "byte" => "B"
  | "char" => "C"
  | "double" => "D"
  | "float" => "F"
  | "int" => "I"
  | "long" => "J"
  | "short" => "S"
  | "boolean" => "Z"
  | "void" => "V"
  | name => "L" ++ name ++ ";"

theorem descriptor_ofReflectiveName (name : String) :
    (ofBase (.ofReflectiveName name)).descriptor = literalText name := by
  unfold literalText
  split
  case h_10 =>
    have isClass : BaseType.ofReflectiveName name = .object name := by
      unfold BaseType.ofReflectiveName
      split
      case h_10 => rfl
      all_goals contradiction
    rw [isClass]
    exact descriptor_object name
  all_goals rfl

/-- The type that reflection calls `name` is read back from its descriptor. -/
theorem parse_ofReflectiveName {name : String} (nonempty : name ≠ "") (closed : ';' ∉ name.toList) :
    parse (ofBase (.ofReflectiveName name)).descriptor = .ok (ofBase (.ofReflectiveName name)) :=
  parse_descriptor ⟨BaseType.valid_ofReflectiveName nonempty closed, fun _ => rfl⟩

end JavaType

/-- Any name that is not empty comes back from the descriptor of its class, also one with a `;`. -/
theorem annotationClassName_descriptor {name : String} (nonempty : name ≠ "") :
    annotationClassName (JavaType.object name).descriptor = name := by
  have text : (JavaType.object name).descriptor.toList = 'L' :: (name.toList ++ [';']) := by
    simp [JavaType.object, JavaType.ofBase, JavaType.descriptor, BaseType.descriptor]
  unfold annotationClassName
  rw [text]
  simp [nonempty]

/-! ## Descriptors as bytes -/

/-- The bytes of characters, one character after the other. -/
def utf8 (text : List Char) : List UInt8 :=
  text.flatMap String.utf8EncodeChar

theorem toUTF8_eq_utf8 (text : String) : text.toUTF8.data.toList = utf8 text.toList := by
  rw [String.toUTF8_eq_toByteArray, ← String.utf8Encode_toList, List.utf8Encode,
    List.data_toByteArray, utf8]

/-- A character that takes several bytes has no ASCII byte among them. -/
theorem utf8EncodeChar_of_mem {c : Char} {byte : UInt8} (member : byte ∈ String.utf8EncodeChar c)
    (ascii : byte.toNat < 128) : String.utf8EncodeChar c = [byte] ∧ c.toNat = byte.toNat := by
  have value : c.val.toNat = c.toNat := rfl
  have high (code : Nat) (low : 128 ≤ code) (less : code < 256) :
      ¬ (UInt8.ofNat code).toNat < 128 := by
    rw [UInt8.toNat_ofNat']
    omega
  unfold String.utf8EncodeChar at member ⊢
  dsimp only at member ⊢
  split_ifs at member ⊢ with one two three
  · obtain rfl := List.mem_singleton.mp member
    refine ⟨rfl, ?_⟩
    rw [UInt8.toNat_ofNat']
    omega
  · simp only [List.mem_cons, List.not_mem_nil, or_false] at member
    rcases member with rfl | rfl <;> exact absurd ascii (high _ (by omega) (by omega))
  · simp only [List.mem_cons, List.not_mem_nil, or_false] at member
    rcases member with rfl | rfl | rfl <;> exact absurd ascii (high _ (by omega) (by omega))
  · simp only [List.mem_cons, List.not_mem_nil, or_false] at member
    rcases member with rfl | rfl | rfl | rfl <;> exact absurd ascii (high _ (by omega) (by omega))

theorem eq_of_mem_utf8EncodeChar {c letter : Char} (ascii : letter.toNat < 128)
    (member : letter.toUInt8 ∈ String.utf8EncodeChar c) :
    c = letter ∧ String.utf8EncodeChar c = [letter.toUInt8] := by
  have small : letter.toUInt8.toNat = letter.toNat := by
    rw [Char.toUInt8, UInt32.toNat_toUInt8]
    exact Nat.mod_eq_of_lt (Nat.lt_trans ascii (by decide))
  obtain ⟨single, code⟩ := utf8EncodeChar_of_mem member (small ▸ ascii)
  exact ⟨Char.toNat_inj.mp (code.trans small), single⟩

/-- Bytes that begin with an ASCII letter are those of that letter and of further characters. -/
theorem eq_cons_of_utf8 (letter : Char) (ascii : letter.toNat < 128) {text : List Char}
    {bytes : List UInt8} (written : utf8 text = letter.toUInt8 :: bytes) :
    ∃ rest, text = letter :: rest ∧ utf8 rest = bytes := by
  cases text with
  | nil => cases written
  | cons c rest =>
      rw [utf8, List.flatMap_cons] at written
      have member : letter.toUInt8 ∈ String.utf8EncodeChar c := by
        cases encoded : String.utf8EncodeChar c with
        | nil => exact absurd encoded String.utf8EncodeChar_ne_nil
        | cons first others =>
            rw [encoded] at written
            cases written
            exact List.mem_cons_self
      obtain ⟨rfl, single⟩ := eq_of_mem_utf8EncodeChar ascii member
      rw [single] at written
      exact ⟨rest, rfl, (List.cons.inj written).2⟩

theorem eq_concat_of_utf8 (letter : Char) (ascii : letter.toNat < 128) {text : List Char}
    {bytes : List UInt8} (written : utf8 text = bytes ++ [letter.toUInt8]) :
    ∃ front, text = front ++ [letter] ∧ utf8 front = bytes := by
  rcases List.eq_nil_or_concat text with rfl | ⟨front, c, rfl⟩
  · simp [utf8] at written
  · rw [List.concat_eq_append] at written ⊢
    rw [utf8, List.flatMap_append, List.flatMap_singleton] at written
    have member : letter.toUInt8 ∈ String.utf8EncodeChar c := by
      rcases List.eq_nil_or_concat (String.utf8EncodeChar c) with none | ⟨others, last, encoded⟩
      · exact absurd none String.utf8EncodeChar_ne_nil
      · rw [encoded, List.concat_eq_append, ← List.append_assoc] at written
        have isLast : last = letter.toUInt8 :=
          List.singleton_inj.mp (List.append_inj' written rfl).2
        simp [encoded, isLast]
    obtain ⟨rfl, single⟩ := eq_of_mem_utf8EncodeChar ascii member
    rw [single] at written
    exact ⟨front, rfl, (List.append_inj' written rfl).1⟩

/-- The bytes between the brackets with `L` and a last `;` are those of whole characters. -/
theorem name_of_utf8 {text : List Char} {count : Nat} {name : List UInt8}
    (written : utf8 text =
      List.replicate count '['.toUInt8 ++ 'L'.toUInt8 :: (name ++ [';'.toUInt8])) :
    ∃ inner, text = List.replicate count '[' ++ 'L' :: (inner ++ [';']) ∧ utf8 inner = name := by
  induction count generalizing text with
  | zero =>
      obtain ⟨rest, rfl, later⟩ := eq_cons_of_utf8 'L' (by decide) written
      obtain ⟨inner, rfl, cut⟩ := eq_concat_of_utf8 ';' (by decide) later
      exact ⟨inner, rfl, cut⟩
  | succ count ih =>
      obtain ⟨rest, rfl, later⟩ := eq_cons_of_utf8 '[' (by decide) written
      obtain ⟨inner, rfl, cut⟩ := ih later
      exact ⟨inner, rfl, cut⟩

/-! ## Both directions -/

/-- **Reading and writing descriptors are exact inverses** on the valid types. A text is read as a
type exactly if the type is valid and the text its descriptor; every other text is refused, with the
text in the refusal. Brackets are admitted up to 255 and no further. And a name cut out of the bytes
of a text, of whatever characters, is a text. -/
theorem JavaType.parse_inverts_descriptor :
    (∀ (text : String) (type : JavaType),
      parse text = .ok type ↔ type.Valid ∧ text = type.descriptor) ∧
    (∀ text : String, (∀ type : JavaType, type.Valid → text ≠ type.descriptor) →
      parse text = .error (.invalidDescriptor text)) ∧
    (∀ (base : BaseType) (count : Nat), base.Valid → base ≠ .void →
      parse (bracketed count base) =
        if count ≤ 255 then .ok ⟨base, UInt8.ofNat count⟩
        else .error (.invalidDescriptor (bracketed count base))) ∧
    (∀ (text : String) (count : Nat) (name : List UInt8),
      text.toUTF8.data.toList =
        List.replicate count '['.toUInt8 ++ 'L'.toUInt8 :: (name ++ [';'.toUInt8]) →
      ∃ inner : String, text = bracketed count (.object inner) ∧ inner.toUTF8.data.toList = name) := by
  refine ⟨fun text type => parse_eq_ok_iff, fun text other => ?_, fun base count valid solid => ?_,
    fun text count name written => ?_⟩
  · cases read : ofDescriptor? text with
    | none => rw [parse, read]
    | some type =>
        obtain ⟨valid, same⟩ := ofDescriptor?_eq_some_iff.mp read
        exact absurd same (other type valid)
  · rw [parse, ofDescriptor?_bracketed valid]
    by_cases few : count ≤ 255
    · rw [if_pos ⟨few, fun isVoid => absurd isVoid solid⟩, if_pos few]
    · rw [if_neg fun admitted => few admitted.1, if_neg few]
  · rw [toUTF8_eq_utf8] at written
    obtain ⟨inner, isText, cut⟩ := name_of_utf8 written
    refine ⟨String.ofList inner, ?_, ?_⟩
    · rw [bracketed, BaseType.descriptor, String.toList_ofList, ← isText, String.ofList_toList]
    · rw [toUTF8_eq_utf8, String.toList_ofList, cut]

/-- A name beyond ASCII, an array of `void`, the last number of brackets and the first too many, and a
name of two bytes. -/
theorem JavaType.parse_at_limits :
    parse "[[Lé/漢;" = .ok ⟨.object "é/漢", 2⟩ ∧
    parse "[V" = .error (.invalidDescriptor "[V") ∧
    parse (bracketed 255 .long) = .ok ⟨.long, 255⟩ ∧
    parse (bracketed 256 .long) = .error (.invalidDescriptor (bracketed 256 .long)) ∧
    ∃ inner : String, "[Lé;" = bracketed 1 (.object inner) ∧
      inner.toUTF8.data.toList = [0xC3, 0xA9] := by
  obtain ⟨reads, refuses, limit, cuts⟩ := parse_inverts_descriptor
  have noArray : ∀ type : JavaType, type.Valid → "[V" ≠ type.descriptor := by
    intro type valid same
    have read := ofDescriptor?_eq_some_iff.mpr ⟨valid, same⟩
    have none : ofDescriptor? "[V" = none := by decide
    rw [none] at read
    cases read
  have named : Valid ⟨.object "é/漢", 2⟩ := ⟨⟨by decide, by decide⟩, nofun⟩
  exact ⟨(reads _ _).mpr ⟨named, by decide⟩, refuses _ noArray, limit .long 255 trivial nofun,
    limit .long 256 trivial nofun, cuts "[Lé;" 1 [0xC3, 0xA9] (by decide)⟩

end Decompiler.ClassFile
