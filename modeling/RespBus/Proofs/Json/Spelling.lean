import RespBus.Config.Writer
import RespBus.Json.Document
import RespBus.Proofs.Json.Literals

/-!
# What Documents Spell

The grammar of documents, as a relation between characters and values. Words,
numbers and strings are spelled by their literals. An array or an object is
spelled by parts with commas between them, and blanks may stand around every
value and every key. The parts of a container are records of what stands
where, so the blanks are data and not an existential in every rule, and a
relation over all parts is a relation over the elements of a list.

Nothing in the grammar is said about how a document is read, how deeply it is
nested, or which texts the keys are. A key may spell no text at all.

The compact forms are one spelling among others: there are no blanks in them,
and every text and number has its own literal.

## Main definitions

* `Json.Blanks`: The characters that may stand between lexemes.
* `Json.Element`, `Json.Member`: The parts of arrays and of objects.
* `Json.Spells`: Characters that spell a value.
* `Json.Document`: The same with blanks around.
* `Json.SpellsMembers`: Written members that spell the fields of a record.

## Theorems

* `Json.spells_quote`: A text is spelled by its literal.
* `Json.spells_toChars`: A natural number is spelled by its digits.
* `Json.spells_writeObject`: A record is spelled by its members.
-/

namespace RespBus

namespace Json

/-- The characters that may stand between lexemes, as many as there are. -/
def Blanks (input : List Char) : Prop :=
  ∀ c ∈ input, c ∈ [' ', '\t', '\n', '\r']

/-- An element of an array, or what follows the colon in an object: a value
    and the characters around it. -/
structure Element where
  before : List Char
  core : List Char
  after : List Char
  value : Value

namespace Element

/-- All characters of an element. -/
def chars (element : Element) : List Char :=
  element.before ++ (element.core ++ element.after)

/-- Only blanks stand around the value. -/
structure Padded (element : Element) : Prop where
  before : Blanks element.before
  after : Blanks element.after

end Element

/-- A member of an object: a key with the characters around it, and an
    element. -/
structure Member where
  before : List Char
  key : List Char
  gap : List Char
  /-- The text that the key spells, if there is one. -/
  name : Option String
  element : Element

namespace Member

/-- All characters of a member. -/
def chars (member : Member) : List Char :=
  member.before ++ (member.key ++ (member.gap ++ ':' :: member.element.chars))

/-- The key and the value of a member. -/
def pair (member : Member) : Option String × Value :=
  (member.name, member.element.value)

/-- Only blanks stand around the key and the value, and the key spells the
    name. -/
structure Padded (member : Member) : Prop where
  before : Blanks member.before
  gap : Blanks member.gap
  key : TextLiteral member.key member.name
  element : member.element.Padded

end Member

/-- The characters spell the given value. -/
inductive Spells : List Char → Value → Prop where
  | null : Spells ['n', 'u', 'l', 'l'] .null
  | true : Spells ['t', 'r', 'u', 'e'] (.bool true)
  | false : Spells ['f', 'a', 'l', 's', 'e'] (.bool false)
  | number {input : List Char} {value : Number} (hliteral : NumberLiteral input value) :
      Spells input (.number value)
  | text {input : List Char} {content : Option String} (hliteral : TextLiteral input content) :
      Spells input (.text content)
  | emptyArray {blanks : List Char} (hblanks : Blanks blanks) :
      Spells ('[' :: (blanks ++ [']'])) (.array [])
  | array {first : Element} {others : List Element}
      (hpadded : ∀ element ∈ first :: others, element.Padded)
      (hspelled : ∀ element ∈ first :: others, Spells element.core element.value) :
      Spells ('[' :: (first.chars ++ (others.flatMap (',' :: ·.chars) ++ [']'])))
        (.array ((first :: others).map Element.value))
  | emptyObject {blanks : List Char} (hblanks : Blanks blanks) :
      Spells ('\x7b' :: (blanks ++ ['\x7d'])) (.object [])
  | object {first : Member} {others : List Member}
      (hpadded : ∀ member ∈ first :: others, member.Padded)
      (hspelled : ∀ member ∈ first :: others, Spells member.element.core member.element.value) :
      Spells ('\x7b' :: (first.chars ++ (others.flatMap (',' :: ·.chars) ++ ['\x7d'])))
        (.object ((first :: others).map Member.pair))

/-- The characters are one value with blanks around it. -/
def Document (input : List Char) (value : Value) : Prop :=
  ∃ element : Element, element.Padded ∧ Spells element.core element.value ∧
    element.chars = input ∧ element.value = value

/-! ### Compact forms -/

theorem blanks_nil : Blanks [] :=
  fun _ h => absurd h List.not_mem_nil

theorem blanks_space : Blanks [' '] :=
  List.forall_mem_singleton.2 List.mem_cons_self

/-- A spelling needs no blanks around it. -/
theorem Spells.document {input : List Char} {value : Value} (h : Spells input value) :
    Document input value :=
  ⟨⟨[], input, [], value⟩, ⟨blanks_nil, blanks_nil⟩, h, List.append_nil input, rfl⟩

theorem spells_quote (text : String) : Spells (quote text) (.text (some text)) :=
  .text (textLiteral_quote text)

theorem spells_toChars (n : Nat) : Spells (Decimal.toChars n) (.number (.ofNat n)) :=
  .number (numberLiteral_toChars n)

/-- The written members spell the given fields. -/
inductive SpellsMembers : List (List Char) → List (String × Value) → Prop where
  | nil : SpellsMembers [] []
  | cons (key : String) {input : List Char} {value : Value} {members : List (List Char)}
      {fields : List (String × Value)} (head : Spells input value)
      (tail : SpellsMembers members fields) :
      SpellsMembers (writeMember key input :: members) ((key, value) :: fields)

/-- A written member: no blanks, and the key's own literal. -/
def Member.compact (key : String) (input : List Char) (value : Value) : Member :=
  ⟨[], quote key, [], some key, ⟨[], input, [], value⟩⟩

theorem Member.chars_compact (key : String) (input : List Char) (value : Value) :
    (compact key input value).chars = writeMember key input := by
  simp only [compact, chars, Element.chars, writeMember, List.nil_append, List.append_nil]

theorem Member.padded_compact (key : String) (input : List Char) (value : Value) :
    (compact key input value).Padded :=
  ⟨blanks_nil, blanks_nil, textLiteral_quote key, ⟨blanks_nil, blanks_nil⟩⟩

/-- Members written one by one are the parts of an object. -/
theorem SpellsMembers.exists_parts {members : List (List Char)} {fields : List (String × Value)}
    (h : SpellsMembers members fields) :
    ∃ parts : List Member, members = parts.map Member.chars ∧
      fields.map (fun field => (some field.1, field.2)) = parts.map Member.pair ∧
      (∀ part ∈ parts, part.Padded) ∧
      ∀ part ∈ parts, Spells part.element.core part.element.value := by
  induction h with
  | nil =>
      exact ⟨[], rfl, rfl, fun _ h => absurd h List.not_mem_nil,
        fun _ h => absurd h List.not_mem_nil⟩
  | @cons key input value _ _ head _ ih =>
      rcases ih with ⟨parts, rfl, hpairs, hpadded, hspelled⟩
      refine ⟨.compact key input value :: parts, ?_, ?_,
        List.forall_mem_cons.2 ⟨Member.padded_compact key input value, hpadded⟩,
        List.forall_mem_cons.2 ⟨head, hspelled⟩⟩
      · rw [List.map_cons, Member.chars_compact]
      · rw [List.map_cons, List.map_cons, hpairs]
        rfl

/-- An object is written as its first member and the others, each after a comma. -/
theorem writeObject_cons (member : List Char) (members : List (List Char)) :
    writeObject (member :: members) =
      '\x7b' :: (member ++ (members.flatMap (',' :: ·) ++ ['\x7d'])) := by
  -- Commas between members are commas in front of all but the first.
  have hjoin : ∀ member, [','].intercalate (member :: members) =
      member ++ members.flatMap (',' :: ·) := by
    induction members with
    | nil =>
        intro member
        simp only [List.intercalate, List.intersperse_singleton, List.flatten_singleton,
          List.flatMap_nil, List.append_nil]
    | cons next members ih =>
        intro member
        have htail := ih next
        rw [List.intercalate] at htail ⊢
        rw [List.intersperse_cons_cons, List.flatten_cons, List.flatten_cons, htail,
          List.flatMap_cons, List.singleton_append, List.cons_append]
  rw [writeObject, hjoin, List.cons_append, List.append_assoc]

/-- What is written for an object spells it. -/
theorem spells_writeObject {members : List (List Char)} {fields : List (String × Value)}
    (h : SpellsMembers members fields) : Spells (writeObject members) (.record fields) := by
  rcases h.exists_parts with ⟨parts, rfl, hpairs, hpadded, hspelled⟩
  rw [Value.record, hpairs]
  -- An object without members has its own rule.
  rcases parts with _ | ⟨first, others⟩
  · exact .emptyObject blanks_nil
  · rw [List.map_cons, writeObject_cons, List.flatMap_map]
    exact .object hpadded hspelled

end Json

end RespBus
