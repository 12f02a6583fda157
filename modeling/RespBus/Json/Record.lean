import RespBus.Json.Document

/-!
# Records in Documents

A record with named fields may be written as an object or as an array. In an
object its fields stand in any order, fields with other names are passed
over unread, and no field stands twice. In an array the fields stand in
their own order and only the last ones may be left out. Either way the
record becomes a look-up by name, and what a missing field means is up to
the reader of the record.

Keys have to be texts even where they are passed over, since they must be
compared with the names. The values passed over are not looked at again.

Some values cannot be read before another one is known. They are stored
first, which only works for values that are within reach of the store: texts
must be spelled, numbers must fit a double, and containers must not be
nested too deeply.

## Main definitions

* `Json.Value.record?`: The fields of a record, looked up by name.
* `Json.only?`: The value of a key that stands exactly once.
* `Json.Value.isStorable`: Whether a value can be stored before it is read.
* `Json.Value.text?`: The text of a string.
* `Json.Value.naturalBelow?`: A natural number below a bound.
* `Json.orDefault`: The value of a field, or what its absence means.
-/

namespace RespBus

namespace Json

/-- The fields of a record with the given names, looked up by name. -/
def Value.record? (names : List String) : Value → Option (String → Option Value)
  | .object members =>
    let keys := members.map Prod.fst
    if keys.all Option.isSome && names.all (fun name => keys.count (some name) ≤ 1) then
      some fun name => members.lookup (some name)
    else none
  | .array items =>
    if items.length ≤ names.length then some fun name => (names.zip items).lookup name else none
  | _ => none

/-- The value of a key that stands exactly once. -/
def only? (key : String) (members : List (Option String × Value)) : Option Value :=
  match members.filter fun member => member.1 == some key with
  | [member] => some member.2
  | _ => none

/-- Whether a value can be stored before it is read, with at most `levels`
    containers open at once. -/
def Value.isStorable : Nat → Value → Bool
  | _, .null => true
  | _, .bool _ => true
  | _, .number value => value.isFinite
  | _, .text content => content.isSome
  | 0, .array _ => false
  | 0, .object _ => false
  | levels + 1, .array items => items.all (isStorable levels)
  | levels + 1, .object members =>
    members.all fun member => member.1.isSome && isStorable levels member.2

/-- The text of a string. -/
def Value.text? : Value → Option String
  | .text content => content
  | _ => none

/-- A natural number below a bound, spelled as one. -/
def Value.naturalBelow? (bound : Nat) : Value → Option Nat
  | .number value =>
    match value.natural? with
    | some n => if n < bound then some n else none
    | none => none
  | _ => none

/-- The value of a field, or what its absence means. -/
def orDefault {α : Type} (absent : α) (read : Value → Option α) : Option Value → Option α
  | none => some absent
  | some value => read value

end Json

end RespBus
