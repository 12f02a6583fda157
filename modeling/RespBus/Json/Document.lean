import RespBus.Json.Token

/-!
# Documents

A document is one value. Its lexemes are read from left to right with the
unfinished containers in a list, innermost first, so a document may be nested
as deeply as it likes: no part of reading it recurses on the depth.

There are two things the reader can be doing. It wants a value, or it has
just finished one and looks at what follows. What follows a value decides
whether its container goes on or is finished too, and a value that has no
container around it is the document, provided nothing follows.

An object keeps its members in order, duplicates included. Which of them
count, and whether duplicates are acceptable, is up to whoever reads the
object.

## Main definitions

* `Json.Value`: A value of a document.
* `Json.Frame`: An unfinished container.
* `Json.Reading`: What the reader is doing.
* `Json.Reading.finish`: The document that the remaining lexemes complete.
* `Json.parse`: The value that a document spells.
-/

namespace RespBus

namespace Json

/-- A value of a document. -/
inductive Value where
  | null
  | bool (value : Bool)
  | number (value : Number)
  /-- The text is missing where the literal spells none. -/
  | text (content : Option String)
  | array (items : List Value)
  | object (members : List (Option String × Value))

/-- The value that a single lexeme spells. -/
def Token.scalar? : Token → Option Value
  | .null => some .null
  | .bool value => some (.bool value)
  | .number value => some (.number value)
  | .text content => some (.text content)
  | _ => none

/-- An unfinished container, with what it holds so far, last first. -/
inductive Frame where
  /-- An array in which a value is due. -/
  | items (done : List Value)
  /-- An object in which the value of a key is due. -/
  | members (done : List (Option String × Value)) (key : Option String)

/-- What the reader is doing, inside which unfinished containers. -/
inductive Reading where
  /-- A value is due. -/
  | wanting (outer : List Frame)
  /-- A value has just been finished. -/
  | finished (value : Value) (outer : List Frame)

namespace Reading

/-- The document that the remaining lexemes complete. -/
def finish : Reading → List Token → Option Value
  -- A value with nothing around it is the document.
  | .finished value [], [] => some value
  -- In an array a value is followed by another one, or by the end.
  | .finished value (.items done :: outer), .comma :: rest =>
    finish (.wanting (.items (value :: done) :: outer)) rest
  | .finished value (.items done :: outer), .closeArray :: rest =>
    finish (.finished (.array (value :: done).reverse) outer) rest
  -- In an object it is followed by another key, or by the end.
  | .finished value (.members done key :: outer), .comma :: .text next :: .colon :: rest =>
    finish (.wanting (.members ((key, value) :: done) next :: outer)) rest
  | .finished value (.members done key :: outer), .closeObject :: rest =>
    finish (.finished (.object ((key, value) :: done).reverse) outer) rest
  -- A container is empty, or its first value is due.
  | .wanting outer, .openArray :: .closeArray :: rest => finish (.finished (.array []) outer) rest
  | .wanting outer, .openArray :: rest => finish (.wanting (.items [] :: outer)) rest
  | .wanting outer, .openObject :: .closeObject :: rest =>
    finish (.finished (.object []) outer) rest
  | .wanting outer, .openObject :: .text key :: .colon :: rest =>
    finish (.wanting (.members [] key :: outer)) rest
  -- Any other lexeme has to be a value by itself.
  | .wanting outer, token :: rest =>
    match token.scalar? with
    | some value => finish (.finished value outer) rest
    | none => none
  | _, _ => none

end Reading

/-- The value that a document spells, if it is one value and nothing else. -/
def parse (document : String) : Option Value := do
  let found ← tokens document.toList
  (Reading.wanting []).finish found

end Json

end RespBus
