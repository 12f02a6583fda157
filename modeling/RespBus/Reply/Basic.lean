import RespBus.Reply.Header

/-!
# Replies

A reply is a value: a short text, an error text, an integer, a run of bytes,
the null that stands for an absent run of bytes, or an array of replies.

Reading follows the shape of the value. `readElement` reads one reply and is
told how to read the elements of an array; `read` supplies that reader, with
one level less to spend, down to a reader that refuses to open any further
array. The number of levels left is therefore what the recursion is on. The
elements themselves are read in a loop that ends with the count, and a count
larger than the input simply runs out of input.

An empty array opens nothing, so it costs no level.

## Main definitions

* `Reply`: A reply.
* `Reply.readMany`: A counted run of replies, read one after another.
* `Reply.readElement`: One reply, given a reader for an array's elements.
* `Reply.read`: One reply inside a limited number of arrays.
* `Reply.decode`: The reply at the front of a buffer, with its length.
-/

namespace RespBus

/-- A reply of the bus. -/
inductive Reply where
  /-- A short text. -/
  | simple (text : Bytes)
  /-- The text of an error. -/
  | error (text : Bytes)
  /-- An integer. -/
  | integer (value : Int)
  /-- The absence of a value. -/
  | null
  /-- A run of bytes. -/
  | bulk (data : Bytes)
  /-- Replies in order. -/
  | array (items : List Reply)

namespace Reply

/-- `count` replies read one after another, collected last first. -/
def readMany (readItem : Bytes → Progress (Reply × Bytes)) :
    Nat → List Reply → Bytes → Progress (List Reply × Bytes)
  | 0, done, input => .complete (done.reverse, input)
  | count + 1, done, input =>
    match readItem input with
    | .incomplete => .incomplete
    | .invalid fault => .invalid fault
    | .complete (item, rest) => readMany readItem count (item :: done) rest

/-- One reply from the front of the input, and the bytes after it. The
    elements of an array that has any are read by `readItems`. -/
def readElement (readItems : Nat → Bytes → Progress (List Reply × Bytes)) (input : Bytes) :
    Progress (Reply × Bytes) :=
  match Bytes.splitLine input with
  | none => .incomplete
  | some (line, rest) =>
    match Header.ofLine line with
    | .error fault => .invalid fault
    | .ok (.simple text) => .complete (.simple text, rest)
    | .ok (.error text) => .complete (.error text, rest)
    | .ok (.integer value) => .complete (.integer value, rest)
    | .ok .null => .complete (.null, rest)
    | .ok (.bulk length) => (takeBulk length rest).map fun taken => (.bulk taken.1, taken.2)
    | .ok (.array count) =>
      if count = 0 then .complete (.array [], rest)
      else (readItems count rest).map fun items => (.array items.1, items.2)

/-- One reply in which at most `levels` arrays may be open at once. -/
def read : Nat → Bytes → Progress (Reply × Bytes)
  | 0 => readElement fun _ _ => .invalid .nestedTooDeeply
  | levels + 1 => readElement fun count => readMany (read levels) count []

/-- The reply at the front of a buffer and how many bytes it takes. -/
def decode (buffer : Bytes) : Progress (Reply × Nat) :=
  (read maxNesting buffer).map fun found => (found.1, buffer.length - found.2.length)

end Reply

end RespBus
