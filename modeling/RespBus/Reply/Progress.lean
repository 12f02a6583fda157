import RespBus.Decimal

/-!
# Reading Progress

Bytes arrive in parts, so a reader of replies has three answers and not two.
It may have found what it looks for, it may have met a byte that no reply
can have in that place, or the input may have ended too soon. Only the last
of them can change when more bytes arrive, which is why running out of input
is not one of the faults.

`Fault` lists what can be wrong with a reply. The wording of each is in
`Fault.message` and nowhere else; the readers deal in causes.

## Main definitions

* `Fault`: What can be wrong with a reply.
* `Fault.message`: The wording of a fault.
* `Progress`: The answer of a reader to the bytes it was given.
* `Progress.map`: An answer with its value replaced.
-/

namespace RespBus

/-- What can be wrong with a reply. -/
inductive Fault where
  /-- A header line holds no byte. -/
  | emptyLine
  /-- A header line starts with a byte that announces no kind of reply. -/
  | unknownKind (byte : UInt8)
  /-- Nothing stands where an integer should. -/
  | missingInteger
  /-- A minus sign stands alone. -/
  | missingDigits
  /-- Some byte of an integer is not a digit. -/
  | invalidInteger
  /-- A bulk string announces more bytes than are allowed. -/
  | bulkTooLong (length : Nat)
  /-- The announced bytes of a bulk string are not followed by a line end. -/
  | unterminatedBulk
  /-- An array opens inside too many others. -/
  | nestedTooDeeply
  deriving DecidableEq

/-- The most bytes a bulk string may announce, half a gibibyte. -/
def maxBulkLength : Nat := 536870912

/-- How many arrays may be open at once. -/
def maxNesting : Nat := 128

/-- Two lower-case hexadecimal digits. -/
def hexByte (byte : UInt8) : String :=
  String.ofList [Nat.digitChar (byte.toNat / 16), Nat.digitChar (byte.toNat % 16)]

/-- The wording of a fault. -/
def Fault.message : Fault → String
  | emptyLine => "empty reply line"
  | unknownKind byte => "unexpected reply type byte 0x" ++ hexByte byte
  | missingInteger => "missing integer"
  | missingDigits => "missing integer digits"
  | invalidInteger => "invalid integer"
  | bulkTooLong length =>
    "bulk length " ++ Decimal.toText length ++ " exceeds " ++ Decimal.toText maxBulkLength
  | unterminatedBulk => "bulk string is not terminated by CRLF"
  | nestedTooDeeply => "reply nested too deeply"

/-- The answer of a reader to the bytes it was given. -/
inductive Progress (α : Type) where
  /-- The input ended before the reader could tell. -/
  | incomplete
  /-- No continuation of the input can be read. -/
  | invalid (fault : Fault)
  /-- The reader has what it looked for. -/
  | complete (value : α)
  deriving DecidableEq

namespace Progress

variable {α β : Type}

/-- The same answer with its value replaced. -/
def map (f : α → β) : Progress α → Progress β
  | incomplete => incomplete
  | invalid fault => invalid fault
  | complete value => complete (f value)

end Progress

end RespBus
