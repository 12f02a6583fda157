import RespBus.Command.Basic
import RespBus.Decimal

/-!
# Command Payloads

A command goes out as an array of bulk strings: its verb, then its
arguments. Every bulk string is preceded by its length in bytes, so an
argument may hold any bytes at all, line ends included, and nothing in it
needs escaping.

The size of a payload can be computed without building it. `payloadSize`
does so, and a writer that reserves that many bytes never has to grow.

## Main definitions

* `Command.bulk`: One length-prefixed run of bytes.
* `Command.payload`: A command with byte arguments, as written on the wire.
* `Command.textPayload`: The same for text arguments, in UTF-8.
* `Command.bulkSize`: The size of a bulk string of a given length.
* `Command.payloadSize`: The size of a payload, from the lengths alone.
-/

namespace RespBus

namespace Command

/-- One bulk string: a dollar sign, the length, and the data between line
    ends. -/
def bulk (data : Bytes) : Bytes :=
  36 :: Decimal.toBytes data.length ++ Bytes.crlf ++ data ++ Bytes.crlf

/-- The bytes that issue a command: an asterisk, the number of bulk strings,
    the verb and the arguments. -/
def payload (command : Command) (args : List Bytes) : Bytes :=
  42 :: Decimal.toBytes (args.length + 1) ++ Bytes.crlf ++ bulk (Bytes.ofText command.verb) ++
    args.flatMap bulk

/-- The bytes that issue a command with text arguments. Lengths count UTF-8
    bytes, not characters. -/
def textPayload (command : Command) (args : List String) : Bytes :=
  command.payload (args.map Bytes.ofText)

/-- The size of a bulk string whose data has `length` bytes. -/
def bulkSize (length : Nat) : Nat :=
  1 + Decimal.width length + 2 + length + 2

/-- The size of a payload, computed from the lengths of the verb and the
    arguments. -/
def payloadSize (verb : Bytes) (args : List Bytes) : Nat :=
  1 + Decimal.width (args.length + 1) + 2 + bulkSize verb.length +
    (args.map fun arg => bulkSize arg.length).foldr Nat.add 0

end Command

end RespBus
