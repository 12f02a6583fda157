import RespBus.Bytes

/-!
# Decimal Numbers

Counts and integers travel as decimal digits. A number is first turned into
the list of its digit values, most significant first, and only then into the
bytes or characters of some format; so the arithmetic is done once and the
formats differ in a single `map`.

Reading is bounded. An integer on the wire never exceeds `limit` in
magnitude, and `readDigits` holds the value there as soon as a digit would
carry it further. The value after any number of digits is then the smaller
of the number they spell and `limit`.

## Main definitions

* `Decimal.digits`: The digit values of a number, most significant first.
* `Decimal.value`: The number that digit values spell.
* `Decimal.width`: How many digits a number has, without producing them.
* `Decimal.toBytes`: A number as ASCII digits.
* `Decimal.toChars`, `Decimal.toText`: A number as characters and as text.
* `Decimal.limit`: The largest magnitude an integer on the wire can have.
* `Decimal.readDigits`: The value of ASCII digits, held at the limit.
-/

namespace RespBus

namespace Decimal

/-- The digit values of `n`, most significant first, with no leading zero
    except for zero itself. -/
def digits (n : Nat) : List Nat :=
  if n < 10 then [n] else digits (n / 10) ++ [n % 10]
termination_by n

/-- The number that a list of digit values spells. -/
def value (ds : List Nat) : Nat :=
  ds.foldl (fun v d => 10 * v + d) 0

/-- How many digits `n` is written with. -/
def width (n : Nat) : Nat :=
  if n < 10 then 1 else width (n / 10) + 1
termination_by n

/-- The ASCII byte of a digit value. -/
def digitByte (d : Nat) : UInt8 :=
  UInt8.ofNat (48 + d)

/-- The number in ASCII digits. -/
def toBytes (n : Nat) : Bytes :=
  (digits n).map digitByte

/-- The number in digit characters. -/
def toChars (n : Nat) : List Char :=
  (digits n).map Nat.digitChar

/-- The number as a text. -/
def toText (n : Nat) : String :=
  String.ofList (toChars n)

/-- The largest magnitude an integer on the wire can have, `2 ^ 63 - 1`. -/
def limit : Nat := 9223372036854775807

/-- An ASCII digit. -/
def isDigit (b : UInt8) : Bool :=
  48 ≤ b && b ≤ 57

/-- Reads digits onto the value of those already read, holding it at `limit`
    from the first digit that would pass it; nothing if some byte is not a
    digit. -/
def readDigits (seen : Nat) : Bytes → Option Nat
  | [] => some seen
  | b :: rest =>
    if isDigit b then readDigits (min (10 * seen + (b.toNat - 48)) limit) rest else none

end Decimal

end RespBus
