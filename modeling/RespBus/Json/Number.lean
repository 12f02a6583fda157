import RespBus.Decimal

/-!
# Number Literals

A number literal is kept as it was spelled: its sign, the digits before and
after the point, and the exponent. What it is good for depends on who asks.
A count must be spelled as a plain natural number, without a sign, a point
or an exponent. A value that is only stored must fit a double.

Whether a literal fits a double is decided as a reader of doubles does it
that keeps the leading digits in one 64-bit word. Digits are taken into the
word while it has room; of those left over, the ones before the point only
scale the number, and the ones after it are dropped. The word and the power
of ten are then rounded to 53 bits each, and their product must stay below
the least number that rounds to infinity. All of that is exact arithmetic on
natural numbers here.

## Main definitions

* `Json.Number`: A number literal as it was spelled.
* `Json.Number.natural?`: The natural number a plain literal spells.
* `Json.roundBits`: A number rounded to its leading 53 bits.
* `Json.Number.isFinite`: Whether a literal fits a double.
-/

namespace RespBus

namespace Json

/-- A number literal as it was spelled. -/
structure Number where
  /-- Whether a minus sign comes first. -/
  negative : Bool
  /-- The digit values before the point. -/
  whole : List Nat
  /-- The digit values after the point; a literal without a point has none. -/
  fraction : List Nat
  /-- The exponent, where one is spelled. -/
  exponent : Option Int
  deriving DecidableEq

/-- Rounds to the nearest number whose binary form has at most 53 leading
    bits before its zeros; halfway cases go to the even one. -/
def roundBits (n : Nat) : Nat :=
  let shift := n.log2 - 52
  let unit := Nat.pow 2 shift
  let quotient := n / unit
  let twice := 2 * (n % unit)
  if twice < unit ∨ (twice = unit ∧ quotient % 2 = 0) then quotient * unit
  else (quotient + 1) * unit

/-- Takes digits into a 64-bit word while they fit. Gives the word and the
    digits that are left. -/
def takeDigits (word : Nat) : List Nat → Nat × List Nat
  | [] => (word, [])
  | d :: rest =>
    if 10 * word + d < 2 ^ 64 then takeDigits (10 * word + d) rest else (word, d :: rest)

/-- The least number that rounds to infinity: half a unit past the greatest
    double. -/
def overflow : Nat := Nat.pow 2 1024 - Nat.pow 2 970

namespace Number

/-- The natural number that a literal spells, if it has no sign, point or
    exponent. -/
def natural? (n : Number) : Option Nat :=
  if n.negative = false ∧ n.fraction = [] ∧ n.exponent = none then some (Decimal.value n.whole)
  else none

/-- Whether the literal fits a double. A power of ten past `10 ^ 308` is
    already too much for anything but zero. -/
def isFinite (n : Number) : Bool :=
  -- Digits before the point that found no room count as powers of ten.
  let (word, scaling) := takeDigits 0 n.whole
  -- Digits after it that found no room count for nothing.
  let (word, dropped) := takeDigits word n.fraction
  let taken := n.fraction.length - dropped.length
  let power : Int := scaling.length - taken + n.exponent.getD 0
  word == 0 || power < 0 ||
    (power ≤ 308 && roundBits word * roundBits (Nat.pow 10 power.toNat) < overflow)

end Number

end Json

end RespBus
