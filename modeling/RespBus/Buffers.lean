import RespBus.Framing

/-!
# Buffers

A session asks for two buffers when it starts: one that collects the bytes of
unfinished messages, and one that each read is put into. Both sizes come from
the framing mode. They are counted in machine words, so the product that gives
the first can be too large to be counted at all; and no buffer may be larger
than half of what words can count. Either way there is no buffer, and whoever
asked for it does not get to say what went wrong: the attempt is broken off.

Whether the memory is really there is another matter, and is not looked at.

## Main definitions

* `wordRange`: The machine words are the numbers below it.
* `maxBuffer`: The size of the largest buffer there can be.
* `Unreservable`: Why a buffer cannot be had.
* `reserve`: A buffer of a given size.
* `Framing.reserve`: The buffers that a session starts with.
-/

namespace RespBus

/-- How many machine words there are, `2 ^ 64`. The words are the numbers
    below it. -/
def wordRange : Nat := 18446744073709551616

/-- The size of the largest buffer there can be, `2 ^ 63 - 1`. -/
def maxBuffer : Nat := 9223372036854775807

/-- Why a buffer cannot be had. -/
inductive Unreservable where
  /-- Its size is no machine word. -/
  | overflow
  /-- No buffer may be so large. -/
  | tooLarge
  deriving DecidableEq

/-- The wording of it. -/
def Unreservable.message : Unreservable → String
  | overflow => "attempt to multiply with overflow"
  | tooLarge => "capacity overflow"

/-- A buffer of a given size. -/
def reserve (size : Nat) : Except Unreservable Unit :=
  if wordRange ≤ size then .error .overflow
  else if maxBuffer < size then .error .tooLarge
  else .ok ()

/-- The buffers that a session starts with: the one that collects, then the one
    that reads are put into. -/
def Framing.reserve (mode : Framing) : Except Unreservable Unit :=
  match RespBus.reserve mode.initialCapacity with
  | .error unreservable => .error unreservable
  | .ok () => RespBus.reserve mode.readSize

end RespBus
