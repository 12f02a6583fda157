import RespBus.Bytes

/-!
# Lossy Text

Bytes that are meant to be text need not be UTF-8. For display they are read
all the same: whatever is not part of a character becomes the replacement
character U+FFFD.

How many replacement characters appear is fixed by cutting the faulty bytes
into the longest pieces that could still have begun a character, one
replacement each. The reader therefore remembers, after a lead byte, how
many bytes are still wanted and between which bounds the next one must lie.
The bounds are narrower than the continuation bytes after four of the lead
bytes: that is how overlong forms, surrogates and values past U+10FFFF are
recognised at the earliest byte. A byte outside the bounds ends the piece
and is looked at again as a first byte.

## Main definitions

* `Begun`: A character whose last bytes have not arrived.
* `Begun.ofLead?`: What a byte above the ASCII range begins, if anything.
* `Lossy.step`: One more byte.
* `Bytes.toTextLossy`: The text that bytes stand for.
-/

namespace RespBus

/-- A character whose last bytes have not arrived. -/
structure Begun where
  /-- The bits received so far. -/
  bits : Nat
  /-- How many bytes are still wanted, at least one. -/
  wanted : Nat
  /-- The least byte that may come next. -/
  low : UInt8
  /-- The greatest byte that may come next. -/
  high : UInt8

/-- What a byte above the ASCII range begins, if anything. -/
def Begun.ofLead? (b : UInt8) : Option Begun :=
  if b < 0xC2 then none
  else if b < 0xE0 then some ⟨b.toNat - 0xC0, 1, 0x80, 0xBF⟩
  else if b < 0xF0 then
    let low := if b = 0xE0 then 0xA0 else 0x80
    let high := if b = 0xED then 0x9F else 0xBF
    some ⟨b.toNat - 0xE0, 2, low, high⟩
  else if b < 0xF5 then
    let low := if b = 0xF0 then 0x90 else 0x80
    let high := if b = 0xF4 then 0x8F else 0xBF
    some ⟨b.toNat - 0xF0, 3, low, high⟩
  else none

/-- The characters read so far, last first, and the one that is begun. -/
structure Lossy where
  done : List Char
  begun : Option Begun

namespace Lossy

/-- The replacement character, U+FFFD. -/
def replacement : Char := Char.ofNat 0xFFFD

/-- A byte where a character may begin. -/
def first (done : List Char) (b : UInt8) : Lossy :=
  if b < 0x80 then ⟨Char.ofNat b.toNat :: done, none⟩
  else
    match Begun.ofLead? b with
    | some begun => ⟨done, some begun⟩
    | none => ⟨replacement :: done, none⟩

/-- One more byte: it continues the character that is begun, or ends a piece
    that will never be one. -/
def step (state : Lossy) (b : UInt8) : Lossy :=
  match state.begun with
  | none => first state.done b
  | some ⟨bits, wanted, low, high⟩ =>
    if low ≤ b && b ≤ high then
      let bits := bits * 64 + b.toNat % 64
      if wanted = 1 then ⟨Char.ofNat bits :: state.done, none⟩
      else ⟨state.done, some ⟨bits, wanted - 1, 0x80, 0xBF⟩⟩
    -- The byte that ends a piece may begin a character itself.
    else first (replacement :: state.done) b

/-- The characters in order. A character still begun at the end never became
    one. -/
def finish (state : Lossy) : List Char :=
  match state.begun with
  | none => state.done.reverse
  | some _ => (replacement :: state.done).reverse

end Lossy

/-- The text that bytes stand for, with U+FFFD for every longest piece that
    is no part of a character. -/
def Bytes.toTextLossy (input : Bytes) : String :=
  String.ofList (input.foldl Lossy.step ⟨[], none⟩).finish

end RespBus
