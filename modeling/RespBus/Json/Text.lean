import RespBus.Decimal

/-!
# String Literals

The characters of a string literal, written and read. Writing escapes the
quotation mark, the backslash and the controls, the five common controls by
letter and the others by code point, and leaves every other character as it
is.

Reading accepts more than is written: any code unit may be given in
hexadecimal, and two of them that form a surrogate pair stand for one
character. A code unit that is half of a pair and stands alone is still
well-formed as a literal, but there is no text it spells. A literal is
therefore read in two steps, first to its code units and then, where
somebody wants the text, to characters.

## Main definitions

* `Json.quote`: A text as a string literal.
* `Json.readEscape`: The code unit after a backslash.
* `Json.readUnits`: The code units up to the closing quotation mark.
* `Json.joinUnits`: The characters that code units spell, if they do.

## Theorems

* `Json.length_of_readEscape`: An escape uses up characters.
* `Json.length_of_readUnits`: A literal uses up characters.
-/

namespace RespBus

namespace Json

/-- One character inside a string literal. -/
def quoteChar (c : Char) : List Char :=
  if c = '"' then ['\\', '"']
  else if c = '\\' then ['\\', '\\']
  else if c = '\x08' then ['\\', 'b']
  else if c = '\x0c' then ['\\', 'f']
  else if c = '\n' then ['\\', 'n']
  else if c = '\r' then ['\\', 'r']
  else if c = '\t' then ['\\', 't']
  else if c.toNat < 0x20 then
    ['\\', 'u', '0', '0', Nat.digitChar (c.toNat / 16), Nat.digitChar (c.toNat % 16)]
  else [c]

/-- A text as a string literal. -/
def quote (text : String) : List Char :=
  '"' :: text.toList.flatMap quoteChar ++ ['"']

/-- The value of a hexadecimal digit in either case. -/
def hexDigit? (c : Char) : Option Nat :=
  if '0' ≤ c ∧ c ≤ '9' then some (c.toNat - 48)
  else if 'a' ≤ c ∧ c ≤ 'f' then some (c.toNat - 87)
  else if 'A' ≤ c ∧ c ≤ 'F' then some (c.toNat - 55)
  else none

/-- The code unit that four hexadecimal digits spell. -/
def readHex : List Char → Option (Nat × List Char)
  | a :: b :: c :: d :: rest => do
    let a ← hexDigit? a
    let b ← hexDigit? b
    let c ← hexDigit? c
    let d ← hexDigit? d
    some (((a * 16 + b) * 16 + c) * 16 + d, rest)
  | _ => none

/-- The code unit that the letter of a short escape stands for. -/
def shortEscape? (c : Char) : Option Nat :=
  if c = '"' then some 0x22
  else if c = '\\' then some 0x5C
  else if c = '/' then some 0x2F
  else if c = 'b' then some 0x08
  else if c = 'f' then some 0x0C
  else if c = 'n' then some 0x0A
  else if c = 'r' then some 0x0D
  else if c = 't' then some 0x09
  else none

/-- The code unit that the characters after a backslash stand for. -/
def readEscape : List Char → Option (Nat × List Char)
  | [] => none
  | c :: rest =>
    if c = 'u' then readHex rest else (shortEscape? c).map fun unit => (unit, rest)

/-- An escape takes at least one character. -/
theorem length_of_readEscape {input rest : List Char} {unit : Nat}
    (h : readEscape input = some (unit, rest)) : rest.length < input.length := by
  rcases input with _ | ⟨c, tail⟩
  · exact absurd h (by simp only [readEscape, reduceCtorEq, not_false_eq_true])
  · simp only [readEscape] at h
    split at h
    · -- Four digits follow the letter, or it is no escape.
      rcases tail with _ | ⟨a, _ | ⟨b, _ | ⟨d, _ | ⟨e, tail⟩⟩⟩⟩
      all_goals simp only [readHex, reduceCtorEq] at h
      simp only [Option.bind_eq_bind, Option.bind_eq_some_iff, Option.some.injEq,
        Prod.mk.injEq] at h
      rcases h with ⟨_, _, _, _, _, _, _, _, _, hrest⟩
      simp only [← hrest, List.length_cons]
      omega
    · rw [Option.map_eq_some_iff] at h
      rcases h with ⟨_, _, hpair⟩
      simp only [Prod.mk.injEq] at hpair
      simp only [← hpair.2, List.length_cons]
      omega

/-- The code units up to the closing quotation mark, and what follows it.
    Nothing if the literal does not end, holds a raw control, or has a
    backslash before something that is no escape. -/
def readUnits (done : List Nat) (input : List Char) : Option (List Nat × List Char) :=
  match input with
  | [] => none
  | c :: rest =>
    if c = '"' then some (done.reverse, rest)
    else if c = '\\' then
      match h : readEscape rest with
      | none => none
      | some (unit, after) =>
        -- The escape used up characters.
        have := length_of_readEscape h
        readUnits (unit :: done) after
    else if c.toNat < 0x20 then none
    else readUnits (c.toNat :: done) rest
termination_by input.length

theorem length_of_readUnits {done units : List Nat} {input rest : List Char}
    (h : readUnits done input = some (units, rest)) : rest.length < input.length := by
  fun_induction readUnits done input with
  | case1 => exact absurd h (by simp only [reduceCtorEq, not_false_eq_true])
  | case2 =>
      simp only [Option.some.injEq, Prod.mk.injEq] at h
      simp only [← h.2, List.length_cons]
      omega
  | case3 => exact absurd h (by simp only [reduceCtorEq, not_false_eq_true])
  -- Both kinds of unit take at least one character.
  | case4 done tail unit after hescape _ _ ih =>
      have := length_of_readEscape hescape
      have := ih h
      simp only [List.length_cons]
      omega
  | case5 => exact absurd h (by simp only [reduceCtorEq, not_false_eq_true])
  | case6 done c tail _ _ _ ih =>
      have := ih h
      simp only [List.length_cons]
      omega

/-- The first half of a surrogate pair. -/
def isHighHalf (unit : Nat) : Bool :=
  0xD800 ≤ unit && unit < 0xDC00

/-- The second half of a surrogate pair. -/
def isLowHalf (unit : Nat) : Bool :=
  0xDC00 ≤ unit && unit < 0xE000

/-- The characters that code units spell, collected last first. A first half
    waits in `high` for its second half; a half that stands alone spells
    nothing. -/
def joinUnits (done : List Char) (high : Option Nat) : List Nat → Option (List Char)
  | [] => if high = none then some done.reverse else none
  | unit :: rest =>
    match high with
    | some half =>
      if isLowHalf unit then
        let code := 0x10000 + (half - 0xD800) * 0x400 + (unit - 0xDC00)
        joinUnits (Char.ofNat code :: done) none rest
      else none
    | none =>
      if isHighHalf unit then joinUnits done (some unit) rest
      else if isLowHalf unit then none
      else joinUnits (Char.ofNat unit :: done) none rest

end Json

end RespBus
