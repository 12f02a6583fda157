import RespBus.Json.Text

/-!
# The Inside of a String Literal

Reading a literal goes through code units, one at a time: a character that
stands for itself, or an escape. The lemmas here say what one unit does to
`readUnits`. Beside them stands what is written for a character, with the
letters of the short escapes in a list.

## Main definitions

* `Json.shortlyEscaped`: The characters that are escaped by a letter.

## Theorems

* `Json.readUnits_end`, `Json.readUnits_escape`, `Json.readUnits_plain`: One
  unit of a literal.
* `Json.quoteChar_of_notMem`: What is written for the other characters.
* `Json.not_half_toNat`: No character is half of a surrogate pair.
-/

namespace RespBus

namespace Json

theorem readUnits_end (done : List Nat) (rest : List Char) :
    readUnits done ('"' :: rest) = some (done.reverse, rest) := by
  rw [readUnits, if_pos rfl]

theorem readUnits_escape {input after : List Char} {unit : Nat}
    (h : readEscape input = some (unit, after)) (done : List Nat) :
    readUnits done ('\\' :: input) = readUnits (unit :: done) after := by
  rw [readUnits, if_neg (by decide), if_pos rfl]
  split
  · rename_i heq
    rw [h] at heq
    exact absurd heq (by simp only [reduceCtorEq, not_false_eq_true])
  · rename_i heq
    rw [h, Option.some.injEq, Prod.mk.injEq] at heq
    simp only [heq.1, heq.2]

theorem readUnits_plain {c : Char} (hquote : c ≠ '"') (hslash : c ≠ '\\')
    (hcontrol : ¬ c.toNat < 0x20) (done : List Nat) (rest : List Char) :
    readUnits done (c :: rest) = readUnits (c.toNat :: done) rest := by
  rw [readUnits, if_neg hquote, if_neg hslash, if_neg hcontrol]

/-- The characters that are written as a backslash and a letter, or as a
    backslash and themselves. -/
def shortlyEscaped : List Char :=
  ['"', '\\', '\x08', '\x0c', '\n', '\r', '\t']

/-- A character without a short escape is written as it is, unless it is a
    control character. -/
theorem quoteChar_of_notMem {c : Char} (h : c ∉ shortlyEscaped) :
    quoteChar c =
      if c.toNat < 0x20 then
        ['\\', 'u', '0', '0', Nat.digitChar (c.toNat / 16), Nat.digitChar (c.toNat % 16)]
      else [c] := by
  simp only [shortlyEscaped, List.mem_cons, List.not_mem_nil, or_false, not_or] at h
  rcases h with ⟨hquote, hslash, hbackspace, hpage, hline, hreturn, htab⟩
  rw [quoteChar, if_neg hquote, if_neg hslash, if_neg hbackspace, if_neg hpage, if_neg hline,
    if_neg hreturn, if_neg htab]

/-- No character is half of a pair. -/
theorem not_half_toNat (c : Char) :
    isHighHalf c.toNat = false ∧ isLowHalf c.toNat = false := by
  have hvalid : c.toNat < 0xD800 ∨ (0xDFFF < c.toNat ∧ c.toNat < 0x110000) := c.valid
  simp only [isHighHalf, isLowHalf, Bool.and_eq_false_iff, decide_eq_false_iff_not]
  omega

end Json

end RespBus
