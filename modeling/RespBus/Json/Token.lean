import RespBus.Json.Number
import RespBus.Json.Text

/-!
# Lexemes of a Document

A document is first cut into lexemes: punctuation, words, numbers and string
literals, with blanks between them left out. Only what can be seen inside a
single lexeme is checked here. That a number has no leading zero, for one,
needs no check at all: `01` is the two numbers `0` and `1`, and no document
has two values next to each other.

Every reader of a lexeme gets the characters after the first one and leaves
no more than it got, so cutting ends.

## Main definitions

* `Json.Token`: A lexeme.
* `Json.nextToken`: The lexeme that starts with a given character.
* `Json.tokens`: The lexemes of a document.

## Theorems

* `Json.length_of_nextToken`: Reading a lexeme leaves no more than there was.
-/

namespace RespBus

namespace Json

/-- A lexeme of a document. -/
inductive Token where
  | openArray
  | closeArray
  | openObject
  | closeObject
  | comma
  | colon
  | null
  | bool (value : Bool)
  | number (value : Number)
  /-- The text is missing where the literal spells none. -/
  | text (content : Option String)
  deriving DecidableEq

/-- The characters that may stand between lexemes. -/
def isBlank (c : Char) : Bool :=
  c = ' ' || c = '\t' || c = '\n' || c = '\r'

/-- The digit values at the front of the input, and what follows them. -/
def spanDigits (input : List Char) : List Nat × List Char :=
  ((input.takeWhile Char.isDigit).map fun c => c.toNat - 48, input.dropWhile Char.isDigit)

/-- The digits before the point: a lone zero, or digits that start with
    another one. -/
def readWhole : List Char → Option (List Nat × List Char)
  | [] => none
  | c :: rest =>
    if c = '0' then some ([0], rest)
    else if c.isDigit then some (spanDigits (c :: rest))
    else none

/-- The digits after a point, at least one, where there is a point. -/
def readFraction : List Char → Option (List Nat × List Char)
  | [] => some ([], [])
  | c :: rest =>
    if c = '.' then
      let (digits, after) := spanDigits rest
      if digits = [] then none else some (digits, after)
    else some ([], c :: rest)

/-- The sign of an exponent, as whether it is negative. -/
def readSign : List Char → Bool × List Char
  | [] => (false, [])
  | c :: rest =>
    if c = '-' then (true, rest) else if c = '+' then (false, rest) else (false, c :: rest)

/-- The exponent, at least one digit, where there is one. -/
def readExponent : List Char → Option (Option Int × List Char)
  | [] => some (none, [])
  | c :: rest =>
    if c = 'e' ∨ c = 'E' then
      let (negative, rest) := readSign rest
      let (digits, after) := spanDigits rest
      if digits = [] then none
      else
        let magnitude : Int := Decimal.value digits
        some (some (if negative then -magnitude else magnitude), after)
    else some (none, c :: rest)

/-- A number literal after its sign. -/
def readNumber (negative : Bool) (input : List Char) : Option (Token × List Char) := do
  let (whole, rest) ← readWhole input
  let (fraction, rest) ← readFraction rest
  let (exponent, rest) ← readExponent rest
  some (.number ⟨negative, whole, fraction, exponent⟩, rest)

/-- The rest of a word whose first character is gone. -/
def readWord (word : List Char) (token : Token) (input : List Char) :
    Option (Token × List Char) :=
  if word.isPrefixOf input then some (token, input.drop word.length) else none

/-- A string literal after its opening quotation mark. -/
def readString (input : List Char) : Option (Token × List Char) := do
  let (units, rest) ← readUnits [] input
  some (.text ((joinUnits [] none units).map String.ofList), rest)

/-- The lexeme that a single character is. -/
def mark? (c : Char) : Option Token :=
  if c = '[' then some .openArray
  else if c = ']' then some .closeArray
  else if c = '\x7b' then some .openObject
  else if c = '\x7d' then some .closeObject
  else if c = ',' then some .comma
  else if c = ':' then some .colon
  else none

/-- The word that a character starts, without that character, and the lexeme
    the word is. -/
def word? (c : Char) : Option (List Char × Token) :=
  if c = 'n' then some (['u', 'l', 'l'], .null)
  else if c = 't' then some (['r', 'u', 'e'], .bool true)
  else if c = 'f' then some (['a', 'l', 's', 'e'], .bool false)
  else none

/-- The lexeme that starts with `c`, and what follows it. -/
def nextToken (c : Char) (rest : List Char) : Option (Token × List Char) :=
  match mark? c with
  | some token => some (token, rest)
  | none =>
    match word? c with
    | some (word, token) => readWord word token rest
    | none =>
      if c = '"' then readString rest
      else if c = '-' then readNumber true rest
      else readNumber false (c :: rest)

theorem length_spanDigits (input : List Char) : (spanDigits input).2.length ≤ input.length :=
  (List.dropWhile_sublist _).length_le

theorem length_of_readWhole {input rest : List Char} {digits : List Nat}
    (h : readWhole input = some (digits, rest)) : rest.length < input.length := by
  rcases input with _ | ⟨c, tail⟩
  · exact absurd h (by simp only [readWhole, reduceCtorEq, not_false_eq_true])
  · simp only [readWhole] at h
    split at h
    · simp only [Option.some.injEq, Prod.mk.injEq] at h
      simp only [← h.2, List.length_cons]
      omega
    · split at h
      · -- The first digit is taken, and perhaps others.
        rename_i hdigit
        simp only [Option.some.injEq, spanDigits, List.dropWhile_cons_of_pos hdigit,
          Prod.mk.injEq] at h
        have := (List.dropWhile_sublist Char.isDigit (l := tail)).length_le
        simp only [← h.2, List.length_cons]
        omega
      · exact absurd h (by simp only [reduceCtorEq, not_false_eq_true])

theorem length_of_readFraction {input rest : List Char} {digits : List Nat}
    (h : readFraction input = some (digits, rest)) : rest.length ≤ input.length := by
  rcases input with _ | ⟨c, tail⟩
  · simp only [readFraction, Option.some.injEq, Prod.mk.injEq] at h
    simp only [← h.2, Nat.le_refl]
  · simp only [readFraction] at h
    split at h
    · have := length_spanDigits tail
      split at h
      · exact absurd h (by simp only [reduceCtorEq, not_false_eq_true])
      · simp only [Option.some.injEq, Prod.mk.injEq] at h
        simp only [← h.2, List.length_cons]
        omega
    · simp only [Option.some.injEq, Prod.mk.injEq] at h
      simp only [← h.2, Nat.le_refl]

theorem length_readSign (input : List Char) : (readSign input).2.length ≤ input.length := by
  rcases input with _ | ⟨c, tail⟩
  · simp only [readSign, Nat.le_refl]
  · simp only [readSign]
    split
    · simp only [List.length_cons, Nat.le_add_right]
    · split
      · simp only [List.length_cons, Nat.le_add_right]
      · simp only [Nat.le_refl]

theorem length_of_readExponent {input rest : List Char} {exponent : Option Int}
    (h : readExponent input = some (exponent, rest)) : rest.length ≤ input.length := by
  rcases input with _ | ⟨c, tail⟩
  · simp only [readExponent, Option.some.injEq, Prod.mk.injEq] at h
    simp only [← h.2, Nat.le_refl]
  · simp only [readExponent] at h
    split at h
    · -- After the letter come a sign, if there is one, and digits.
      have hsign := length_readSign tail
      have hspan := length_spanDigits (readSign tail).2
      split at h
      · exact absurd h (by simp only [reduceCtorEq, not_false_eq_true])
      · simp only [Option.some.injEq, Prod.mk.injEq] at h
        simp only [← h.2, List.length_cons]
        omega
    · simp only [Option.some.injEq, Prod.mk.injEq] at h
      simp only [← h.2, Nat.le_refl]

/-- A number takes at least one character. -/
theorem length_of_readNumber {negative : Bool} {input rest : List Char} {token : Token}
    (h : readNumber negative input = some (token, rest)) : rest.length < input.length := by
  simp only [readNumber, Option.bind_eq_bind, Option.bind_eq_some_iff, Prod.exists,
    Option.some.injEq, Prod.mk.injEq] at h
  rcases h with ⟨whole, rest₁, hwhole, fraction, rest₂, hfraction, exponent, rest₃, hexponent,
    _, rfl⟩
  have := length_of_readWhole hwhole
  have := length_of_readFraction hfraction
  have := length_of_readExponent hexponent
  omega

theorem length_of_readWord {word input rest : List Char} {token token' : Token}
    (h : readWord word token input = some (token', rest)) : rest.length ≤ input.length := by
  simp only [readWord] at h
  split at h
  · simp only [Option.some.injEq, Prod.mk.injEq] at h
    simp only [← h.2, List.length_drop, Nat.sub_le]
  · exact absurd h (by simp only [reduceCtorEq, not_false_eq_true])

theorem length_of_readString {input rest : List Char} {token : Token}
    (h : readString input = some (token, rest)) : rest.length ≤ input.length := by
  simp only [readString, Option.bind_eq_bind, Option.bind_eq_some_iff, Prod.exists,
    Option.some.injEq, Prod.mk.injEq] at h
  rcases h with ⟨units, rest₁, hunits, _, rfl⟩
  exact Nat.le_of_lt (length_of_readUnits hunits)

/-- Whatever a token takes behind its first character, the input only gets
    shorter. -/
theorem length_of_nextToken {c : Char} {input rest : List Char} {token : Token}
    (h : nextToken c input = some (token, rest)) : rest.length ≤ input.length := by
  simp only [nextToken] at h
  split at h
  · simp only [Option.some.injEq, Prod.mk.injEq] at h
    simp only [← h.2, Nat.le_refl]
  · split at h
    · exact length_of_readWord h
    · split at h
      · exact length_of_readString h
      · split at h
        · exact Nat.le_of_lt (length_of_readNumber h)
        · have := length_of_readNumber h
          simp only [List.length_cons] at this
          omega

/-- The lexemes of the input after those already found, last first. -/
def tokensOnto (done : List Token) (input : List Char) : Option (List Token) :=
  match input with
  | [] => some done.reverse
  | c :: rest =>
    if isBlank c then tokensOnto done rest
    else
      match h : nextToken c rest with
      | none => none
      | some (token, after) =>
        -- The lexeme took its first character.
        have := length_of_nextToken h
        tokensOnto (token :: done) after
termination_by input.length

/-- The lexemes of a document; nothing if some part of it is none. -/
def tokens (document : List Char) : Option (List Token) :=
  tokensOnto [] document

end Json

end RespBus
