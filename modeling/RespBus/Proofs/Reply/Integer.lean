import RespBus.Proofs.Decimal
import RespBus.Reply.Header

/-!
# Spelled Integers

An integer on the wire is an optional minus sign and at least one digit, and
it stands for the number the digits spell, held between two bounds that are
alike on both sides. `SpellsInteger` says so in one rule for each sign, with
the number of any number of digits first and the bounds afterwards.

The reader holds the value at the bound after every digit and looks at the
sign in the end. That makes no difference: a value that has reached the bound
does not come back below it, since every further digit multiplies by ten.
`readDigits_of_isDigit` is the induction on the digits, with the value before
them general.

## Main definitions

* `Decimal.natural`: The number that ASCII digits spell.
* `heldInteger`: An integer held between the bounds of the wire.
* `SpellsInteger`: The texts of an integer.
* `Denotes`: The integer that a text writes out, of any magnitude.
* `integerFaults`: What can be wrong with the text of an integer.

## Theorems

* `Decimal.readDigits_of_isDigit`: Digits are read up to the bound.
* `Decimal.isDigit_of_readDigits`: Nothing but digits is read.
* `spellsInteger_iff`: What is spelled is what is written, held in bounds.
* `SpellsInteger.toBytes`: A number is spelled by its digits.
* `SpellsInteger.cr_notMem`: No line ends inside the text of an integer.
* `readInteger_eq_ok_iff`: What is read is what is spelled.
* `readInteger_error_cases`: What is wrong with a text that cannot be read.
-/

namespace RespBus

namespace Decimal

/-- The number that ASCII digits spell, however many there are. -/
def natural (digits : Bytes) : Nat :=
  value (digits.map fun b => b.toNat - 48)

-- Holding the value at the limit before a digit or after it comes to the same.
theorem readDigits_of_isDigit {digits : Bytes} (h : ∀ b ∈ digits, isDigit b = true) :
    ∀ seen, readDigits (min seen limit) digits =
      some (min (digits.foldl (fun v b => 10 * v + (b.toNat - 48)) seen) limit) := by
  induction digits with
  | nil =>
      intro seen
      rfl
  | cons b rest ih =>
      intro seen
      have hheld : min (10 * min seen limit + (b.toNat - 48)) limit =
          min (10 * seen + (b.toNat - 48)) limit := by
        unfold limit
        omega
      rw [readDigits, if_pos (h b List.mem_cons_self), hheld,
        ih (fun c hc => h c (List.mem_cons_of_mem b hc))]
      rfl

/-- What is read as a number is all digits. -/
theorem isDigit_of_readDigits {digits : Bytes} {seen n : Nat}
    (h : readDigits seen digits = some n) : ∀ b ∈ digits, isDigit b = true := by
  induction digits generalizing seen with
  | nil =>
      intro b hb
      exact absurd hb List.not_mem_nil
  | cons b rest ih =>
      rw [readDigits] at h
      by_cases hdigit : isDigit b = true
      · rw [if_pos hdigit] at h
        exact List.forall_mem_cons.2 ⟨hdigit, ih h⟩
      · rw [if_neg hdigit] at h
        exact absurd h (by simp only [reduceCtorEq, not_false_eq_true])

/-- Digits are read as their value, held at the limit. -/
theorem readDigits_zero_eq_some_iff {digits : Bytes} {n : Nat} :
    readDigits 0 digits = some n ↔
      (∀ b ∈ digits, isDigit b = true) ∧ n = min (natural digits) limit := by
  have hread : (∀ b ∈ digits, isDigit b = true) →
      readDigits 0 digits = some (min (natural digits) limit) := by
    intro hdigits
    rw [natural, value, List.foldl_map]
    exact readDigits_of_isDigit hdigits 0
  constructor
  · intro h
    have hdigits := isDigit_of_readDigits h
    rw [hread hdigits, Option.some.injEq] at h
    exact ⟨hdigits, h.symm⟩
  · rintro ⟨hdigits, rfl⟩
    exact hread hdigits

/-- A number that is written is read back. -/
theorem natural_toBytes (n : Nat) : natural (toBytes n) = n := by
  rw [natural, values_toBytes, value_digits]

end Decimal

/-- An integer held between the bounds of the wire, `2 ^ 63 - 1` on both
    sides. -/
def heldInteger (n : Int) : Int :=
  max (-9223372036854775807) (min n 9223372036854775807)

/-- The texts of an integer: an optional minus sign and at least one digit.
    The integer is the number they spell, held between the bounds. -/
inductive SpellsInteger : Bytes → Int → Prop where
  | plain {digits : Bytes} (hsome : digits ≠ [])
      (hdigits : ∀ b ∈ digits, Decimal.isDigit b = true) :
      SpellsInteger digits (heldInteger (Decimal.natural digits))
  | minus {digits : Bytes} (hsome : digits ≠ [])
      (hdigits : ∀ b ∈ digits, Decimal.isDigit b = true) :
      SpellsInteger (45 :: digits) (heldInteger (-(Decimal.natural digits : Int)))

/-- The integer that a text writes out: an optional minus sign and at least one
    digit, however many there are. -/
inductive Denotes : Bytes → Int → Prop where
  | plain {digits : Bytes} (hsome : digits ≠ [])
      (hdigits : ∀ b ∈ digits, Decimal.isDigit b = true) : Denotes digits (Decimal.natural digits)
  | minus {digits : Bytes} (hsome : digits ≠ [])
      (hdigits : ∀ b ∈ digits, Decimal.isDigit b = true) :
      Denotes (45 :: digits) (-(Decimal.natural digits : Int))

/-- What is spelled is what is written, held between the bounds. -/
theorem spellsInteger_iff {text : Bytes} {value : Int} :
    SpellsInteger text value ↔ ∃ n, Denotes text n ∧ value = heldInteger n := by
  constructor
  · intro h
    cases h with
    | plain hsome hdigits => exact ⟨_, .plain hsome hdigits, rfl⟩
    | minus hsome hdigits => exact ⟨_, .minus hsome hdigits, rfl⟩
  · rintro ⟨n, hdenotes, rfl⟩
    cases hdenotes with
    | plain hsome hdigits => exact .plain hsome hdigits
    | minus hsome hdigits => exact .minus hsome hdigits

/-- A text that denotes a number spells it as far as the words go. -/
theorem Denotes.spells {text : Bytes} {n : Int} (h : Denotes text n) :
    SpellsInteger text (heldInteger n) :=
  spellsInteger_iff.2 ⟨n, h, rfl⟩

/-- A number is spelled by its digits, unless it is out of bounds. -/
theorem SpellsInteger.toBytes {n : Nat} (h : n ≤ Decimal.limit) :
    SpellsInteger (Decimal.toBytes n) n := by
  have hspelled := plain (Decimal.toBytes_ne_nil n) fun _ => Decimal.isDigit_of_mem_toBytes
  have hheld : heldInteger n = n := by
    unfold heldInteger
    unfold Decimal.limit at h
    omega
  rw [Decimal.natural_toBytes, hheld] at hspelled
  exact hspelled

/-- No CR is part of an integer. -/
theorem SpellsInteger.cr_notMem {text : Bytes} {value : Int} (h : SpellsInteger text value) :
    Bytes.cr ∉ text := by
  have hdigit : Decimal.isDigit Bytes.cr = false := rfl
  cases h with
  | plain hsome hdigits =>
      intro hcr
      exact absurd (hdigits Bytes.cr hcr) (by rw [hdigit]; exact Bool.false_ne_true)
  | minus hsome hdigits =>
      rw [List.mem_cons, not_or]
      refine ⟨by decide, fun hcr => ?_⟩
      exact absurd (hdigits Bytes.cr hcr) (by rw [hdigit]; exact Bool.false_ne_true)

/-- The sign and the digits are the whole text. -/
theorem eq_of_splitSign {text digits : Bytes} {negative : Bool}
    (h : splitSign text = (negative, digits)) :
    text = if negative then 45 :: digits else digits := by
  rcases text with _ | ⟨b, rest⟩
  · simp only [splitSign, Prod.mk.injEq] at h
    rw [← h.1, ← h.2]
    rfl
  · rw [splitSign] at h
    by_cases hb : b = 45
    · rw [if_pos hb, Prod.mk.injEq] at h
      rw [← h.1, ← h.2, hb]
      rfl
    · rw [if_neg hb, Prod.mk.injEq] at h
      rw [← h.1, ← h.2]
      rfl

/-- A text that starts with a digit has no sign. -/
theorem splitSign_of_isDigit {b : UInt8} (h : Decimal.isDigit b = true) (rest : Bytes) :
    splitSign (b :: rest) = (false, b :: rest) := by
  have hb : b ≠ 45 := by
    rintro rfl
    exact absurd h (by decide)
  rw [splitSign, if_neg hb]

-- The sign and the digits are looked at apart, so reading is one equation.
theorem readInteger_of_splitSign {text digits : Bytes} {negative : Bool} (htext : text ≠ [])
    (hsplit : splitSign text = (negative, digits)) (hsome : digits ≠ [])
    (hdigits : ∀ b ∈ digits, Decimal.isDigit b = true) :
    readInteger text = .ok (heldInteger
      (if negative then -(Decimal.natural digits : Int) else Decimal.natural digits)) := by
  have hread := Decimal.readDigits_zero_eq_some_iff.2 ⟨hdigits, rfl⟩
  rw [readInteger, if_neg htext, hsplit]
  simp only [if_neg hsome, hread, Except.ok.injEq]
  unfold heldInteger Decimal.limit
  -- The two bounds are opposites, so to hold the magnitude and then put the sign
  -- in front comes to the same as holding the number.
  cases negative with
  | false =>
      simp only [Bool.false_eq_true, if_false]
      omega
  | true =>
      simp only [if_true]
      omega

/-- A text that is read has digits after its sign, and nothing else. -/
theorem digits_of_readInteger {text digits : Bytes} {negative : Bool} {value : Int}
    (hsplit : splitSign text = (negative, digits)) (h : readInteger text = .ok value) :
    text ≠ [] ∧ digits ≠ [] ∧ ∀ b ∈ digits, Decimal.isDigit b = true := by
  by_cases htext : text = []
  · rw [readInteger, if_pos htext] at h
    exact absurd h (by simp only [reduceCtorEq, not_false_eq_true])
  · rw [readInteger, if_neg htext, hsplit] at h
    by_cases hsome : digits = []
    · simp only [if_pos hsome, reduceCtorEq] at h
    · simp only [if_neg hsome] at h
      split at h
      · exact absurd h (by simp only [reduceCtorEq, not_false_eq_true])
      · rename_i magnitude hmagnitude
        exact ⟨htext, hsome, Decimal.isDigit_of_readDigits hmagnitude⟩

/-- What is read is what is spelled. -/
theorem readInteger_eq_ok_iff {text : Bytes} {value : Int} :
    readInteger text = .ok value ↔ SpellsInteger text value := by
  constructor
  · intro h
    -- What stands after the sign is all digits, or nothing would have been
    -- read.
    rcases hsplit : splitSign text with ⟨negative, digits⟩
    rcases digits_of_readInteger hsplit h with ⟨htext, hsome, hdigits⟩
    rw [readInteger_of_splitSign htext hsplit hsome hdigits, Except.ok.injEq] at h
    rw [← h, eq_of_splitSign hsplit]
    cases negative with
    | false => exact .plain hsome hdigits
    | true => exact .minus hsome hdigits
  · intro h
    cases h with
    | plain hsome hdigits =>
        rcases text with _ | ⟨b, rest⟩
        · exact absurd rfl hsome
        · -- A digit in front is no sign.
          have hsplit := splitSign_of_isDigit (hdigits b List.mem_cons_self) rest
          exact readInteger_of_splitSign hsome hsplit hsome hdigits
    | @minus digits hsome hdigits =>
        exact readInteger_of_splitSign (List.cons_ne_nil 45 digits) rfl hsome hdigits

/-- What is wrong with a text that cannot be read. -/
theorem readInteger_error_cases {text : Bytes} {fault : Fault}
    (h : readInteger text = .error fault) :
    (text = [] ∧ fault = .missingInteger) ∨ (text = [45] ∧ fault = .missingDigits) ∨
      (text ≠ [] ∧ text ≠ [45] ∧ fault = .invalidInteger) := by
  by_cases htext : text = []
  · rw [readInteger, if_pos htext, Except.error.injEq] at h
    exact Or.inl ⟨htext, h.symm⟩
  · rcases hsplit : splitSign text with ⟨negative, digits⟩
    have heq := eq_of_splitSign hsplit
    rw [readInteger, if_neg htext, hsplit] at h
    by_cases hnone : digits = []
    · -- The text is not empty, so it is the sign that was taken off.
      simp only [if_pos hnone, Except.error.injEq] at h
      cases negative with
      | false => exact absurd (heq.trans hnone) htext
      | true => exact Or.inr (Or.inl ⟨heq.trans (congrArg (List.cons 45) hnone), h.symm⟩)
    · simp only [if_neg hnone] at h
      split at h
      · rw [Except.error.injEq] at h
        refine Or.inr (Or.inr ⟨htext, fun hminus => ?_, h.symm⟩)
        -- After a lone minus sign there would be no digits.
        rw [hminus] at hsplit
        exact hnone (congrArg Prod.snd hsplit).symm
      · exact absurd h (by simp only [reduceCtorEq, not_false_eq_true])

/-- What can be wrong with the text of an integer. -/
def integerFaults : List Fault :=
  [.missingInteger, .missingDigits, .invalidInteger]

/-- A text that is not read has one of three faults. -/
theorem mem_integerFaults {text : Bytes} {fault : Fault} (h : readInteger text = .error fault) :
    fault ∈ integerFaults := by
  rcases readInteger_error_cases h with ⟨_, rfl⟩ | ⟨_, rfl⟩ | ⟨_, _, rfl⟩ <;> decide

end RespBus
