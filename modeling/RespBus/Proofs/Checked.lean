import RespBus.Reply.Header
import RespBus.Proofs.Reply.Integer

/-!
# Checked Machine Operations

Lengths and offsets are counted in machine words, and integers on the wire
are kept in 64 bits with a sign. A sum can then pass the range, a difference
can fall below zero, and a slice or an index can lie outside the bytes it is
taken from. Here such an operation has no result. A computation built from
checked operations has a result only if every operation it comes to has one,
so to show it safe is to show that it never gives `none`.

The words are the numbers below `range`, which is left open. Only the length
of a text is counted in them when an integer is read. The value is held at
the bounds of 64 bits after every digit, so neither of its two steps can
leave them, and the sign is put in front of a number whose opposite is there.

## Main definitions

* `Checked.add`, `Checked.sub`: Sums and differences of words.
* `Checked.slice`: The bytes between two offsets.
* `Checked.signed`, `Checked.saturate`: Integers of 64 bits.
* `Checked.toWord`: A signed integer as a word.
* `Checked.readDigits`, `Checked.readInteger`: Reading an integer by index.

## Theorems

* `Checked.add_eq_some_iff`: A sum is the sum, and a word.
* `Checked.slice_of_le`: A slice inside the bytes is there.
* `Checked.readDigits_eq`: The loop over the digits is safe.
* `Checked.readInteger_eq`: Reading an integer is safe, and reads what
  `readInteger` does.
-/

namespace RespBus

namespace Checked

/-- The sum of two words, if it is a word. -/
def add (range a b : Nat) : Option Nat :=
  if a + b < range then some (a + b) else none

/-- The difference of two words, if it is not negative. -/
def sub (a b : Nat) : Option Nat :=
  if b ≤ a then some (a - b) else none

/-- The bytes from `start` on and before `stop`, if both are offsets into the
    bytes and in this order. -/
def slice (bytes : Bytes) (start stop : Nat) : Option Bytes :=
  if start ≤ stop ∧ stop ≤ bytes.length then some ((bytes.drop start).take (stop - start))
  else none

/-- An integer that 64 bits with a sign can hold. -/
def signed (value : Int) : Option Int :=
  if -(Decimal.limit : Int) - 1 ≤ value ∧ value ≤ Decimal.limit then some value else none

/-- The integer of 64 bits with a sign that is nearest. -/
def saturate (value : Int) : Int :=
  max (-(Decimal.limit : Int) - 1) (min value Decimal.limit)

/-- A signed integer as a word, if it is one. -/
def toWord (range : Nat) (value : Int) : Option Nat :=
  if 0 ≤ value ∧ value < range then some value.toNat else none

theorem add_of_lt {range a b : Nat} (h : a + b < range) : add range a b = some (a + b) :=
  if_pos h

theorem add_eq_some_iff {range a b sum : Nat} :
    add range a b = some sum ↔ a + b < range ∧ sum = a + b := by
  rw [add, Option.ite_none_right_eq_some, Option.some.injEq, eq_comm]

theorem lt_of_add {range a b sum : Nat} (hb : 0 < b) (h : add range a b = some sum) :
    a < sum := by
  rw [(add_eq_some_iff.1 h).2]
  omega

theorem sub_of_le {a b : Nat} (h : b ≤ a) : sub a b = some (a - b) :=
  if_pos h

theorem slice_of_le {bytes : Bytes} {start stop : Nat} (hstart : start ≤ stop)
    (hstop : stop ≤ bytes.length) :
    slice bytes start stop = some ((bytes.drop start).take (stop - start)) :=
  if_pos ⟨hstart, hstop⟩

theorem toWord_of_lt {range n : Nat} (h : n < range) : toWord range n = some n := by
  rw [toWord, if_pos ⟨by omega, by omega⟩, Int.toNat_natCast]

/-- Reads digits from an offset on, onto the value of those before it. -/
def readDigits (range : Nat) (text : Bytes) (index : Nat) (value : Int) :
    Option (Except Fault Int) :=
  if hindex : index < text.length then do
    let b ← text[index]?
    if Decimal.isDigit b then
      let digit ← sub b.toNat 48
      match hnext : add range index 1 with
      | none => none
      | some next =>
        have := Nat.sub_lt_sub_left hindex (lt_of_add Nat.one_pos hnext)
        readDigits range text next (saturate (saturate (value * 10) + digit))
    else return .error .invalidInteger
  else return .ok value
termination_by text.length - index

/-- Reads the digits from an offset to the end, and puts the sign in front of
    their value. -/
def readMagnitude (range : Nat) (negative : Bool) (text : Bytes) (start : Nat) :
    Option (Except Fault Int) :=
  if start = text.length then some (.error .missingDigits)
  else do
    match ← readDigits range text start 0 with
    | .error fault => return .error fault
    | .ok value => if negative then return .ok (← signed (-value)) else return .ok value

/-- Reads the integer that a text spells, by offsets into the text. -/
def readInteger (range : Nat) (text : Bytes) : Option (Except Fault Int) :=
  if text = [] then some (.error .missingInteger)
  else do
    let first ← text[0]?
    if first = 45 then readMagnitude range true text 1 else readMagnitude range false text 0

-- A value that is not negative is held at the upper bound only, and holding
-- it there after the product as well makes no difference.
theorem saturate_digit {value digit : Nat} :
    saturate (saturate ((value : Int) * 10) + (digit : Int)) =
      (min (10 * value + digit) Decimal.limit : Nat) := by
  unfold saturate Decimal.limit
  omega

/-- The digits from an index on are read as without a bound. -/
theorem readDigits_eq {range : Nat} {text : Bytes} (hrange : text.length < range)
    (index value : Nat) :
    readDigits range text index value =
      some (match Decimal.readDigits value (text.drop index) with
        | none => .error .invalidInteger
        | some magnitude => .ok (magnitude : Int)) := by
  by_cases hindex : index < text.length
  · rw [readDigits, dif_pos hindex, List.drop_eq_getElem_cons hindex, Decimal.readDigits,
      List.getElem?_eq_getElem hindex, Option.bind_eq_bind, Option.bind_some]
    by_cases hdigit : Decimal.isDigit text[index] = true
    · -- A digit is not below the byte that is taken off it.
      have hlow : 48 ≤ text[index].toNat := by
        simp only [Decimal.isDigit, Bool.and_eq_true, decide_eq_true_eq,
          UInt8.le_iff_toNat_le, UInt8.reduceToNat] at hdigit
        exact hdigit.1
      rw [if_pos hdigit, if_pos hdigit, sub_of_le hlow, Option.bind_eq_bind, Option.bind_some]
      split
      · rename_i hnone
        rw [add_of_lt (by omega)] at hnone
        exact absurd hnone (Option.some_ne_none _)
      · rename_i next hnext
        rcases (add_eq_some_iff.1 hnext).2 with rfl
        rw [saturate_digit]
        exact readDigits_eq hrange (index + 1) _
    · rw [if_neg hdigit, if_neg hdigit]
      rfl
  · rw [readDigits, dif_neg hindex, List.drop_eq_nil_of_le (by omega), Decimal.readDigits]
    rfl
termination_by text.length - index

-- The magnitude is at most the upper bound, so its opposite is not below the
-- lower one.
/-- The magnitude is read as without a bound, and its opposite is in range. -/
theorem readMagnitude_eq {range : Nat} {text : Bytes} (hrange : text.length < range)
    (negative : Bool) {start : Nat} (hstart : start ≤ text.length) :
    readMagnitude range negative text start =
      some (if text.drop start = [] then .error .missingDigits
        else
          match Decimal.readDigits 0 (text.drop start) with
          | none => .error .invalidInteger
          | some magnitude => .ok (if negative then -(magnitude : Int) else magnitude)) := by
  have hread := readDigits_eq hrange start 0
  rw [Int.natCast_zero] at hread
  rw [readMagnitude, hread, Option.bind_eq_bind, Option.bind_some]
  by_cases hend : start = text.length
  · rw [if_pos hend, if_pos (List.drop_eq_nil_iff.2 (by omega))]
  · rw [if_neg hend, if_neg (fun hnil => hend (by have := List.drop_eq_nil_iff.1 hnil; omega))]
    rcases hdigits : Decimal.readDigits 0 (text.drop start) with _ | magnitude
    · rfl
    · have hheld := (Decimal.readDigits_zero_eq_some_iff.1 hdigits).2
      cases negative with
      | false => rfl
      | true =>
          have hsigned : signed (-(magnitude : Int)) = some (-(magnitude : Int)) :=
            if_pos (by unfold Decimal.limit at hheld ⊢; omega)
          simp only [if_true, hsigned]
          rfl

/-- Integers are read as without a bound. -/
theorem readInteger_eq {range : Nat} {text : Bytes} (hrange : text.length < range) :
    readInteger range text = some (RespBus.readInteger text) := by
  rcases text with _ | ⟨first, tail⟩
  · rfl
  · rw [readInteger, RespBus.readInteger, if_neg (List.cons_ne_nil first tail),
      if_neg (List.cons_ne_nil first tail), List.getElem?_cons_zero, Option.bind_eq_bind,
      Option.bind_some, splitSign]
    by_cases hminus : first = 45
    · have hsign : 1 ≤ (first :: tail).length := Nat.le_add_left 1 tail.length
      rw [if_pos hminus, if_pos hminus, readMagnitude_eq hrange true hsign]
      rfl
    · rw [if_neg hminus, if_neg hminus, readMagnitude_eq hrange false (Nat.zero_le _)]
      rfl

end Checked

end RespBus
