import RespBus.Reply.Progress

/-!
# Reply Headers

Every reply starts with a header line, and the first byte of the line says
what kind of reply it is. The header settles what follows: nothing for
simple strings, errors, integers and the null, a counted run of bytes for a
bulk string, a counted run of replies for an array.

Headers are read once here and used by everything that walks over replies,
whether it keeps the values or only measures them. A walker then decides
nothing about spelling.

Integers are spelled as an optional minus sign and at least one digit. They
are clamped to what 64 bits hold with the same bound on both sides, so the
least integer a reply can carry is `-(2 ^ 63 - 1)`.

## Main definitions

* `readInteger`: The clamped value of an integer's spelling.
* `Header`: What a header line announces.
* `Header.ofLine`: The header that a line spells.
* `takeBulk`: The counted bytes of a bulk string and what follows them.

## Theorems

* `Header.length_pos_of_ofLine`: An empty line is no header.
* `length_of_takeBulk`: A bulk string takes its bytes and a line end.
-/

namespace RespBus

/-- A minus sign and the bytes after it, or all the bytes. -/
def splitSign : Bytes → Bool × Bytes
  | [] => (false, [])
  | b :: rest => if b = 45 then (true, rest) else (false, b :: rest)

/-- The integer that the bytes spell, clamped to `Decimal.limit` on both
    sides. Leading zeros are allowed; a plus sign and blanks are not. -/
def readInteger (text : Bytes) : Except Fault Int :=
  if text = [] then .error .missingInteger
  else
    let (negative, digits) := splitSign text
    if digits = [] then .error .missingDigits
    else
      match Decimal.readDigits 0 digits with
      | none => .error .invalidInteger
      | some magnitude => .ok (if negative then -(magnitude : Int) else magnitude)

/-- What a header line announces. -/
inductive Header where
  /-- A simple string, complete with this line. -/
  | simple (text : Bytes)
  /-- An error, complete with this line. -/
  | error (text : Bytes)
  /-- An integer, complete with this line. -/
  | integer (value : Int)
  /-- The null, complete with this line. -/
  | null
  /-- A bulk string of that many bytes. -/
  | bulk (length : Nat)
  /-- An array of that many replies. -/
  | array (count : Nat)
  deriving DecidableEq

namespace Header

/-- The header of a bulk string whose length is spelled by `text`. Any
    negative length announces the null. -/
def ofBulkLength (text : Bytes) : Except Fault Header :=
  match readInteger text with
  | .error fault => .error fault
  | .ok length =>
    if (maxBulkLength : Int) < length then .error (.bulkTooLong length.toNat)
    else if length < 0 then .ok .null
    else .ok (.bulk length.toNat)

/-- The header of an array whose count is spelled by `text`. A negative
    count announces an empty array. -/
def ofArrayCount (text : Bytes) : Except Fault Header :=
  match readInteger text with
  | .error fault => .error fault
  | .ok count => .ok (.array count.toNat)

/-- The header that a line spells, without its line end. -/
def ofLine : Bytes → Except Fault Header
  | [] => .error .emptyLine
  | kind :: text =>
    if kind = 43 then .ok (.simple text)
    else if kind = 45 then .ok (.error text)
    else if kind = 58 then (readInteger text).map .integer
    else if kind = 36 then ofBulkLength text
    else if kind = 42 then ofArrayCount text
    else .error (.unknownKind kind)

/-- An empty line is no header. -/
theorem length_pos_of_ofLine {line : Bytes} {header : Header} (h : ofLine line = .ok header) :
    1 ≤ line.length := by
  rcases line with _ | ⟨kind, text⟩
  · exact absurd h (by simp only [ofLine, reduceCtorEq, not_false_eq_true])
  · simp only [List.length_cons]
    omega

end Header

/-- The first `length` bytes and what follows the line end after them. It is
    too early to complain about the line end until both its bytes are there. -/
def takeBulk (length : Nat) (input : Bytes) : Progress (Bytes × Bytes) :=
  match input.drop length with
  | first :: second :: rest =>
    if first = Bytes.cr ∧ second = Bytes.lf then .complete (input.take length, rest)
    else .invalid .unterminatedBulk
  | _ => .incomplete

/-- Bulk data takes its own length and two bytes more. -/
theorem length_of_takeBulk {length : Nat} {input data rest : Bytes}
    (h : takeBulk length input = .complete (data, rest)) :
    length + 2 + rest.length = input.length := by
  simp only [takeBulk] at h
  split at h
  · rename_i first second tail hdrop
    split at h
    · simp only [Progress.complete.injEq, Prod.mk.injEq] at h
      have hlen := congrArg List.length hdrop
      simp only [List.length_drop, List.length_cons] at hlen
      rw [← h.2]
      omega
    · exact absurd h (by simp only [reduceCtorEq, not_false_eq_true])
  · exact absurd h (by simp only [reduceCtorEq, not_false_eq_true])

end RespBus
