import RespBus.Proofs.Checked
import RespBus.Proofs.Scanner.Rounds

/-!
# Scanning by Offsets

A scanner in a machine does not cut its input down. It keeps offsets into the
buffer it is given, adds to them, and takes slices between them. Here is that
scan, with every operation checked: it has no result as soon as a sum of
words passes the range, a slice or an index leaves the buffer, a length does
not fit a word, or a count would fall below zero.

Nothing ties the offsets a scanner has kept to the buffer of the next call.
So the scan is defined for any scanner and any buffer, and `Outcome` says what
a round can come to with no assumption on either. A round that goes on moves
the cursor forward and leaves it inside the buffer; that is why the scan ends,
and the definition of `scan` rests on it.

## Main definitions

* `Checked.findLineEnd`: The offset of the first line end from an offset on.
* `Checked.close`: The open arrays after one more element.
* `Checked.Round`: What a round comes to, the bytes ahead left out.
* `Checked.reading`: A number after the kind byte, and what is done with it.
* `Checked.startBulk`, `Checked.startArray`: What a length or a count leads to.
* `Checked.readHeader`: What a header line announces, by offsets.
* `Checked.round`: One header line, by offsets.
* `Checked.Outcome`: Everything a round can come to.
* `Checked.scan`: Rounds to the end of the reply.

## Theorems

* `Bytes.splitLine_eq_lineEnd?`: A line ends where the first of all pairs of
  neighbours is CR LF.
* `Checked.outcome_of_round`: A round comes to one of six ends.
* `Checked.forward_of_round`: A round that goes on moves the cursor forward,
  inside the buffer.
-/

namespace RespBus

namespace Bytes

/-- The offset of the first CR LF. -/
def lineEnd? (input : Bytes) : Option Nat :=
  (input.zip input.tail).findIdx? fun pair => pair = (cr, lf)

/-- A line ends at the first byte or where a line of the rest does. -/
theorem lineEnd?_cons (b : UInt8) (rest : Bytes) :
    lineEnd? (b :: rest) =
      if b = cr ∧ rest.head? = some lf then some 0 else (lineEnd? rest).map (· + 1) := by
  rcases rest with _ | ⟨c, tail⟩
  · simp only [List.head?_nil, reduceCtorEq, and_false, if_false]
    rfl
  · rw [lineEnd?, List.tail_cons, List.zip_cons_cons, List.findIdx?_cons]
    simp only [decide_eq_true_eq, Prod.mk.injEq, List.head?_cons, Option.some.injEq]
    rfl

/-- A line is found by its content just as it is by the offset of its end. -/
theorem splitLine_eq_lineEnd? (input : Bytes) :
    splitLine input = (lineEnd? input).map fun i => (input.take i, input.drop (i + 2)) := by
  induction input with
  | nil => rfl
  | cons b rest ih =>
      rw [splitLine_cons, lineEnd?_cons, ih]
      by_cases hhere : b = cr ∧ rest.head? = some lf
      · rw [if_pos hhere, if_pos hhere, Option.map_some, List.take_zero, List.drop_succ_cons,
          List.drop_one]
      · rw [if_neg hhere, if_neg hhere, Option.map_map, Option.map_map]
        rfl

/-- Both bytes of a line end lie inside. -/
theorem length_of_lineEnd? {input : Bytes} {i : Nat} (h : lineEnd? input = some i) :
    i + 2 ≤ input.length := by
  rw [lineEnd?, List.findIdx?_eq_some_iff_getElem] at h
  rcases h with ⟨hlt, -⟩
  rw [List.length_zip, List.length_tail] at hlt
  omega

end Bytes

namespace Checked

/-- The offset of the first line end that starts at `start` or after it. -/
def findLineEnd (range : Nat) (buffer : Bytes) (start : Nat) : Option (Option Nat) :=
  match Bytes.lineEnd? (buffer.drop start) with
  | none => some none
  | some offset => (add range start offset).map some

/-- The open arrays after one more finished element. -/
def close : List Nat → Option (List Nat)
  | [] => some []
  | lacking :: outer => do
    let left ← sub lacking 1
    if 0 < left then return left :: outer else close outer

/-- What a round comes to: the scan ends, or goes on with another header. -/
inductive Round where
  /-- The scan ends with this answer and leaves this scanner. -/
  | done (answer : Progress Nat) (scanner : Scanner)
  /-- The scan goes on from this scanner's cursor. -/
  | again (scanner : Scanner)
  deriving DecidableEq

/-- An element ends at offset `stop`. -/
def finish (scanner : Scanner) (stop : Nat) : Option Round := do
  let missing ← close scanner.missing
  return if missing = [] then .done (.complete stop) {} else .again ⟨stop, stop, missing⟩

/-- Reads the number after the kind byte of a header and goes on with it. A
    fault ends the scan. -/
def reading (range : Nat) (scanner : Scanner) (line : Bytes) (next : Int → Option Round) :
    Option Round := do
  match ← readInteger range (← slice line 1 line.length) with
  | .error fault => return .done (.invalid fault) scanner
  | .ok value => next value

/-- Passes over the bytes of a bulk string that start at offset `start`. -/
def passBulk (range : Nat) (scanner : Scanner) (buffer : Bytes) (start : Nat) (length : Int) :
    Option Round := do
  let stop ← add range (← add range start (← toWord range length)) 2
  if buffer.length < stop then return .done .incomplete scanner
  else if (← slice buffer (← sub stop 2) stop) = Bytes.crlf then finish scanner stop
  else return .done (.invalid .unterminatedBulk) scanner

/-- The header of a bulk string has been read, and its length. Any negative
    length announces the null. -/
def startBulk (range : Nat) (scanner : Scanner) (buffer : Bytes) (next : Nat) (length : Int) :
    Option Round :=
  if (maxBulkLength : Int) < length then
    some (.done (.invalid (.bulkTooLong length.toNat)) scanner)
  else if length < 0 then finish scanner next
  else passBulk range scanner buffer next length

/-- The header of an array has been read, and its count. -/
def startArray (scanner : Scanner) (next : Nat) (count : Int) : Option Round :=
  if count ≤ 0 then finish scanner next
  else if maxNesting ≤ scanner.missing.length then
    some (.done (.invalid .nestedTooDeeply) scanner)
  else some (.again ⟨next, next, count.toNat :: scanner.missing⟩)

/-- Reads a header line. What it announces starts at offset `next`. -/
def readHeader (range : Nat) (scanner : Scanner) (buffer header : Bytes) (next : Nat) :
    Option Round := do
  let kind ← header[0]?
  if kind = 43 ∨ kind = 45 then finish scanner next
  else if kind = 58 then reading range scanner header fun _ => finish scanner next
  else if kind = 36 then reading range scanner header (startBulk range scanner buffer next)
  else if kind = 42 then reading range scanner header (startArray scanner next)
  else return .done (.invalid (.unknownKind kind)) scanner

/-- Reads the header line at the cursor and skips what it announces. -/
def round (range : Nat) (scanner : Scanner) (buffer : Bytes) : Option Round := do
  match ← findLineEnd range buffer (max scanner.searched scanner.cursor) with
  | none =>
    return .done .incomplete
      { scanner with searched := max (buffer.length - 1) scanner.cursor }
  | some stop =>
    let line ← slice buffer scanner.cursor stop
    let next ← add range stop 2
    if line = [] then return .done (.invalid .emptyLine) scanner
    else readHeader range scanner buffer line next

/-- Everything a round can come to, whatever the scanner and the buffer. -/
inductive Outcome (scanner : Scanner) (buffer : Bytes) : Round → Prop where
  /-- The header line has no end yet. -/
  | searching :
      Outcome scanner buffer (.done .incomplete
        { scanner with searched := max (buffer.length - 1) scanner.cursor })
  /-- The data of a bulk string is not there yet. -/
  | waiting : Outcome scanner buffer (.done .incomplete scanner)
  /-- The reply has a fault. -/
  | refused (fault : Fault) : Outcome scanner buffer (.done (.invalid fault) scanner)
  /-- The reply ends. -/
  | last {stop : Nat} (hforward : scanner.cursor < stop) (hinside : stop ≤ buffer.length) :
      Outcome scanner buffer (.done (.complete stop) {})
  /-- An element ends inside an array. -/
  | next {stop : Nat} (hforward : scanner.cursor < stop) (hinside : stop ≤ buffer.length) :
      Outcome scanner buffer (.again ⟨stop, stop, closeElement scanner.missing⟩)
  /-- An array opens. -/
  | opened {stop count : Nat} (hforward : scanner.cursor < stop) (hinside : stop ≤ buffer.length)
      (hcount : 1 ≤ count) (hroom : scanner.missing.length < maxNesting) :
      Outcome scanner buffer (.again ⟨stop, stop, count :: scanner.missing⟩)

variable {range : Nat} {scanner : Scanner} {buffer line : Bytes} {result : Round}

/-- A line end that is found lies behind the start of the search and inside the
    buffer. -/
theorem bounds_of_findLineEnd {start stop : Nat}
    (h : findLineEnd range buffer start = some (some stop)) :
    start ≤ stop ∧ stop + 2 ≤ buffer.length := by
  rw [findLineEnd] at h
  split at h
  · exact absurd h (by simp only [Option.some.injEq, reduceCtorEq, not_false_eq_true])
  · rename_i offset hoffset
    have hlength := Bytes.length_of_lineEnd? hoffset
    rw [List.length_drop] at hlength
    simp only [Option.map_eq_some_iff, Option.some.injEq, exists_eq_right] at h
    rw [(add_eq_some_iff.1 h).2]
    omega

/-- Closing open arrays by checked differences closes the same arrays. -/
theorem eq_of_close {missing left : List Nat} (h : close missing = some left) :
    left = closeElement missing := by
  induction missing with
  | nil => exact (Option.some.inj h).symm
  | cons lacking outer ih =>
      rw [close, Option.bind_eq_bind, Option.bind_eq_some_iff] at h
      rcases h with ⟨n, hsub, h⟩
      rw [sub, Option.ite_none_right_eq_some, Option.some.injEq] at hsub
      rcases hsub with ⟨hpos, rfl⟩
      rw [closeElement]
      -- The difference is one that exists, so that it is positive says that
      -- more than one element was lacking.
      by_cases hone : 1 < lacking
      · rw [if_pos (by omega)] at h
        rw [if_pos hone]
        exact (Option.some.inj h).symm
      · rw [if_neg (by omega)] at h
        rw [if_neg hone]
        exact ih h

/-- An element that is complete either ends the reply or brings the next one,
    and the scan moves forward with it. -/
theorem outcome_of_finish {stop : Nat} (hforward : scanner.cursor < stop)
    (hinside : stop ≤ buffer.length) (h : finish scanner stop = some result) :
    Outcome scanner buffer result := by
  rw [finish, Option.bind_eq_bind, Option.bind_eq_some_iff] at h
  rcases h with ⟨missing, hclose, h⟩
  rw [eq_of_close hclose] at h
  rw [← Option.some.inj h]
  split
  · exact .last hforward hinside
  · exact .next hforward hinside

/-- A number that cannot be read ends the round; one that can is passed on. -/
theorem outcome_of_reading {next : Int → Option Round}
    (h : reading range scanner line next = some result)
    (hnext : ∀ value, next value = some result → Outcome scanner buffer result) :
    Outcome scanner buffer result := by
  rw [reading, Option.bind_eq_bind, Option.bind_eq_some_iff] at h
  rcases h with ⟨text, -, h⟩
  rw [Option.bind_eq_bind, Option.bind_eq_some_iff] at h
  rcases h with ⟨fault | value, -, h⟩
  · rw [← Option.some.inj h]
    exact .refused fault
  · exact hnext value h

/-- To pass over the data of a bulk string is to wait, to refuse its ending or
    to be done with it. -/
theorem outcome_of_passBulk {start : Nat} {length : Int} (hforward : scanner.cursor < start)
    (h : passBulk range scanner buffer start length = some result) :
    Outcome scanner buffer result := by
  simp only [passBulk, Option.bind_eq_bind, Option.bind_eq_some_iff] at h
  rcases h with ⟨word, -, afterData, hafterData, stop, hstop, h⟩
  -- The sums are words, so they are the sums.
  have hpast : start ≤ stop := by
    have := (add_eq_some_iff.1 hafterData).2
    have := (add_eq_some_iff.1 hstop).2
    omega
  by_cases hshort : buffer.length < stop
  · rw [if_pos hshort] at h
    rw [← Option.some.inj h]
    exact .waiting
  · rw [if_neg hshort] at h
    rcases Option.bind_eq_some_iff.1 h with ⟨back, -, h⟩
    rcases Option.bind_eq_some_iff.1 h with ⟨ending, -, h⟩
    by_cases hend : ending = Bytes.crlf
    · rw [if_pos hend] at h
      exact outcome_of_finish (by omega) (by omega) h
    · rw [if_neg hend] at h
      rw [← Option.some.inj h]
      exact .refused _

/-- What the length of a bulk string leads to. -/
theorem outcome_of_startBulk {next : Nat} {length : Int} (hforward : scanner.cursor < next)
    (hinside : next ≤ buffer.length)
    (h : startBulk range scanner buffer next length = some result) :
    Outcome scanner buffer result := by
  rw [startBulk] at h
  -- A length can be too large, or negative, or the number of bytes to pass
  -- over.
  split at h
  · rw [← Option.some.inj h]
    exact .refused _
  split at h
  · exact outcome_of_finish hforward hinside h
  · exact outcome_of_passBulk hforward h

/-- What the count of an array leads to. -/
theorem outcome_of_startArray {next : Nat} {count : Int} (hforward : scanner.cursor < next)
    (hinside : next ≤ buffer.length) (h : startArray scanner next count = some result) :
    Outcome scanner buffer result := by
  rw [startArray] at h
  -- An array can be empty, or one too deep, or one more that is open.
  split at h
  · exact outcome_of_finish hforward hinside h
  split at h
  · rw [← Option.some.inj h]
    exact .refused _
  · rw [← Option.some.inj h]
    exact .opened hforward hinside (by omega) (by omega)

/-- What a line that stands in front leads to, by its first byte. -/
theorem outcome_of_readHeader {next : Nat} (hforward : scanner.cursor < next)
    (hinside : next ≤ buffer.length)
    (h : readHeader range scanner buffer line next = some result) :
    Outcome scanner buffer result := by
  rw [readHeader, Option.bind_eq_bind, Option.bind_eq_some_iff] at h
  -- The kinds are asked for in turn, and the last case is a kind there is not.
  rcases h with ⟨kind, -, h⟩
  split at h
  · exact outcome_of_finish hforward hinside h
  split at h
  · exact outcome_of_reading h fun _ => outcome_of_finish hforward hinside
  split at h
  · exact outcome_of_reading h fun _ => outcome_of_startBulk hforward hinside
  split at h
  · exact outcome_of_reading h fun _ => outcome_of_startArray hforward hinside
  · rw [← Option.some.inj h]
    exact .refused _

/-- Whatever a round comes to, it is one of the outcomes there are. -/
theorem outcome_of_round (h : round range scanner buffer = some result) :
    Outcome scanner buffer result := by
  rw [round, Option.bind_eq_bind, Option.bind_eq_some_iff] at h
  rcases h with ⟨_ | stop, hfound, h⟩
  · rw [← Option.some.inj h]
    exact .searching
  · -- The line is there, and the next starts two bytes behind its end.
    rcases bounds_of_findLineEnd hfound with ⟨hstart, hstop⟩
    simp only [Option.bind_eq_bind, Option.bind_eq_some_iff] at h
    rcases h with ⟨line, -, next, hnext, h⟩
    rw [(add_eq_some_iff.1 hnext).2] at h
    split at h
    · rw [← Option.some.inj h]
      exact .refused _
    · exact outcome_of_readHeader (by omega) (by omega) h

/-- A round that goes on moves the cursor forward, inside the buffer. -/
theorem forward_of_round {next : Scanner} (h : round range scanner buffer = some (.again next)) :
    scanner.cursor < next.cursor ∧ next.cursor ≤ buffer.length := by
  cases outcome_of_round h with
  | next hforward hinside => exact ⟨hforward, hinside⟩
  | opened hforward hinside hcount hroom => exact ⟨hforward, hinside⟩

/-- Reads header lines until the scan ends. -/
def scan (range : Nat) (scanner : Scanner) (buffer : Bytes) :
    Option (Progress Nat × Scanner) :=
  match h : round range scanner buffer with
  | none => none
  | some (.done answer next) => some (answer, next)
  | some (.again next) =>
    have := forward_of_round h
    scan range next buffer
termination_by buffer.length - scanner.cursor

end Checked

end RespBus
