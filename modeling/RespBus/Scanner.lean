import RespBus.Reply.Header

/-!
# The Resumable Scanner

Finding where a reply ends does not need its value. The scanner walks over
header lines, counts down the elements of open arrays, and keeps three
pieces of progress between calls, so that a reply arriving in many parts is
walked over once and not once per part.

* `cursor` is the offset just past the last element that is finished.
* `searched` is the offset up to which no line end follows the cursor. It
  stops one byte short of the end of the buffer, since a CR there may be
  followed by its LF in the next part.
* `missing` counts the elements that each open array still lacks, innermost
  first.

A scan works on the bytes past the cursor, which shrink with every header
line it reads; that is why it ends. A caller hands over the same buffer
again, with bytes appended, until a scan gives a length. The scanner then
starts afresh, and the caller drops that many bytes. Nothing forces callers
to do so: the progress is kept after a fault as well, and a scan of an
unrelated buffer still only looks at bytes that are there.

`step` is one header line. Its two outcomes are the end of the scan and
another round, and `scanFrom` repeats it.

## Main definitions

* `Scanner`: Progress over the front of a growing buffer.
* `closeElement`: The open arrays after one more element.
* `Scanner.Step`: What one header line does to a scan.
* `Scanner.lineAt`: The line at the cursor.
* `Scanner.step`: Reading one header line.
* `Scanner.scanFrom`: Reading header lines to the end of the reply.
* `Scanner.scan`: The length of the reply at the front of a buffer.
* `frameLength`: The same with no earlier progress.
* `countReplies`: How many complete replies a buffer starts with.

## Theorems

* `Scanner.length_of_lineAt`: A line, its end and the rest are the input.
* `Scanner.step_more`: A round that goes on uses up at least three bytes.
* `Scanner.step_complete`: A round that ends the reply stays in the buffer.
* `Scanner.scan_complete`: A length found lies between 3 and the buffer's,
  and leaves a fresh scanner.
* `frameLength_complete`: The same with no earlier progress.
-/

namespace RespBus

/-- Progress over the reply at the front of a growing buffer. -/
structure Scanner where
  /-- Offset just past the last finished element. -/
  cursor : Nat := 0
  /-- Offset up to which no line end follows the cursor. -/
  searched : Nat := 0
  /-- Elements that each open array still lacks, innermost first. -/
  missing : List Nat := []
  deriving DecidableEq

/-- The open arrays after one more finished element: the innermost one lacks
    one less, and an array that lacks nothing more is itself an element of
    the next. -/
def closeElement : List Nat → List Nat
  | [] => []
  | lacking :: outer => if 1 < lacking then (lacking - 1) :: outer else closeElement outer

namespace Scanner

/-- What one header line does to a scan. -/
inductive Step where
  /-- The scan ends with this answer and leaves this scanner. -/
  | stop (answer : Progress Nat) (scanner : Scanner)
  /-- The scan goes on with the bytes after the header. -/
  | more (scanner : Scanner) (rest : Bytes)

/-- An element ends at offset `stop`. If no array is left open, the reply
    ends there too. -/
def finishElement (scanner : Scanner) (stop : Nat) (rest : Bytes) : Step :=
  match closeElement scanner.missing with
  | [] => .stop (.complete stop) {}
  | missing => .more ⟨stop, stop, missing⟩ rest

/-- The line at the cursor. `input` is the buffer from the cursor on; bytes
    that were searched before are passed over without another look. -/
def lineAt (scanner : Scanner) (input : Bytes) : Option (Bytes × Bytes) :=
  let passed := scanner.searched - scanner.cursor
  Bytes.splitLineAfter (input.take passed).reverse (input.drop passed)

/-- Reads the header line at the cursor and skips what it announces. -/
def step (scanner : Scanner) (input : Bytes) : Step :=
  match scanner.lineAt input with
  | none =>
    -- The last byte may be a CR whose LF is still to come.
    .stop .incomplete { scanner with searched := scanner.cursor + (input.length - 1) }
  | some (line, rest) =>
    let next := scanner.cursor + line.length + 2
    match Header.ofLine line with
    | .error fault => .stop (.invalid fault) scanner
    | .ok (.bulk length) =>
      match takeBulk length rest with
      -- The header will be read again: nothing of it is remembered.
      | .incomplete => .stop .incomplete scanner
      | .invalid fault => .stop (.invalid fault) scanner
      | .complete (_, rest) => scanner.finishElement (next + length + 2) rest
    | .ok (.array count) =>
      -- An empty array never opens, however many others are open.
      if count = 0 then scanner.finishElement next rest
      else if scanner.missing.length < maxNesting then
        .more ⟨next, next, count :: scanner.missing⟩ rest
      else .stop (.invalid .nestedTooDeeply) scanner
    | .ok _ => scanner.finishElement next rest

theorem length_of_lineAt {scanner : Scanner} {input line rest : Bytes}
    (h : scanner.lineAt input = some (line, rest)) :
    line.length + 2 + rest.length = input.length := by
  have hlen := Bytes.length_of_splitLineAfter h
  simp only [List.length_reverse, List.length_take, List.length_drop] at hlen
  omega

theorem finishElement_more {scanner next : Scanner} {stop : Nat} {rest after : Bytes}
    (h : scanner.finishElement stop rest = .more next after) :
    next.cursor = stop ∧ after = rest := by
  simp only [finishElement] at h
  split at h
  · exact absurd h (by simp only [reduceCtorEq, not_false_eq_true])
  · simp only [Step.more.injEq] at h
    exact ⟨by rw [← h.1], h.2.symm⟩

/-- Only the last element of the reply gives a length, and it leaves a fresh
    scanner. -/
theorem finishElement_stop {scanner next : Scanner} {stop : Nat} {answer : Progress Nat}
    {rest : Bytes} (h : scanner.finishElement stop rest = .stop answer next) :
    answer = .complete stop ∧ next = {} := by
  simp only [finishElement] at h
  split at h
  · simp only [Step.stop.injEq] at h
    exact ⟨h.1.symm, h.2.symm⟩
  · exact absurd h (by simp only [reduceCtorEq, not_false_eq_true])

/-- A round that goes on uses up at least three bytes, and the cursor moves
    by exactly the bytes that were used. -/
theorem step_more {scanner next : Scanner} {input rest : Bytes}
    (h : scanner.step input = .more next rest) :
    next.cursor + rest.length = scanner.cursor + input.length ∧
      rest.length + 3 ≤ input.length := by
  simp only [step] at h
  split at h
  · exact absurd h (by simp only [reduceCtorEq, not_false_eq_true])
  · rename_i line tail hline
    -- The line and its end are used up in any case; a header is not empty.
    have hlen := length_of_lineAt hline
    split at h
    · exact absurd h (by simp only [reduceCtorEq, not_false_eq_true])
    · rename_i length hheader
      have hpos := Header.length_pos_of_ofLine hheader
      split at h
      · exact absurd h (by simp only [reduceCtorEq, not_false_eq_true])
      · exact absurd h (by simp only [reduceCtorEq, not_false_eq_true])
      · -- A bulk string uses up its data and a second line end as well.
        rename_i data after htake
        have hbulk := length_of_takeBulk htake
        rcases finishElement_more h with ⟨hcursor, rfl⟩
        omega
    · rename_i count hheader
      have hpos := Header.length_pos_of_ofLine hheader
      split at h
      · rcases finishElement_more h with ⟨hcursor, rfl⟩
        omega
      · split at h
        · -- An array that opens uses up its header only.
          simp only [Step.more.injEq] at h
          simp only [← h.1, ← h.2]
          omega
        · exact absurd h (by simp only [reduceCtorEq, not_false_eq_true])
    · -- Every other header is an element by itself.
      rename_i header _ _ hheader
      have hpos := Header.length_pos_of_ofLine hheader
      rcases finishElement_more h with ⟨hcursor, rfl⟩
      omega

/-- A round that finds the end of the reply finds it at least three bytes
    past the cursor and inside the buffer, and leaves a fresh scanner. -/
theorem step_complete {scanner next : Scanner} {input : Bytes} {length : Nat}
    (h : scanner.step input = .stop (.complete length) next) :
    scanner.cursor + 3 ≤ length ∧ length ≤ scanner.cursor + input.length ∧ next = {} := by
  simp only [step] at h
  split at h
  · exact absurd h (by simp only [Step.stop.injEq, reduceCtorEq, false_and, not_false_eq_true])
  · rename_i line tail hline
    have hlen := length_of_lineAt hline
    split at h
    · exact absurd h (by simp only [Step.stop.injEq, reduceCtorEq, false_and, not_false_eq_true])
    · -- A length comes from an element that was the last: a bulk string, an
      -- empty array, or any other without elements.
      rename_i bulkLength hheader
      have hpos := Header.length_pos_of_ofLine hheader
      split at h
      · exact absurd h
          (by simp only [Step.stop.injEq, reduceCtorEq, false_and, not_false_eq_true])
      · exact absurd h
          (by simp only [Step.stop.injEq, reduceCtorEq, false_and, not_false_eq_true])
      · rename_i data after htake
        have hbulk := length_of_takeBulk htake
        rcases finishElement_stop h with ⟨hstop, hnext⟩
        simp only [Progress.complete.injEq] at hstop
        exact ⟨by omega, by omega, hnext⟩
    · rename_i count hheader
      have hpos := Header.length_pos_of_ofLine hheader
      split at h
      · rcases finishElement_stop h with ⟨hstop, hnext⟩
        simp only [Progress.complete.injEq] at hstop
        exact ⟨by omega, by omega, hnext⟩
      · split at h
        · exact absurd h (by simp only [reduceCtorEq, not_false_eq_true])
        · exact absurd h
            (by simp only [Step.stop.injEq, reduceCtorEq, false_and, not_false_eq_true])
    · rename_i header _ _ hheader
      have hpos := Header.length_pos_of_ofLine hheader
      rcases finishElement_stop h with ⟨hstop, hnext⟩
      simp only [Progress.complete.injEq] at hstop
      exact ⟨by omega, by omega, hnext⟩

/-- Reads header lines until the scan ends. -/
def scanFrom (scanner : Scanner) (input : Bytes) : Progress Nat × Scanner :=
  match h : scanner.step input with
  | .stop answer next => (answer, next)
  | .more next rest =>
    -- The bytes left are fewer than before, so the scan ends.
    have := (step_more h).2
    scanFrom next rest
termination_by input.length

/-- The length of the reply at the front of a buffer once the buffer holds
    all of it, and the progress to resume from. -/
def scan (scanner : Scanner) (buffer : Bytes) : Progress Nat × Scanner :=
  scanner.scanFrom (buffer.drop scanner.cursor)

/-- What holds of the length that one round gives holds of the length of a scan. -/
theorem scanFrom_complete {scanner next : Scanner} {input : Bytes} {length : Nat}
    (h : scanner.scanFrom input = (.complete length, next)) :
    scanner.cursor + 3 ≤ length ∧ length ≤ scanner.cursor + input.length ∧ next = {} := by
  fun_induction scanFrom scanner input with
  | case1 scanner input answer after hstep =>
      simp only [Prod.mk.injEq] at h
      rw [h.1, h.2] at hstep
      exact step_complete hstep
  | case2 scanner input after rest hstep _ ih =>
      -- The cursor moved as far as the input shrank, so both bounds carry over.
      have hmore := step_more hstep
      rcases ih h with ⟨hlow, hhigh, hnext⟩
      exact ⟨by omega, by omega, hnext⟩

/-- A length found by a scan is at least 3 and at most the length of the
    buffer, whatever progress the scan started from; and the scanner is
    fresh afterwards. -/
theorem scan_complete {scanner next : Scanner} {buffer : Bytes} {length : Nat}
    (h : scanner.scan buffer = (.complete length, next)) :
    3 ≤ length ∧ length ≤ buffer.length ∧ next = {} := by
  rcases scanFrom_complete h with ⟨hlow, hhigh, hnext⟩
  simp only [List.length_drop] at hhigh
  exact ⟨by omega, by omega, hnext⟩

end Scanner

/-- The length of the reply at the front of a buffer. -/
def frameLength (buffer : Bytes) : Progress Nat :=
  (({} : Scanner).scan buffer).1

/-- A reply takes at least three bytes, and no more than there are. -/
theorem frameLength_complete {buffer : Bytes} {length : Nat}
    (h : frameLength buffer = .complete length) : 3 ≤ length ∧ length ≤ buffer.length := by
  have hscan : ({} : Scanner).scan buffer = (.complete length, (({} : Scanner).scan buffer).2) :=
    Prod.ext h rfl
  exact ⟨(Scanner.scan_complete hscan).1, (Scanner.scan_complete hscan).2.1⟩

/-- The complete replies a buffer starts with, counted on from `counted`. -/
def countFrom (counted : Nat) (buffer : Bytes) : Nat :=
  match h : frameLength buffer with
  | .complete length =>
    -- A reply is never empty, so what follows it is shorter.
    have := frameLength_complete h
    countFrom (counted + 1) (buffer.drop length)
  | _ => counted
termination_by buffer.length

/-- How many complete replies a buffer starts with. Counting stops at the
    first reply that is partial or malformed. -/
def countReplies (buffer : Bytes) : Nat :=
  countFrom 0 buffer

end RespBus
