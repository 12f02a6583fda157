import RespBus.Proofs.Reply.Locality
import RespBus.Scanner

/-!
# Rounds of the Scanner

A round of the scanner reads one header line, and passes over the data if the
header announces a bulk string. What remains is a number: how many replies
have to follow before the element that was opened is finished. `opening` is
the reader of that number, and it knows nothing of scanners.

`step_eq` says that a round is `opening` and then a decision about the open
arrays. It needs one thing of the scanner: that the bytes searched before
hold no line end. `Searched` states it by offsets. It leaves the last byte
that is there out of the search, since a CR there may still get its LF, and
so the property is not lost when bytes arrive.

A round can end for want of bytes in two ways. If the header line has no end,
the search is moved forward; if the header is there and its data is not, the
scanner is left as it was. `suspend` is both.

## Main definitions

* `Bytes.EndsAt`: A line ends at an offset.
* `Reader.skip`: What a header announces, passed over.
* `Reader.opening`: How many replies an element still needs.
* `Scanner.Searched`: The bytes searched before hold no line end.
* `Scanner.suspend`: The scanner that waits for more bytes.
* `Scanner.openElement`: The open arrays once another element is opened.
* `Scanner.enter`: The decision about the open arrays.
* `Scanner.Round`: Everything a round can come to.

## Theorems

* `Bytes.splitLineAfter_take`: A search resumed past the bytes without a line
  end finds what a new search finds.
* `Reader.local_opening`: Looking for the number looks at nothing else.
* `Scanner.Searched.append`: Bytes that arrive do not spoil a search.
* `Scanner.searched_suspend`: A suspended search is sound again.
* `Scanner.step_eq`: A round is an opening and a decision.
* `Scanner.scanFrom_of_stop`, `Scanner.scanFrom_of_more`: A scan is its first
  round and the rest.
* `Scanner.round_step`: A round comes to one of five ends.
-/

namespace RespBus

namespace Bytes

/-- The line end CR LF stands at offset `i`. -/
def EndsAt (input : Bytes) (i : Nat) : Prop :=
  input[i]? = some cr ∧ input[i + 1]? = some lf

/-- Whether a line ends at an offset is settled by the two bytes there, so bytes
    that come later make no difference. -/
theorem endsAt_append {input : Bytes} {i : Nat} (hi : i + 1 < input.length) (more : Bytes) :
    EndsAt (input ++ more) i ↔ EndsAt input i := by
  unfold EndsAt
  rw [List.getElem?_append_left (by omega), List.getElem?_append_left hi]

/-- Without a line in front there is no line end at any offset. -/
theorem not_endsAt_of_splitLine {input : Bytes} (h : splitLine input = none) (i : Nat) :
    ¬ EndsAt input i := by
  induction input generalizing i with
  | nil =>
      intro hend
      exact absurd hend.1 (by simp only [List.getElem?_nil, reduceCtorEq, not_false_eq_true])
  | cons b tail ih =>
      rw [splitLine_cons] at h
      by_cases hhere : b = cr ∧ tail.head? = some lf
      · rw [if_pos hhere] at h
        exact absurd h (by simp only [reduceCtorEq, not_false_eq_true])
      · rw [if_neg hhere, Option.map_eq_none_iff] at h
        intro hend
        -- A line end further in would be one of the tail, unless it stands
        -- right here.
        cases i with
        | zero =>
            refine hhere ⟨?_, ?_⟩
            · simpa only [List.getElem?_cons_zero, Option.some.injEq] using hend.1
            · rw [List.head?_eq_getElem?]
              simpa only [List.getElem?_cons_succ] using hend.2
        | succ j =>
            refine ih h j ⟨?_, ?_⟩
            · simpa only [List.getElem?_cons_succ] using hend.1
            · simpa only [List.getElem?_cons_succ] using hend.2

-- A search that was carried past `n` bytes, none of which starts a line end,
-- goes on as if it had just begun.
/-- A search for the line end may start at any offset before which there is
    none, and finds the same line. -/
theorem splitLineAfter_take {input : Bytes} {n : Nat} (hn : n ≤ input.length)
    (hnone : ∀ i, i < n → ¬ EndsAt input i) :
    splitLineAfter (input.take n).reverse (input.drop n) = splitLine input := by
  induction n with
  | zero => rfl
  | succ n ih =>
      -- The induction is on the offset, so the search is resumed one byte
      -- earlier.
      rw [← ih (by omega) (fun i hi => hnone i (by omega))]
      have hlt : n < input.length := by omega
      have hnext : ¬ (input[n] = cr ∧ (input.drop (n + 1)).head? = some lf) := by
        intro hend
        refine hnone n (by omega) ⟨?_, ?_⟩
        · rw [List.getElem?_eq_getElem hlt, hend.1]
        · rw [← List.head?_drop]
          exact hend.2
      -- The byte at `n` moves from what lies ahead to what was passed over.
      rw [List.drop_eq_getElem_cons hlt, splitLineAfter, if_neg hnext,
        List.take_succ_eq_append_getElem hlt, List.reverse_append]
      rfl

end Bytes

namespace Reader

/-- Passes over what a header announces, up to the elements of an array, and
    answers how many those are. An element without elements is finished. -/
def skip : Header → Reader Nat
  | .bulk length => do
    let _ ← bulk length
    return 0
  | .array count => return count
  | _ => return 0

/-- Opens one element and answers how many replies it still needs. -/
def opening : Reader Nat :=
  header >>= skip

/-- What an opening reads, in terms of the line it starts with. -/
theorem opening_apply (input : Bytes) :
    opening input =
      match Bytes.splitLine input with
      | none => .incomplete
      | some (text, rest) =>
        match Header.ofLine text with
        | .error fault => .invalid fault
        | .ok header => skip header rest := by
  rw [opening, bind_apply, header_apply]
  rcases Bytes.splitLine input with _ | ⟨text, rest⟩
  · rfl
  · simp only []
    cases Header.ofLine text <;> rfl

/-- To skip a bulk string is to read it and forget its data. -/
theorem skip_bulk (length : Nat) (input : Bytes) :
    skip (.bulk length) input =
      match takeBulk length input with
      | .incomplete => .incomplete
      | .invalid fault => .invalid fault
      | .complete (_, rest) => .complete (0, rest) := by
  rw [skip, bind_apply, bulk]
  cases takeBulk length input <;> rfl

/-- An opening does not look beyond what it takes. -/
theorem local_opening : Local opening := by
  refine local_header.bind fun header => ?_
  cases header with
  | bulk length => exact (local_bulk length).bind fun data => Local.pure 0
  | array count => exact Local.pure count
  | _ => exact Local.pure 0

end Reader

namespace Scanner

/-- The bytes that were searched after the cursor start no line end, and the
    search stopped short of the last byte there is. `input` is what lies past
    the cursor. -/
structure Searched (scanner : Scanner) (input : Bytes) : Prop where
  inside : scanner.searched - scanner.cursor ≤ input.length - 1
  noEnd : ∀ i, i < scanner.searched - scanner.cursor → ¬ Bytes.EndsAt input i

/-- What was searched stays searched when more bytes arrive. -/
theorem Searched.append {scanner : Scanner} {input : Bytes} (h : scanner.Searched input)
    (more : Bytes) : scanner.Searched (input ++ more) where
  inside := by
    have := h.inside
    rw [List.length_append]
    omega
  noEnd i hi hend := by
    have hinside := h.inside
    exact h.noEnd i hi ((Bytes.endsAt_append (by omega) more).1 hend)

/-- A scanner that starts its search at the cursor has claimed nothing. -/
theorem searched_of_fresh {scanner : Scanner} (h : scanner.searched = scanner.cursor)
    (input : Bytes) : scanner.Searched input where
  inside := by omega
  noEnd i hi := by omega

/-- Where a scanner resumes its search makes no difference to the line it finds. -/
theorem lineAt_eq {scanner : Scanner} {input : Bytes} (h : scanner.Searched input) :
    scanner.lineAt input = Bytes.splitLine input := by
  have hinside := h.inside
  exact Bytes.splitLineAfter_take (by omega) h.noEnd

/-- The scanner that waits for more bytes after those of `input`. Only a line
    that has no end yet moves the search. -/
def suspend (scanner : Scanner) (input : Bytes) : Scanner :=
  match Bytes.splitLine input with
  | none => { scanner with searched := scanner.cursor + (input.length - 1) }
  | some _ => scanner

/-- A scanner that gives up for want of a line end has searched all it was
    given. -/
theorem searched_suspend {scanner : Scanner} {input : Bytes} (h : scanner.Searched input) :
    (scanner.suspend input).Searched input := by
  unfold suspend
  cases hline : Bytes.splitLine input with
  | some found => exact h
  | none =>
      -- The last byte is left out, since it may be the first half of a line
      -- end.
      refine ⟨?_, fun i _ => Bytes.not_endsAt_of_splitLine hline i⟩
      simp only []
      omega

/-- The open arrays once one more element has been opened that needs `count`
    replies itself; nothing if it would be nested too deeply. An element that
    needs none is finished, however many arrays are open. -/
def openElement (count : Nat) (missing : List Nat) : Option (List Nat) :=
  if count = 0 then some (closeElement missing)
  else if missing.length < maxNesting then some (count :: missing)
  else none

/-- The end of a round in which an element was opened that needs `count`
    replies. `stop` is the offset where they begin, or the next element. -/
def enter (scanner : Scanner) (count stop : Nat) (rest : Bytes) : Step :=
  match openElement count scanner.missing with
  | none => .stop (.invalid .nestedTooDeeply) scanner
  | some [] => .stop (.complete stop) {}
  | some (lacking :: outer) => .more ⟨stop, stop, lacking :: outer⟩ rest

/-- An element without elements of its own is complete as soon as its header is. -/
theorem enter_finished (scanner : Scanner) (stop : Nat) (rest : Bytes) :
    scanner.enter 0 stop rest = scanner.finishElement stop rest := by
  rw [enter, openElement, if_pos rfl, finishElement]
  cases closeElement scanner.missing <;> rfl

/-- An array with elements is opened if there is a level left for it. -/
theorem enter_array (scanner : Scanner) {count : Nat} (hcount : count ≠ 0) (stop : Nat)
    (rest : Bytes) :
    scanner.enter count stop rest =
      if scanner.missing.length < maxNesting then
        .more ⟨stop, stop, count :: scanner.missing⟩ rest
      else .stop (.invalid .nestedTooDeeply) scanner := by
  rw [enter, openElement, if_neg hcount]
  by_cases hroom : scanner.missing.length < maxNesting
  · rw [if_pos hroom, if_pos hroom]
  · rw [if_neg hroom, if_neg hroom]

/-- What one round does is settled by the opening in front of it. Everything
    else about a round is read off this equation. -/
theorem step_eq {scanner : Scanner} {input : Bytes} (h : scanner.Searched input) :
    scanner.step input =
      match Reader.opening input with
      | .incomplete => .stop .incomplete (scanner.suspend input)
      | .invalid fault => .stop (.invalid fault) scanner
      | .complete (count, rest) =>
        scanner.enter count (scanner.cursor + (input.length - rest.length)) rest := by
  rw [step, lineAt_eq h, Reader.opening_apply]
  rcases hline : Bytes.splitLine input with _ | ⟨line, rest⟩
  · simp only [suspend, hline]
  · have hlength := Bytes.length_of_splitLineAfter hline
    rw [List.length_nil, Nat.zero_add] at hlength
    -- The round counts forward from the cursor, the opening backward from what
    -- is left of the input.
    have hnext : scanner.cursor + line.length + 2 =
        scanner.cursor + (input.length - rest.length) := by omega
    simp only []
    rcases Header.ofLine line with fault | header
    · rfl
    · cases header with
      | bulk length =>
          simp only [Reader.skip_bulk]
          -- Only the data of a bulk string can be missing once its header is
          -- there.
          cases hbulk : takeBulk length rest with
          | incomplete => simp only [suspend, hline]
          | invalid fault => rfl
          | complete taken =>
              have htaken := length_of_takeBulk hbulk
              have hstop : scanner.cursor + line.length + 2 + length + 2 =
                  scanner.cursor + (input.length - taken.2.length) := by omega
              simp only [hstop]
              rw [enter_finished]
      | array count =>
          simp only [hnext]
          change _ = scanner.enter count _ rest
          by_cases hcount : count = 0
          · rw [if_pos hcount, hcount, enter_finished]
          · rw [if_neg hcount, enter_array scanner hcount]
      | _ =>
          simp only [hnext]
          exact (enter_finished scanner _ rest).symm

theorem scanFrom_of_stop {scanner next : Scanner} {input : Bytes} {answer : Progress Nat}
    (hstep : scanner.step input = .stop answer next) :
    scanner.scanFrom input = (answer, next) := by
  rw [scanFrom]
  split
  · rename_i hstop
    rw [hstep, Step.stop.injEq] at hstop
    rw [hstop.1, hstop.2]
  · rename_i hmore
    rw [hstep] at hmore
    exact absurd hmore (by simp only [reduceCtorEq, not_false_eq_true])

theorem scanFrom_of_more {scanner next : Scanner} {input rest : Bytes}
    (hstep : scanner.step input = .more next rest) :
    scanner.scanFrom input = next.scanFrom rest := by
  rw [scanFrom]
  split
  · rename_i hstop
    rw [hstep] at hstop
    exact absurd hstop (by simp only [reduceCtorEq, not_false_eq_true])
  · rename_i hmore
    rw [hstep, Step.more.injEq] at hmore
    rw [hmore.1, hmore.2]

/-- Everything a round can come to. -/
inductive Round (scanner : Scanner) (input : Bytes) : Step → Prop where
  | wanting (hopening : Reader.opening input = .incomplete) :
      Round scanner input (.stop .incomplete (scanner.suspend input))
  | refused {fault : Fault} (hopening : Reader.opening input = .invalid fault) :
      Round scanner input (.stop (.invalid fault) scanner)
  | tooDeep {count : Nat} {rest : Bytes}
      (hopening : Reader.opening input = .complete (count, rest))
      (hopen : openElement count scanner.missing = none) :
      Round scanner input (.stop (.invalid .nestedTooDeeply) scanner)
  | last {count : Nat} {rest : Bytes}
      (hopening : Reader.opening input = .complete (count, rest))
      (hopen : openElement count scanner.missing = some []) :
      Round scanner input
        (.stop (.complete (scanner.cursor + (input.length - rest.length))) {})
  | next {count lacking : Nat} {outer : List Nat} {rest : Bytes}
      (hopening : Reader.opening input = .complete (count, rest))
      (hopen : openElement count scanner.missing = some (lacking :: outer)) :
      Round scanner input
        (.more ⟨scanner.cursor + (input.length - rest.length),
          scanner.cursor + (input.length - rest.length), lacking :: outer⟩ rest)

/-- A round of a scanner that has searched what it claims is one of the five. -/
theorem round_step {scanner : Scanner} {input : Bytes} (h : scanner.Searched input) :
    scanner.Round input (scanner.step input) := by
  rw [step_eq h]
  rcases hopening : Reader.opening input with _ | fault | ⟨count, rest⟩
  · exact .wanting hopening
  · exact .refused hopening
  · simp only [enter]
    rcases hopen : openElement count scanner.missing with _ | _ | ⟨lacking, outer⟩
    · exact .tooDeep hopening hopen
    · exact .last hopening hopen
    · exact .next hopening hopen

end Scanner

end RespBus
