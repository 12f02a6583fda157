import Mathlib
import RespBus.Proofs.Scanner.Decoder
import RespBus.Proofs.Scanner.Offsets

/-!
# Safety of the Scanner

A scanner is handed any buffer at any time: one that has grown, one that has
been cut off, or one that has nothing to do with the last. The offsets it has
kept may lie past the end. Still no operation of the scan by offsets is ever
without a result, and the scan gives what `Scanner.scan` does.

Nothing about the offsets is needed for that. The search for a line end starts
at the later of the two, and if that is past the end there is no line end to
find; if there is one, it is where the buffer still has bytes, so everything
up to it does. Two things are needed of the rest. The counts of the open
arrays are positive, or closing one would take them below zero; and a bulk
string announces so little that the offset of its end is a word. The first is
part of `Sound`, which every call preserves. The second is the cap on the
length: without it an offset and a length could each be close to half of the
range, and their sum with the line end past it.

The words are the numbers below `range`, which is at least `2 ^ 32`, and a
buffer holds fewer bytes than half of that.

`round_eq` compares one round with `Scanner.step`, branch by branch. The rest
is by the rounds of a scan and the calls of a history, and takes from a round
only its equation and its `Outcome`.

## Main definitions

* `Scanner.announced`: What is done with a header line that has been read.
* `Checked.Round.toStep`: What a round comes to, with the bytes ahead.
* `Checked.Sound`: What is true of a scanner at any time.
* `Checked.Passes`: The scanners with which a scan starts its rounds.
* `Checked.Call`: A call on a scanner.
* `Checked.Call.perform`, `Checked.Call.after`: The scanner after a call, by
  offsets and as it is defined.

## Theorems

* `takeBulk_drop`: The data of a bulk string, by offsets.
* `Scanner.lineAt_drop`: The line at the cursor, by offsets.
* `Checked.readHeader_eq`, `Checked.round_eq`: A round by offsets is a round.
* `Checked.Outcome.sound_done`, `Checked.Outcome.sound_again`: A round
  preserves soundness.
* `Checked.scan_eq`: A scan by offsets is a scan.
* `Checked.perform_all`: So is a history of calls.
* `Checked.scan_safe`: No operation is ever without a result.
-/

namespace RespBus

/-- Whether the data of a bulk string is there, and ends as it should, is seen
    from the length of the buffer and the two bytes behind the data. -/
theorem takeBulk_drop (buffer : Bytes) (start length : Nat) :
    takeBulk length (buffer.drop start) =
      if buffer.length < start + length + 2 then .incomplete
      else if (buffer.drop (start + length)).take 2 = Bytes.crlf then
        .complete ((buffer.drop start).take length, buffer.drop (start + length + 2))
      else .invalid .unterminatedBulk := by
  have hlength : (buffer.drop (start + length)).length = buffer.length - (start + length) :=
    List.length_drop
  rw [takeBulk, List.drop_drop]
  -- Two bytes must be left behind the data.
  rcases hdrop : buffer.drop (start + length) with _ | ⟨first, _ | ⟨second, rest⟩⟩
  · rw [hdrop, List.length_nil] at hlength
    rw [if_pos (by omega)]
  · rw [hdrop, List.length_singleton] at hlength
    rw [if_pos (by omega)]
  · rw [hdrop, List.length_cons, List.length_cons] at hlength
    have hrest : buffer.drop (start + length + 2) = rest := by
      rw [← List.drop_drop, hdrop]
      rfl
    rw [if_neg (by omega), hrest]
    simp only [List.take_succ_cons, List.take_zero, Bytes.crlf, List.cons.injEq, and_true]

namespace Scanner

/-- What is done with a header line that has been read, with `rest` after it. -/
def announced (scanner : Scanner) (next : Nat) (rest : Bytes) : Except Fault Header → Step
  | .error fault => .stop (.invalid fault) scanner
  | .ok (.bulk length) =>
    match takeBulk length rest with
    | .incomplete => .stop .incomplete scanner
    | .invalid fault => .stop (.invalid fault) scanner
    | .complete (_, after) => scanner.finishElement (next + length + 2) after
  | .ok (.array count) =>
    if count = 0 then scanner.finishElement next rest
    else if scanner.missing.length < maxNesting then
      .more ⟨next, next, count :: scanner.missing⟩ rest
    else .stop (.invalid .nestedTooDeeply) scanner
  | .ok _ => scanner.finishElement next rest

/-- A round finds a line and then does what its header announces. -/
theorem step_eq_announced (scanner : Scanner) (input : Bytes) :
    scanner.step input =
      match scanner.lineAt input with
      | none =>
        .stop .incomplete { scanner with searched := scanner.cursor + (input.length - 1) }
      | some (line, rest) =>
        scanner.announced (scanner.cursor + line.length + 2) rest (Header.ofLine line) := by
  rw [step]
  rcases scanner.lineAt input with _ | ⟨line, rest⟩
  · rfl
  · dsimp only
    cases Header.ofLine line with
    | error fault => rfl
    | ok header => cases header <;> rfl

/-- The line of a round, in terms of the offset at which the search over the
    buffer finds its end. -/
theorem lineAt_drop {scanner : Scanner} {start : Nat}
    (hstart : max scanner.searched scanner.cursor = start) (buffer : Bytes) :
    scanner.lineAt (buffer.drop scanner.cursor) =
      (Bytes.lineEnd? (buffer.drop start)).map fun offset =>
        ((buffer.drop scanner.cursor).take (start + offset - scanner.cursor),
          buffer.drop (start + offset + 2)) := by
  have hpassed : scanner.cursor + (scanner.searched - scanner.cursor) = start := by omega
  rw [lineAt, Bytes.splitLineAfter_eq, List.reverse_reverse, List.drop_drop, hpassed,
    Bytes.splitLine_eq_lineEnd?, Option.map_map]
  refine Option.map_congr fun offset _ => ?_
  -- The line is what was passed over before and what the search found now.
  have hstop : start + offset - scanner.cursor = scanner.searched - scanner.cursor + offset := by
    omega
  simp only [Function.comp_apply, hstop, List.take_add, List.drop_drop, hpassed, Nat.add_assoc]

end Scanner

namespace Checked

/-- What a round comes to, with the bytes ahead. -/
def Round.toStep (buffer : Bytes) : Round → Scanner.Step
  | .done answer scanner => .stop answer scanner
  | .again scanner => .more scanner (buffer.drop scanner.cursor)

variable {range : Nat} {scanner : Scanner} {buffer line : Bytes}

/-- The differences exist as long as every open array lacks an element. -/
theorem close_eq {missing : List Nat} (h : ∀ lacking ∈ missing, 1 ≤ lacking) :
    close missing = some (closeElement missing) := by
  induction missing with
  | nil => rfl
  | cons lacking outer ih =>
      have hpos := h lacking List.mem_cons_self
      rw [close, closeElement, sub_of_le hpos, Option.bind_eq_bind, Option.bind_some]
      -- An array that lacks this element only is closed by it, and is then
      -- itself an element of the one around it.
      by_cases hone : 1 < lacking
      · rw [if_pos hone, if_pos (by omega)]
        rfl
      · rw [if_neg hone, if_neg (by omega)]
        exact ih fun n hn => h n (List.mem_cons_of_mem lacking hn)

/-- Completing an element never fails, and does what it does in numbers without
    a bound. -/
theorem finish_eq (hlacking : ∀ lacking ∈ scanner.missing, 1 ≤ lacking) (stop : Nat) :
    (finish scanner stop).map (Round.toStep buffer) =
      some (scanner.finishElement stop (buffer.drop stop)) := by
  rw [finish, close_eq hlacking, Option.bind_eq_bind, Option.bind_some, Scanner.finishElement]
  cases closeElement scanner.missing <;> rfl

/-- A number in a header is read as without a bound, for the line is shorter
    than the words go. -/
theorem reading_eq {kind : UInt8} {text : Bytes} (hrange : text.length < range)
    (next : Int → Option Round) :
    reading range scanner (kind :: text) next =
      match RespBus.readInteger text with
      | .error fault => some (.done (.invalid fault) scanner)
      | .ok value => next value := by
  have htext : slice (kind :: text) 1 (kind :: text).length = some text := by
    rw [List.length_cons, slice_of_le (Nat.le_add_left 1 text.length) (Nat.le_refl _),
      List.drop_one, List.tail_cons, Nat.add_sub_cancel, List.take_length]
  simp only [reading, htext, Option.bind_eq_bind, Option.bind_some, readInteger_eq hrange]
  rfl

/-- The sums that pass over a bulk string stay in range, and they pass over what
    is read. -/
theorem passBulk_eq (hlacking : ∀ lacking ∈ scanner.missing, 1 ≤ lacking) {start length : Nat}
    (hrange : start + length + 2 < range) :
    (passBulk range scanner buffer start length).map (Round.toStep buffer) =
      some (match takeBulk length (buffer.drop start) with
        | .incomplete => .stop .incomplete scanner
        | .invalid fault => .stop (.invalid fault) scanner
        | .complete (_, after) => scanner.finishElement (start + length + 2) after) := by
  rw [passBulk, toWord_of_lt (by omega), takeBulk_drop]
  have hdata : start + length < range := by omega
  simp only [Option.bind_eq_bind, Option.bind_some, add_of_lt hdata, add_of_lt hrange]
  -- The slices are taken only once the bytes are known to be there.
  by_cases hshort : buffer.length < start + length + 2
  · rw [if_pos hshort, if_pos hshort]
    rfl
  · rw [if_neg hshort, if_neg hshort, sub_of_le (by omega), Option.bind_some,
      slice_of_le (by omega) (by omega), Option.bind_some, Nat.add_sub_cancel,
      Nat.add_sub_cancel_left]
    by_cases hend : (buffer.drop (start + length)).take 2 = Bytes.crlf
    · rw [if_pos hend, if_pos hend]
      exact finish_eq hlacking _
    · rw [if_neg hend, if_neg hend]
      rfl

/-- An announced length is within the limit when it is added to anything. -/
theorem startBulk_eq (hlacking : ∀ lacking ∈ scanner.missing, 1 ≤ lacking) {next : Nat}
    (hrange : next + maxBulkLength + 2 < range) (length : Int) :
    (startBulk range scanner buffer next length).map (Round.toStep buffer) =
      some (scanner.announced next (buffer.drop next)
        (if (maxBulkLength : Int) < length then .error (.bulkTooLong length.toNat)
        else if length < 0 then .ok .null
        else .ok (.bulk length.toNat))) := by
  rw [startBulk]
  by_cases hlong : (maxBulkLength : Int) < length
  · rw [if_pos hlong, if_pos hlong]
    rfl
  rw [if_neg hlong, if_neg hlong]
  by_cases hnull : length < 0
  · rw [if_pos hnull, if_pos hnull]
    exact finish_eq hlacking next
  · rw [if_neg hnull, if_neg hnull]
    -- What is neither too long nor negative is a length within the limit.
    rcases Int.eq_ofNat_of_zero_le (Int.not_lt.1 hnull) with ⟨n, rfl⟩
    exact passBulk_eq hlacking (by omega)

/-- An array is opened, passed over or refused as in numbers without a bound. -/
theorem startArray_eq (hlacking : ∀ lacking ∈ scanner.missing, 1 ≤ lacking) (next : Nat)
    (count : Int) :
    (startArray scanner next count).map (Round.toStep buffer) =
      some (scanner.announced next (buffer.drop next) (.ok (.array count.toNat))) := by
  rw [startArray, Scanner.announced]
  by_cases hempty : count ≤ 0
  · rw [if_pos hempty, if_pos (show count.toNat = 0 by omega)]
    exact finish_eq hlacking next
  rw [if_neg hempty, if_neg (show ¬ count.toNat = 0 by omega)]
  by_cases hfull : maxNesting ≤ scanner.missing.length
  · rw [if_pos hfull, if_neg (by omega)]
    rfl
  · rw [if_neg hfull, if_pos (by omega)]
    rfl

/-- Every kind of header comes to the same, the line being one that is not
    empty. -/
theorem readHeader_eq (hlacking : ∀ lacking ∈ scanner.missing, 1 ≤ lacking) {next : Nat}
    (hline : line ≠ []) (hlength : line.length < range)
    (hrange : next + maxBulkLength + 2 < range) :
    (readHeader range scanner buffer line next).map (Round.toStep buffer) =
      some (scanner.announced next (buffer.drop next) (Header.ofLine line)) := by
  rcases line with _ | ⟨kind, text⟩
  · exact absurd rfl hline
  · rw [List.length_cons] at hlength
    have hreading := @reading_eq range scanner kind text (by omega)
    rw [readHeader, List.getElem?_cons_zero, Option.bind_eq_bind, Option.bind_some, Header.ofLine]
    -- The kinds are asked for in the order in which both of them do.
    by_cases hsimple : kind = 43
    · rw [if_pos (.inl hsimple), if_pos hsimple]
      exact finish_eq hlacking next
    rw [if_neg hsimple]
    by_cases herror : kind = 45
    · rw [if_pos (.inr herror), if_pos herror]
      exact finish_eq hlacking next
    rw [if_neg (not_or.2 ⟨hsimple, herror⟩), if_neg herror]
    by_cases hinteger : kind = 58
    · rw [if_pos hinteger, if_pos hinteger, hreading]
      cases RespBus.readInteger text with
      | error fault => rfl
      | ok value => exact finish_eq hlacking next
    rw [if_neg hinteger, if_neg hinteger]
    by_cases hbulk : kind = 36
    · rw [if_pos hbulk, if_pos hbulk, hreading, Header.ofBulkLength]
      cases RespBus.readInteger text with
      | error fault => rfl
      | ok length => exact startBulk_eq hlacking hrange length
    rw [if_neg hbulk, if_neg hbulk]
    by_cases harray : kind = 42
    · rw [if_pos harray, if_pos harray, hreading, Header.ofArrayCount]
      cases RespBus.readInteger text with
      | error fault => rfl
      | ok count => exact startArray_eq hlacking next count
    · rw [if_neg harray, if_neg harray]
      rfl

/-- The offset of a line end lies inside the buffer, so it is in range. -/
theorem findLineEnd_eq (hrange : buffer.length < range) (start : Nat) :
    findLineEnd range buffer start =
      some ((Bytes.lineEnd? (buffer.drop start)).map (start + ·)) := by
  rw [findLineEnd]
  rcases hfound : Bytes.lineEnd? (buffer.drop start) with _ | offset
  · rfl
  · have hlength := Bytes.length_of_lineEnd? hfound
    rw [List.length_drop] at hlength
    simp only [add_of_lt (show start + offset < range by omega)]
    rfl

/-- A checked round never fails, and is a round of the scanner on the buffer
    from its cursor on. -/
theorem round_eq (hlacking : ∀ lacking ∈ scanner.missing, 1 ≤ lacking)
    (hrange : buffer.length + maxBulkLength + 2 < range) :
    (round range scanner buffer).map (Round.toStep buffer) =
      some (scanner.step (buffer.drop scanner.cursor)) := by
  rw [round, findLineEnd_eq (by omega), Option.bind_eq_bind, Option.bind_some,
    Scanner.step_eq_announced]
  generalize hstart : max scanner.searched scanner.cursor = start
  rw [Scanner.lineAt_drop hstart]
  rcases hfound : Bytes.lineEnd? (buffer.drop start) with _ | offset
  · -- Without a line end, both note that all but the last byte was searched.
    have hsearched : max (buffer.length - 1) scanner.cursor =
        scanner.cursor + ((buffer.drop scanner.cursor).length - 1) := by
      rw [List.length_drop]
      omega
    simp only [Option.map_none, hsearched]
    rfl
  · have hlength := Bytes.length_of_lineEnd? hfound
    rw [List.length_drop] at hlength
    -- The line that was cut out is as long as its place says.
    have hline : ((buffer.drop scanner.cursor).take (start + offset - scanner.cursor)).length =
        start + offset - scanner.cursor := by
      rw [List.length_take, List.length_drop]
      omega
    have hnext : scanner.cursor + (start + offset - scanner.cursor) + 2 = start + offset + 2 := by
      omega
    simp only [Option.map_some, Option.bind_eq_bind]
    rw [slice_of_le (by omega) (by omega), Option.bind_some, add_of_lt (by omega),
      Option.bind_some, hline, hnext]
    split
    · rename_i hempty
      rw [hempty]
      rfl
    · rename_i hsome
      exact readHeader_eq hlacking hsome (by omega) (by omega)

/-- After an element is closed every array still open lacks one. -/
theorem lacking_closeElement {missing : List Nat} (h : ∀ count ∈ missing, 1 ≤ count) :
    ∀ count ∈ closeElement missing, 1 ≤ count := by
  induction missing with
  | nil => exact h
  | cons lacking outer ih =>
      rw [List.forall_mem_cons] at h
      rw [closeElement]
      by_cases hone : 1 < lacking
      · rw [if_pos hone, List.forall_mem_cons]
        exact ⟨by omega, h.2⟩
      · rw [if_neg hone]
        exact ih h.2

/-- What is true of a scanner at any time, whatever buffers it has seen: its
    offsets are below those no buffer reaches, every open array lacks at least
    one element, and no more arrays are open than may be. -/
structure Sound (range : Nat) (scanner : Scanner) : Prop where
  cursor_lt : scanner.cursor < range / 2
  searched_lt : scanner.searched < range / 2
  lacking : ∀ count ∈ scanner.missing, 1 ≤ count
  nested : scanner.missing.length ≤ maxNesting

/-- A new scanner is sound. -/
theorem sound_fresh (hrange : 2 ≤ range) : Sound range {} where
  cursor_lt := by simp only; omega
  searched_lt := by simp only; omega
  lacking _ h := absurd h List.not_mem_nil
  nested := Nat.zero_le _

/-- A scan stops in a sound state, and a length it gives is that of some bytes
    of the buffer. -/
theorem Outcome.sound_done {answer : Progress Nat} {after : Scanner}
    (h : Outcome scanner buffer (.done answer after)) (hsound : Sound range scanner)
    (hbuffer : buffer.length < range / 2) :
    Sound range after ∧
      ∀ length, answer = .complete length → 1 ≤ length ∧ length ≤ buffer.length := by
  cases h with
  -- Only a search that ran out of bytes moves a field, to the end of the buffer
  -- at most.
  | searching =>
      refine ⟨⟨hsound.cursor_lt, ?_, hsound.lacking, hsound.nested⟩, fun length h => ?_⟩
      · have := hsound.cursor_lt
        simp only
        omega
      · exact absurd h (by simp only [reduceCtorEq, not_false_eq_true])
  | waiting =>
      exact ⟨hsound, fun length h => absurd h (by simp only [reduceCtorEq, not_false_eq_true])⟩
  | refused fault =>
      exact ⟨hsound, fun length h => absurd h (by simp only [reduceCtorEq, not_false_eq_true])⟩
  | last hforward hinside =>
      refine ⟨sound_fresh (by omega), fun length h => ?_⟩
      rw [← Progress.complete.inj h]
      omega

/-- A round that goes on leaves a sound state. -/
theorem Outcome.sound_again {next : Scanner} (h : Outcome scanner buffer (.again next))
    (hsound : Sound range scanner) (hbuffer : buffer.length < range / 2) : Sound range next := by
  cases h with
  | next hforward hinside =>
      have hlength := Scanner.length_closeElement scanner.missing
      have hnested := hsound.nested
      refine ⟨by simp only; omega, by simp only; omega, ?_, by simp only; omega⟩
      exact lacking_closeElement hsound.lacking
  -- The array that is opened lacks all of its elements, of which there are
  -- some, and there was room for it.
  | opened hforward hinside hcount hroom =>
      refine ⟨by simp only; omega, by simp only; omega, fun count h => ?_, ?_⟩
      · rcases List.mem_cons.1 h with rfl | h
        · exact hcount
        · exact hsound.lacking count h
      · rw [List.length_cons]
        omega

/-- The scanners with which a scan starts its rounds. -/
inductive Passes (range : Nat) (buffer : Bytes) : Scanner → Scanner → Prop where
  | here {scanner : Scanner} : Passes range buffer scanner scanner
  | further {scanner next later : Scanner}
      (hround : round range scanner buffer = some (.again next))
      (hlater : Passes range buffer next later) : Passes range buffer scanner later

/-- Every state a scan passes through is sound. -/
theorem Passes.sound {later : Scanner} (h : Passes range buffer scanner later)
    (hsound : Sound range scanner) (hbuffer : buffer.length < range / 2) : Sound range later := by
  induction h with
  | here => exact hsound
  | further hround _ ih => exact ih ((outcome_of_round hround).sound_again hsound hbuffer)

-- Only the two bounds matter: no buffer reaches the upper half of the words,
-- and what a bulk string may announce fits into that half.
theorem exists_round (hrange : 2 ^ 32 ≤ range) (hsound : Sound range scanner)
    (hbuffer : buffer.length < range / 2) :
    ∃ result, round range scanner buffer = some result ∧
      scanner.step (buffer.drop scanner.cursor) = result.toStep buffer := by
  have hround := @round_eq range scanner buffer hsound.lacking
    (by unfold maxBulkLength; omega)
  rcases Option.map_eq_some_iff.1 hround with ⟨result, hsome, hstep⟩
  exact ⟨result, hsome, hstep.symm⟩

/-- A checked scan has a result, and it is that of the scan. The scanner it
    leaves is sound, and a length it gives is a length of a part. -/
theorem scan_eq (hrange : 2 ^ 32 ≤ range) (hsound : Sound range scanner)
    (hbuffer : buffer.length < range / 2) :
    scan range scanner buffer = some (scanner.scan buffer) ∧
      Sound range (scanner.scan buffer).2 ∧
      ∀ length, (scanner.scan buffer).1 = .complete length →
        1 ≤ length ∧ length ≤ buffer.length := by
  -- The induction is on the rounds, and soundness is what it carries from one
  -- to the next.
  fun_induction scan range scanner buffer with
  | case1 scanner hnone =>
      rcases exists_round hrange hsound hbuffer with ⟨result, hsome, _⟩
      rw [hnone] at hsome
      exact absurd hsome.symm (Option.some_ne_none result)
  | case2 scanner answer after hround =>
      rcases exists_round hrange hsound hbuffer with ⟨result, hsome, hstep⟩
      rw [hround, Option.some.injEq] at hsome
      rw [← hsome] at hstep
      rw [Scanner.scan, Scanner.scanFrom_of_stop hstep]
      exact ⟨rfl, (outcome_of_round hround).sound_done hsound hbuffer⟩
  | case3 scanner next hround _ ih =>
      rcases exists_round hrange hsound hbuffer with ⟨result, hsome, hstep⟩
      rw [hround, Option.some.injEq] at hsome
      rw [← hsome] at hstep
      rw [Scanner.scan, Scanner.scanFrom_of_more hstep]
      exact ih ((outcome_of_round hround).sound_again hsound hbuffer)

/-- A call on a scanner. -/
inductive Call where
  /-- A scan of a buffer, which need not have to do with any other. -/
  | scan (buffer : Bytes)
  /-- The scanner is to forget its progress. -/
  | reset

/-- Buffers take at most half of what words can count. -/
def Call.Fits (range : Nat) : Call → Prop
  | .scan buffer => buffer.length < range / 2
  | .reset => True

/-- The scanner after a call, if every operation of the call has a result. -/
def Call.perform (range : Nat) (scanner : Scanner) : Call → Option Scanner
  | .scan buffer => (Checked.scan range scanner buffer).map Prod.snd
  | .reset => some {}

/-- The scanner after a call. -/
def Call.after (scanner : Scanner) : Call → Scanner
  | .scan buffer => (scanner.scan buffer).2
  | .reset => {}

/-- A call on a sound scanner never fails, does what it does without a bound,
    and leaves the scanner sound. -/
theorem Call.perform_eq (hrange : 2 ^ 32 ≤ range) (hsound : Sound range scanner) {call : Call}
    (hcall : call.Fits range) :
    call.perform range scanner = some (call.after scanner) ∧ Sound range (call.after scanner) := by
  cases call with
  | scan buffer =>
      rcases scan_eq hrange hsound hcall with ⟨hscan, hafter, _⟩
      rw [perform, hscan]
      exact ⟨rfl, hafter⟩
  | reset => exact ⟨rfl, sound_fresh (by omega)⟩

/-- So does a sequence of calls, whatever their buffers have to do with each
    other. -/
theorem perform_all (hrange : 2 ^ 32 ≤ range) (hsound : Sound range scanner) {calls : List Call}
    (hcalls : ∀ call ∈ calls, call.Fits range) :
    calls.foldlM (Call.perform range) scanner = some (calls.foldl Call.after scanner) ∧
      Sound range (calls.foldl Call.after scanner) := by
  induction calls generalizing scanner with
  | nil => exact ⟨rfl, hsound⟩
  | cons call calls ih =>
      rw [List.forall_mem_cons] at hcalls
      rcases Call.perform_eq hrange hsound hcalls.1 with ⟨hperform, hafter⟩
      rw [List.foldlM_cons, hperform, Option.bind_eq_bind, Option.bind_some, List.foldl_cons]
      exact ih hafter hcalls.2

/-- Whatever calls a scanner has had, with whatever buffers, no operation of
    another scan is without a result, and neither was one before. -/
theorem scan_safe {range : Nat} (hrange : 2 ^ 32 ≤ range) {calls : List Call} {buffer : Bytes}
    (hcalls : ∀ call ∈ calls, call.Fits range) (hbuffer : buffer.length < range / 2) :
    calls.foldlM (Call.perform range) {} = some (calls.foldl Call.after {}) ∧
      scan range (calls.foldl Call.after {}) buffer =
        some ((calls.foldl Call.after {}).scan buffer) ∧
      (∀ state, Passes range buffer (calls.foldl Call.after {}) state →
        Sound range state ∧ (round range state buffer).isSome = true ∧
          ∀ next, round range state buffer = some (.again next) →
            state.cursor < next.cursor ∧ next.cursor ≤ buffer.length) ∧
      Sound range ((calls.foldl Call.after {}).scan buffer).2 ∧
      ∀ length, ((calls.foldl Call.after {}).scan buffer).1 = .complete length →
        1 ≤ length ∧ length ≤ buffer.length := by
  -- The calls before the scan leave the scanner sound, and that is all it
  -- needs.
  rcases perform_all hrange (sound_fresh (by omega)) hcalls with ⟨hperformed, hsound⟩
  rcases scan_eq hrange hsound hbuffer with ⟨hscan, hafter, hlength⟩
  refine ⟨hperformed, hscan, fun state hpasses => ?_, hafter, hlength⟩
  have hstate := hpasses.sound hsound hbuffer
  rcases exists_round hrange hstate hbuffer with ⟨result, hround, _⟩
  exact ⟨hstate, by rw [hround]; rfl, fun next => forward_of_round⟩

/-- An array whose only element is wanting, and then a single byte that has
    nothing to do with it: the offsets kept are past the end of that buffer. -/
def staleCalls : List Call :=
  [.scan (Bytes.ofText "*1\r\n$9\r\n"), .scan (Bytes.ofText "+")]

-- The next buffer is another one again. The cursor happens to stand before a
-- header line in it, and the array is closed by what is found there.
theorem scan_safe_stale :
    (∀ call ∈ staleCalls, call.Fits (2 ^ 64)) ∧
      staleCalls.foldlM (Call.perform (2 ^ 64)) {} = some ⟨4, 4, [1]⟩ ∧
      scan (2 ^ 64) ⟨4, 4, [1]⟩ (Bytes.ofText "+OK\r:1\r\n") = some (.complete 8, {}) ∧
      1 ≤ 8 ∧ 8 ≤ (Bytes.ofText "+OK\r:1\r\n").length := by
  have hcalls : ∀ call ∈ staleCalls, call.Fits (2 ^ 64) := by
    intro call hcall
    rcases List.mem_cons.1 hcall with rfl | hcall
    · have hlength : (Bytes.ofText "*1\r\n$9\r\n").length = 8 := by cbv
      rw [Call.Fits, hlength]
      decide
    · rw [List.mem_singleton.1 hcall]
      have hlength : (Bytes.ofText "+").length = 1 := by cbv
      rw [Call.Fits, hlength]
      decide
  have hstale : staleCalls.foldl Call.after {} = ⟨4, 4, [1]⟩ := by cbv
  have hlast : (⟨4, 4, [1]⟩ : Scanner).scan (Bytes.ofText "+OK\r:1\r\n") = (.complete 8, {}) := by
    cbv
  have hlength : (Bytes.ofText "+OK\r:1\r\n").length = 8 := by cbv
  have hsafe := scan_safe (by decide : 2 ^ 32 ≤ 2 ^ 64) hcalls
    (by rw [hlength]; decide : (Bytes.ofText "+OK\r:1\r\n").length < 2 ^ 64 / 2)
  rw [hstale, hlast] at hsafe
  rcases hsafe with ⟨hperformed, hscan, _, _, hbounds⟩
  exact ⟨hcalls, hperformed, hscan, hbounds 8 rfl⟩

end Checked

end RespBus
