import RespBus.Proofs.Reader
import RespBus.Reply.Basic

/-!
# Reading Replies is Local

Reading a reply looks at nothing past the reply. For a line that is a fact
about the search for its end, which stops at the first CR LF; for the data of
a bulk string it is a matter of lengths. A header is a line that is then made
sense of, and a reply is a header and what it announces, so everything else
follows by putting readers together. The induction in `local_read` is on the
arrays that may still be opened.

`readElement_eq` and `readMany_succ` state the reading of replies as readers
one after another. What is proved about replies elsewhere starts from them.

## Main definitions

* `Reader.line`: Reads a line with its end.
* `Reader.bulk`: Reads the counted bytes of a bulk string.
* `Reader.header`: Reads a header line.
* `Reply.body`: Reads what a header announces.

## Theorems

* `Bytes.splitLine_eq_some`: What stands before and after the end of a line.
* `takeBulk_eq_complete`: What stands before and after a bulk string's end.
* `takeBulk_eq_invalid`: A bulk string without its end never gets one.
* `Reader.local_line`, `Reader.local_bulk`, `Reader.local_header`: Lines,
  bulk strings and headers are local.
* `Reply.readElement_eq`: A reply is a header and what it announces.
* `Reply.readMany_succ`: Several replies are one and then the others.
* `Reply.local_read`: Reading a reply is local.
-/

namespace RespBus

namespace Reader

/-- Reads a line and its end. -/
def line : Reader Bytes := fun input =>
  match Bytes.splitLine input with
  | none => .incomplete
  | some found => .complete found

/-- Reads the counted bytes of a bulk string and the end after them. -/
def bulk (length : Nat) : Reader Bytes :=
  takeBulk length

end Reader

namespace Bytes

/-- The first line is what stands before the first CR LF, and nothing past
    that pair is looked at. -/
theorem splitLine_eq_some {input line rest : Bytes} (h : splitLine input = some (line, rest)) :
    input = line ++ crlf ++ rest ∧
      ∀ more, splitLine (line ++ crlf ++ more) = some (line, more) := by
  induction input generalizing line with
  | nil => exact absurd h (by simp only [splitLine, splitLineAfter, reduceCtorEq,
      not_false_eq_true])
  | cons b tail ih =>
      rw [splitLine_cons] at h
      by_cases hend : b = cr ∧ tail.head? = some lf
      · -- The line is empty, and its end comes first.
        rw [if_pos hend, Option.some.injEq, Prod.mk.injEq] at h
        rcases List.head?_eq_some_iff.1 hend.2 with ⟨after, htail⟩
        refine ⟨?_, fun more => ?_⟩
        · rw [← h.1, ← h.2, hend.1, htail]
          rfl
        · rw [← h.1]
          rfl
      · rw [if_neg hend, Option.map_eq_some_iff] at h
        rcases h with ⟨⟨before, after⟩, hsplit, hfound⟩
        simp only [Prod.mk.injEq] at hfound
        rcases hfound with ⟨rfl, rfl⟩
        rcases ih hsplit with ⟨htail, hmore⟩
        refine ⟨by rw [htail]; rfl, fun more => ?_⟩
        -- What follows `b` starts with the same byte as before.
        have hhead : (before ++ crlf ++ more).head? = tail.head? := by
          rw [htail]
          cases before <;> rfl
        simp only [List.cons_append]
        rw [splitLine_cons, hhead, if_neg hend, hmore more]
        rfl

end Bytes

/-- The data of a bulk string has the announced length and a line end after
    it, and nothing past that is looked at. -/
theorem takeBulk_eq_complete {length : Nat} {input data rest : Bytes}
    (h : takeBulk length input = .complete (data, rest)) :
    input = data ++ Bytes.crlf ++ rest ∧
      ∀ more, takeBulk length (data ++ Bytes.crlf ++ more) = .complete (data, more) := by
  simp only [takeBulk] at h
  split at h
  · rename_i first second after hdrop
    split at h
    · rename_i hend
      simp only [Progress.complete.injEq, Prod.mk.injEq] at h
      rcases h with ⟨rfl, rfl⟩
      -- There are bytes behind the data, so all of it is there.
      have hlength : (input.take length).length = length := by
        have := congrArg List.length hdrop
        simp only [List.length_drop, List.length_cons] at this
        rw [List.length_take]
        omega
      refine ⟨?_, fun more => ?_⟩
      · have hsplit := List.take_append_drop length input
        rw [hdrop, hend.1, hend.2] at hsplit
        rw [List.append_assoc]
        exact hsplit.symm
      · simp only [takeBulk]
        rw [List.append_assoc, List.drop_left' hlength, List.take_left' hlength]
        rfl
    · exact absurd h (by simp only [reduceCtorEq, not_false_eq_true])
  · exact absurd h (by simp only [reduceCtorEq, not_false_eq_true])

/-- Bulk data that does not end as it should stays so. -/
theorem takeBulk_eq_invalid {length : Nat} {input : Bytes} {fault : Fault}
    (h : takeBulk length input = .invalid fault) (more : Bytes) :
    takeBulk length (input ++ more) = .invalid fault := by
  simp only [takeBulk] at h ⊢
  split at h
  · rename_i first second after hdrop
    -- Two bytes are there after the data, so what is added comes later.
    have hlength : length ≤ input.length := by
      have := congrArg List.length hdrop
      simp only [List.length_drop, List.length_cons] at this
      omega
    rw [List.drop_append_of_le_length hlength, hdrop]
    simp only [List.cons_append]
    split at h
    · exact absurd h (by simp only [reduceCtorEq, not_false_eq_true])
    · rename_i hend
      rw [if_neg hend]
      exact h
  · exact absurd h (by simp only [reduceCtorEq, not_false_eq_true])

namespace Reader

/-- A line is found without a look behind its end. -/
theorem local_line : Local line where
  complete {input found rest} h := by
    simp only [line] at h
    split at h
    · exact absurd h (by simp only [reduceCtorEq, not_false_eq_true])
    · rename_i split hsplit
      rw [Progress.complete.injEq] at h
      rw [h] at hsplit
      rcases Bytes.splitLine_eq_some hsplit with ⟨hinput, hmore⟩
      refine ⟨found ++ Bytes.crlf, hinput, fun more => ?_⟩
      simp only [line, hmore more]
  invalid {input fault} h := by
    simp only [line] at h
    split at h
    · exact absurd h (by simp only [reduceCtorEq, not_false_eq_true])
    · exact absurd h (by simp only [reduceCtorEq, not_false_eq_true])

theorem local_bulk (length : Nat) : Local (bulk length) where
  complete {_ data _} h :=
    ⟨data ++ Bytes.crlf, (takeBulk_eq_complete h).1, (takeBulk_eq_complete h).2⟩
  invalid h := takeBulk_eq_invalid h

/-- Reads a header line. -/
def header : Reader Header := do
  settle (Header.ofLine (← line))

/-- What a header reads, in terms of the line at the front. -/
theorem header_apply (input : Bytes) :
    header input =
      match Bytes.splitLine input with
      | none => .incomplete
      | some (text, rest) =>
        match Header.ofLine text with
        | .error fault => .invalid fault
        | .ok header => .complete (header, rest) := by
  rw [header, bind_apply, line]
  rcases Bytes.splitLine input with _ | ⟨text, rest⟩
  · rfl
  · change settle (Header.ofLine text) rest = _
    simp only []
    cases Header.ofLine text <;> rfl

theorem local_header : Local header := by
  refine local_line.bind fun text => ?_
  cases Header.ofLine text with
  | error fault => exact Local.refuse fault
  | ok header => exact Local.pure header

end Reader

namespace Reply

/-- Reads what a header announces. The elements of an array that has any are
    read by `readItems`. -/
def body (readItems : Nat → Reader (List Reply)) : Header → Reader Reply
  | .simple text => pure (.simple text)
  | .error text => pure (.error text)
  | .integer value => pure (.integer value)
  | .null => pure .null
  | .bulk length => do return .bulk (← Reader.bulk length)
  | .array count => if count = 0 then pure (.array []) else do return .array (← readItems count)

/-- To read an element is to read its header, and then what the header
    announces. -/
theorem readElement_eq (readItems : Nat → Reader (List Reply)) :
    readElement readItems = Reader.header >>= body readItems := by
  funext input
  rw [Reader.bind_apply, Reader.header_apply, readElement]
  rcases Bytes.splitLine input with _ | ⟨text, rest⟩
  · rfl
  · simp only []
    rcases Header.ofLine text with fault | header
    · rfl
    · -- Only data and elements are read behind the header.
      cases header with
      | bulk length => exact Progress.map_eq _ _
      | array count =>
          change (if count = 0 then _ else _) = (if count = 0 then _ else _ : Reader Reply) rest
          by_cases hcount : count = 0
          · rw [if_pos hcount, if_pos hcount]
            rfl
          · rw [if_neg hcount, if_neg hcount]
            exact Progress.map_eq _ _
      | _ => rfl

/-- What a header announces is read without a look behind it, if elements are. -/
theorem local_body {readItems : Nat → Reader (List Reply)}
    (hitems : ∀ count, (readItems count).Local) (header : Header) :
    (body readItems header).Local := by
  cases header with
  | bulk length => exact (Reader.local_bulk length).bind fun data => Reader.Local.pure _
  | array count =>
      rw [body]
      by_cases hcount : count = 0
      · rw [if_pos hcount]
        exact Reader.Local.pure _
      · rw [if_neg hcount]
        exact (hitems count).bind fun items => Reader.Local.pure _
  | _ => exact Reader.Local.pure _

/-- To read some elements is to read one and then the others. -/
theorem readMany_succ (readItem : Reader Reply) (count : Nat) (done : List Reply) :
    readMany readItem (count + 1) done =
      readItem >>= fun item => (readMany readItem count (item :: done) : Reader (List Reply)) := by
  funext input
  rw [Reader.bind_apply, readMany]
  cases readItem input <;> rfl

/-- Elements in a row are read without a look behind the last, if each of them
    is. -/
theorem local_readMany {readItem : Reader Reply} (hitem : readItem.Local) (count : Nat)
    (done : List Reply) : Reader.Local (readMany readItem count done) := by
  induction count generalizing done with
  | zero => exact Reader.Local.pure done.reverse
  | succ count ih =>
      rw [readMany_succ]
      exact hitem.bind fun item => ih (item :: done)

/-- Reading a reply is local. The induction is on the arrays that may still
    be opened, as each level is given the reader of the level below it. -/
theorem local_read (levels : Nat) : Reader.Local (read levels) := by
  induction levels with
  | zero =>
      rw [read, readElement_eq]
      exact Reader.local_header.bind
        (local_body fun _ => Reader.Local.refuse .nestedTooDeeply)
  | succ levels ih =>
      rw [read, readElement_eq]
      exact Reader.local_header.bind (local_body fun count => local_readMany ih count [])

end Reply

end RespBus
