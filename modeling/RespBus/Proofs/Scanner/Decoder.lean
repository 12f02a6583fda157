import RespBus.Proofs.Scanner.Rounds

/-!
# The Scanner and the Decoder

The scanner keeps the open arrays in a list and goes round; the decoder
recurses, with one level less to spend for every array. They agree on every
buffer, on what is wrong with it as on its length.

The recursion in the midst of an array is a stack of things still to do, and
`unwind` writes it out as a reader: once the element at hand has been read,
the innermost array needs the elements it lacks beyond that one, then the
array around it needs its own, and so on outwards. `resume` reads the element
at hand first. The arrays that are open are also those that were paid for, so
an element inside them may be read with the levels that are left.

Both sides then obey one equation. `resume_eq` says that what is still to be
done begins with an opening and goes on with the open arrays changed by
`openElement`, which is what a round of the scanner does. The equation holds
as long as no more arrays are open than are allowed, and a round keeps it so.

## Main definitions

* `Reader.repeated`: A reader several times, with what it reads forgotten.
* `Reply.unwind`: What is to be read once an element is finished.
* `Reply.resume`: What is to be read from the beginning of an element.

## Theorems

* `Reply.read_forget`: A reply with its value forgotten is an opening and its
  elements.
* `Reply.unwind_eq`: A finished element closes the arrays it completes.
* `Reply.resume_eq`: What is to be done is an opening and what is then to be
  done.
* `Scanner.scanFrom_eq`: A scan does what is to be done and measures it.
* `frameLength_eq_read`: The length is that of the reply that is read.
* `frameLength_eq_complete_iff_decode`: A length found is that of a value; and
  alike for the other answers.
* `frameLength_eq_decode`: The scanner is the decoder with the value forgotten.
-/

namespace RespBus

namespace Reader

variable {α β : Type}

/-- A reader several times over, with what it reads forgotten. -/
def repeated (reader : Reader α) : Nat → Reader Unit
  | 0 => pure ()
  | count + 1 => reader >>= fun _ => repeated reader count

/-- A run of some elements is one element and a run of one fewer. -/
theorem repeated_of_pos (reader : Reader α) {count : Nat} (h : 0 < count) :
    repeated reader count = reader >>= fun _ => repeated reader (count - 1) := by
  cases count with
  | zero => omega
  | succ count => rfl

end Reader

namespace Reply

open Reader (opening repeated)

/-- To read elements and forget them is to run the reader as often as there are
    elements. -/
theorem readMany_forget {β : Type} (readItem : Reader Reply) (count : Nat) (done : List Reply)
    (next : Reader β) :
    ((readMany readItem count done : Reader (List Reply)) >>= fun _ => next) =
      repeated readItem count >>= fun _ => next := by
  induction count generalizing done with
  | zero => rfl
  | succ count ih =>
      rw [readMany_succ, repeated, bind_assoc, bind_assoc]
      exact bind_congr fun item => ih (item :: done)

/-- The elements that an array needs, when `levels` arrays may be opened. -/
def elements (levels count : Nat) : Reader Unit :=
  if count = 0 then pure ()
  else
    match levels with
    | 0 => Reader.refuse .nestedTooDeeply
    | levels + 1 => repeated (read levels) count

-- What is read after a header does not depend on the value that is made of it.
theorem body_forget {β : Type} {readItems : Nat → Reader (List Reply)} {levels : Nat}
    {next : Reader β}
    (hitems : ∀ count, count ≠ 0 →
      (readItems count >>= fun _ => next) = elements levels count >>= fun _ => next)
    (header : Header) :
    (body readItems header >>= fun _ => next) =
      Reader.skip header >>= fun count => elements levels count >>= fun _ => next := by
  cases header with
  | bulk length =>
      rw [body, Reader.skip, bind_assoc, bind_assoc]
      rfl
  | array count =>
      rw [body, Reader.skip, pure_bind]
      -- Nothing is read for an array without elements, at any level.
      by_cases hcount : count = 0
      · unfold elements
        rw [if_pos hcount, if_pos hcount]
        rfl
      · rw [if_neg hcount, ← hitems count hcount, bind_assoc]
        rfl
  | _ => rfl

/-- To read a reply and forget it is to read its opening and then the elements
    that it announces. -/
theorem read_forget {β : Type} (levels : Nat) (next : Reader β) :
    ((read levels : Reader Reply) >>= fun _ => next) =
      opening >>= fun count => elements levels count >>= fun _ => next := by
  cases levels with
  -- Without a level left the reader refuses any element.
  | zero =>
      rw [read, readElement_eq, opening, bind_assoc, bind_assoc]
      refine bind_congr (body_forget fun count hcount => ?_)
      rw [elements, if_neg hcount]
      rfl
  | succ levels =>
      rw [read, readElement_eq, opening, bind_assoc, bind_assoc]
      refine bind_congr (body_forget fun count hcount => ?_)
      rw [elements, if_neg hcount]
      exact readMany_forget (read levels) count [] next

/-- What is still to be read once the element at hand is finished: what each
    open array lacks beyond the element it is at, innermost first. -/
def unwind : List Nat → Reader Unit
  | [] => pure ()
  | lacking :: outer => do
    repeated (read (maxNesting - (outer.length + 1))) (lacking - 1)
    unwind outer

/-- What is still to be read from the beginning of an element. -/
def resume (missing : List Nat) : Reader Unit :=
  (read (maxNesting - missing.length) : Reader Reply) >>= fun _ => unwind missing

-- A finished element closes the arrays it completes. If it leaves one open,
-- then the next element of that array is at hand.
theorem unwind_eq (missing : List Nat) :
    unwind missing =
      match closeElement missing with
      | [] => pure ()
      | lacking :: outer => resume (lacking :: outer) := by
  induction missing with
  | nil => rfl
  | cons lacking outer ih =>
      rw [unwind, closeElement]
      by_cases hmore : 1 < lacking
      · rw [if_pos hmore, Reader.repeated_of_pos _ (by omega), bind_assoc]
        rfl
      · -- The element was the last, so the array is itself an element now.
        have hlast : lacking - 1 = 0 := by omega
        rw [if_neg hmore, hlast, repeated, pure_bind, ih]

/-- What is to be read is an opening and then, with the open arrays changed by
    it, what is to be read from there. -/
theorem resume_eq {missing : List Nat} (hroom : missing.length ≤ maxNesting) :
    resume missing =
      opening >>= fun count =>
        match Scanner.openElement count missing with
        | none => Reader.refuse .nestedTooDeeply
        | some [] => pure ()
        | some (lacking :: outer) => resume (lacking :: outer) := by
  rw [resume, read_forget]
  refine bind_congr fun count => ?_
  unfold elements Scanner.openElement
  by_cases hcount : count = 0
  · rw [if_pos hcount, if_pos hcount, pure_bind, unwind_eq]
    cases closeElement missing <;> rfl
  · rw [if_neg hcount, if_neg hcount]
    by_cases hopen : missing.length < maxNesting
    · -- A level is left, and the elements are read with one level less.
      have hlevels : maxNesting - missing.length = maxNesting - (missing.length + 1) + 1 := by
        omega
      rw [if_pos hopen, hlevels]
      simp only []
      rw [Reader.repeated_of_pos _ (by omega), bind_assoc]
      rfl
    · have hlevels : maxNesting - missing.length = 0 := by omega
      rw [if_neg hopen, hlevels]
      rfl

end Reply

namespace Scanner

/-- Closing an element opens no array. -/
theorem length_closeElement (missing : List Nat) :
    (closeElement missing).length ≤ missing.length := by
  induction missing with
  | nil => exact Nat.le_refl _
  | cons lacking outer ih =>
      rw [closeElement]
      by_cases hmore : 1 < lacking
      · rw [if_pos hmore]
        exact Nat.le_refl _
      · rw [if_neg hmore, List.length_cons]
        omega

/-- No more arrays are open after an element than there are levels. -/
theorem length_openElement {count : Nat} {missing next : List Nat}
    (hroom : missing.length ≤ maxNesting) (h : openElement count missing = some next) :
    next.length ≤ maxNesting := by
  unfold openElement at h
  by_cases hcount : count = 0
  · rw [if_pos hcount, Option.some.injEq] at h
    -- An element without elements of its own can only close arrays.
    have := length_closeElement missing
    rw [← h]
    omega
  · rw [if_neg hcount] at h
    by_cases hopen : missing.length < maxNesting
    · rw [if_pos hopen, Option.some.injEq] at h
      rw [← h, List.length_cons]
      omega
    · rw [if_neg hopen] at h
      exact absurd h (by simp only [reduceCtorEq, not_false_eq_true])

-- A scan does what is to be read from its state, and answers with the offset
-- where that ends. The induction is on the rounds of the scan.
theorem scanFrom_eq {scanner : Scanner} {input : Bytes} (hsearched : scanner.Searched input)
    (hroom : scanner.missing.length ≤ maxNesting) :
    (scanner.scanFrom input).1 =
      (Reply.resume scanner.missing input).map fun found =>
        scanner.cursor + input.length - found.2.length := by
  -- The induction is on the rounds. Each of them is one step of the reader that
  -- resumes, with the same arrays open.
  fun_induction scanFrom scanner input with
  | case1 scanner input answer next hstep =>
      have hround := round_step hsearched
      rw [hstep] at hround
      rw [Reply.resume_eq hroom]
      cases hround with
      | wanting hopening =>
          rw [Reader.bind_of_incomplete hopening]
          rfl
      | refused hopening =>
          rw [Reader.bind_of_invalid hopening]
          rfl
      | tooDeep hopening hopen =>
          rw [Reader.bind_of_complete hopening, hopen]
          rfl
      | @last count rest hopening hopen =>
          rw [Reader.bind_of_complete hopening, hopen]
          rcases Reader.local_opening.complete hopening with ⟨used, hinput, _⟩
          -- The opening used up a front part of the input, so nothing is cut
          -- off by the subtraction.
          have hstop : scanner.cursor + (input.length - rest.length) =
              scanner.cursor + input.length - rest.length := by
            rw [hinput, List.length_append]
            omega
          rw [hstop]
          rfl
  | case2 scanner input next rest hstep _ ih =>
      have hlength := (step_more hstep).1
      have hround := round_step hsearched
      rw [hstep] at hround
      rw [Reply.resume_eq hroom]
      cases hround with
      | next hopening hopen =>
          rw [Reader.bind_of_complete hopening, hopen,
            ih (searched_of_fresh rfl rest) (length_openElement hroom hopen)]
          simp only [] at hlength ⊢
          rw [hlength]

end Scanner

/-- The length of the first reply is what reading it takes off the buffer. -/
theorem frameLength_eq_read (buffer : Bytes) :
    frameLength buffer =
      (Reply.read maxNesting buffer).map fun found => buffer.length - found.2.length := by
  rw [frameLength, Scanner.scan, List.drop_zero,
    Scanner.scanFrom_eq (Scanner.searched_of_fresh rfl buffer) (Nat.zero_le _)]
  -- No array is open at the start, so only the reply itself is to be read.
  have hresume : Reply.resume [] = (Reply.read maxNesting : Reader Reply) >>= fun _ => pure () :=
    rfl
  rw [hresume, Reader.bind_apply, Nat.zero_add]
  cases Reply.read maxNesting buffer <;> rfl

/-- A length is found just if a value of this length is decoded. -/
theorem frameLength_eq_complete_iff_decode {buffer : Bytes} {length : Nat} :
    frameLength buffer = .complete length ↔
      ∃ value, Reply.decode buffer = .complete (value, length) := by
  simp only [frameLength_eq_read, Reply.decode, Progress.map_eq_complete_iff, Prod.mk.injEq]
  constructor
  · rintro ⟨found, hread, hlength⟩
    exact ⟨found.1, found, hread, rfl, hlength⟩
  · rintro ⟨_, found, hread, _, hlength⟩
    exact ⟨found, hread, hlength⟩

/-- Both find the same fault, or neither finds one. -/
theorem frameLength_eq_invalid_iff_decode {buffer : Bytes} {fault : Fault} :
    frameLength buffer = .invalid fault ↔ Reply.decode buffer = .invalid fault := by
  rw [frameLength_eq_read, Reply.decode, Progress.map_eq_invalid_iff,
    Progress.map_eq_invalid_iff]

/-- Both wait for more bytes, or neither does. -/
theorem frameLength_eq_incomplete_iff_decode {buffer : Bytes} :
    frameLength buffer = .incomplete ↔ Reply.decode buffer = .incomplete := by
  rw [frameLength_eq_read, Reply.decode, Progress.map_eq_incomplete_iff,
    Progress.map_eq_incomplete_iff]

/-- The scanner is the decoder with the value forgotten. On every buffer both
    lack bytes, or both find the same fault, or both take the same bytes for
    the first reply. -/
theorem frameLength_eq_decode (buffer : Bytes) :
    frameLength buffer = (Reply.decode buffer).map Prod.snd := by
  rw [frameLength_eq_read, Reply.decode]
  cases Reply.read maxNesting buffer <;> rfl

end RespBus
