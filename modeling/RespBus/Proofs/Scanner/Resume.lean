import Mathlib
import RespBus.Proofs.Scanner.Rounds

/-!
# Resuming a Scan

A scanner is asked again and again about one buffer while the buffer grows,
and every time it starts from what it has kept. `Tracks` says when that is
right. The open arrays and the cursor are those which a new scanner would
come to on its way over the buffer, and no line end has been overlooked
between the cursor and the point the search has reached.

The way of a new scanner is `Walk`: the rounds it goes on from, one after
another, each with the bytes that are left. A walk over a buffer is a walk
over any longer one, because a round looks at nothing but what it uses. A
scanner that tracks a buffer therefore tracks it still when bytes arrive, and
a scan from where the walk has come to is the scan from the start.

A scan that finds no length leaves a scanner that tracks the buffer again. It
makes no difference whether bytes were wanting or a fault was met: the cursor
stands before the header line that was the trouble, and that line will be
read once more.

## Main definitions

* `Scanner.rewound`: The scanner with nothing searched.
* `Scanner.Walk`: The way of a new scanner over a buffer.
* `Scanner.Tracks`: The progress is right for a buffer.
* `Scanner.scanEach`: One scanner asked about several buffers.

## Theorems

* `Scanner.step_more_local`: A round that goes on does so on more bytes.
* `Scanner.Walk.scanFrom`: A walk leads to the scan from the start.
* `Scanner.Tracks.append`: Bytes that arrive do not spoil the progress.
* `Scanner.tracks_scan`: A scan from right progress is a scan from the start
  and leaves right progress.
* `Scanner.scan_resumed`: Resuming is starting over.
-/

namespace RespBus

namespace Scanner

/-- The scanner with its search back at the cursor. -/
def rewound (scanner : Scanner) : Scanner :=
  { scanner with searched := scanner.cursor }

-- A round that goes on is an opening of some bytes at the front, and goes on
-- in the same way when more bytes follow them.
theorem step_more_local {scanner next : Scanner} {input rest : Bytes}
    (h : scanner.Searched input) (hstep : scanner.step input = .more next rest) :
    next.rewound = next ∧ (∃ used, input = used ++ rest) ∧
      ∀ more, scanner.step (input ++ more) = .more next (rest ++ more) := by
  have hround := round_step h
  rw [hstep] at hround
  cases hround with
  | next hopening hopen =>
      -- The opening does not look beyond what it used, so it is the same with
      -- more bytes behind.
      rcases Reader.local_opening.complete hopening with ⟨used, hinput, _⟩
      refine ⟨rfl, ⟨used, hinput⟩, fun more => ?_⟩
      rw [step_eq (h.append more), Reader.local_opening.append hopening more]
      simp only [enter, hopen, List.length_append, Nat.add_sub_add_right]

/-- The rounds of a new scanner over a buffer, as far as they go on. -/
inductive Walk (buffer : Bytes) : Scanner → Bytes → Prop where
  | start : Walk buffer {} buffer
  | round {scanner next : Scanner} {input rest : Bytes} (walked : Walk buffer scanner input)
      (hstep : scanner.step input = .more next rest) : Walk buffer next rest

namespace Walk

variable {buffer input : Bytes} {scanner : Scanner}

theorem rewound (h : Walk buffer scanner input) : scanner.rewound = scanner := by
  induction h with
  | start => rfl
  | round _ hstep ih =>
      exact (step_more_local (searched_of_fresh (by rw [← ih]; rfl) _) hstep).1

/-- A scanner on its walk has claimed nothing about what it has not seen. -/
theorem searched (h : Walk buffer scanner input) (rest : Bytes) : scanner.Searched rest := by
  refine searched_of_fresh ?_ rest
  rw [← h.rewound]
  rfl

-- The bytes a walk has passed are those before the cursor.
theorem passed (h : Walk buffer scanner input) :
    ∃ before, buffer = before ++ input ∧ before.length = scanner.cursor := by
  induction h with
  | start => exact ⟨[], rfl, rfl⟩
  | round walked hstep ih =>
      rcases ih with ⟨before, hbuffer, hcursor⟩
      rcases (step_more_local (walked.searched _) hstep).2.1 with ⟨used, hinput⟩
      have hmore := (step_more hstep).1
      refine ⟨before ++ used, ?_, ?_⟩
      · rw [hbuffer, hinput, List.append_assoc]
      · rw [hinput, List.length_append] at hmore
        rw [List.length_append]
        omega

/-- A walk through the front of a buffer is a walk through the whole. -/
theorem append (h : Walk buffer scanner input) (more : Bytes) :
    Walk (buffer ++ more) scanner (input ++ more) := by
  induction h with
  | start => exact start
  | round walked hstep ih =>
      exact ih.round ((step_more_local (walked.searched _) hstep).2.2 more)

-- From wherever a walk has come to, the scan ends as it does from the start.
theorem scanFrom (h : Walk buffer scanner input) :
    scanner.scanFrom input = ({} : Scanner).scan buffer := by
  induction h with
  | start => rfl
  | round walked hstep ih =>
      rw [← ih]
      exact (scanFrom_of_more hstep).symm

end Walk

-- What has been searched makes no difference to a round, except to what a
-- scanner that stops will search next time.
theorem step_rewound {scanner : Scanner} {input : Bytes} (h : scanner.Searched input) :
    scanner.rewound.step input =
      match scanner.step input with
      | .stop .incomplete _ => .stop .incomplete (scanner.rewound.suspend input)
      | .stop (.invalid fault) _ => .stop (.invalid fault) scanner.rewound
      | other => other := by
  rw [step_eq h, step_eq (searched_of_fresh rfl input)]
  rcases Reader.opening input with _ | fault | ⟨count, rest⟩
  · rfl
  · rfl
  · simp only [enter, rewound]
    rcases openElement count scanner.missing with _ | _ | ⟨lacking, outer⟩ <;> rfl

-- A round that finds no length keeps the cursor and the open arrays, and its
-- search is sound.
theorem step_stop {scanner next : Scanner} {input : Bytes} {answer : Progress Nat}
    (h : scanner.Searched input) (hstep : scanner.step input = .stop answer next)
    (hanswer : ∀ length, answer ≠ .complete length) :
    next.rewound = scanner.rewound ∧ next.Searched input := by
  have hround := round_step h
  rw [hstep] at hround
  cases hround with
  | wanting hopening =>
      refine ⟨?_, searched_suspend h⟩
      unfold suspend
      cases Bytes.splitLine input <;> rfl
  | refused hopening => exact ⟨rfl, h⟩
  | tooDeep hopening hopen => exact ⟨rfl, h⟩
  -- The last element of a reply would give a length.
  | last hopening hopen => exact absurd rfl (hanswer _)

/-- The progress of a scanner is right for a buffer: a new scanner would get
    over the buffer to the same cursor with the same open arrays, and no line
    end has been overlooked after it. -/
structure Tracks (scanner : Scanner) (buffer : Bytes) : Prop where
  walked : Walk buffer scanner.rewound (buffer.drop scanner.cursor)
  searched : scanner.Searched (buffer.drop scanner.cursor)

/-- A new scanner tracks whatever it will be given. -/
theorem tracks_new (buffer : Bytes) : ({} : Scanner).Tracks buffer where
  walked := Walk.start
  searched := searched_of_fresh rfl buffer

/-- To track a buffer is to track every longer one that starts with it. -/
theorem Tracks.append {scanner : Scanner} {buffer : Bytes} (h : scanner.Tracks buffer)
    (more : Bytes) : scanner.Tracks (buffer ++ more) := by
  rcases h.walked.passed with ⟨before, hbuffer, hcursor⟩
  -- The cursor is inside the shorter buffer, so more bytes only go to the end
  -- of what is left.
  have hlength : scanner.cursor ≤ buffer.length := by
    have := congrArg List.length hbuffer
    have hbefore : before.length = scanner.cursor := hcursor
    rw [List.length_append] at this
    omega
  refine ⟨?_, ?_⟩
  · rw [List.drop_append_of_le_length hlength]
    exact h.walked.append more
  · rw [List.drop_append_of_le_length hlength]
    exact h.searched.append more

-- The induction is on the rounds of the scan. Its invariant is that the
-- scanner, its search aside, is on the way of a new scanner.
theorem tracks_scanFrom {buffer input : Bytes} {scanner : Scanner}
    (hwalk : Walk buffer scanner.rewound input) (hsearched : scanner.Searched input) :
    (scanner.scanFrom input).1 = frameLength buffer ∧
      ((∀ length, frameLength buffer ≠ .complete length) →
        (scanner.scanFrom input).2.Tracks buffer) := by
  fun_induction scanFrom scanner input with
  | case1 scanner input answer next hstep =>
      -- A new scanner, come to this point, stops with the same answer.
      have hanswer : answer = frameLength buffer := by
        rw [frameLength, ← hwalk.scanFrom]
        have hrewound := step_rewound hsearched
        rw [hstep] at hrewound
        cases answer with
        | _ => exact (congrArg Prod.fst (scanFrom_of_stop hrewound)).symm
      refine ⟨hanswer, fun hopen => ?_⟩
      rw [← hanswer] at hopen
      rcases step_stop hsearched hstep hopen with ⟨hnext, hagain⟩
      rcases hwalk.passed with ⟨before, hbuffer, hcursor⟩
      have hsame : next.rewound.cursor = scanner.rewound.cursor := by rw [hnext]
      change next.cursor = scanner.cursor at hsame
      -- The cursor has not moved, so what is left of the buffer is still the
      -- input.
      have hdrop : buffer.drop next.cursor = input := by
        rw [hbuffer, hsame]
        exact List.drop_left' hcursor
      simp only []
      exact ⟨by rw [hdrop, hnext]; exact hwalk, by rw [hdrop]; exact hagain⟩
  | case2 scanner input next rest hstep _ ih =>
      have hrewound := step_rewound hsearched
      rw [hstep] at hrewound
      have hnext := (step_more_local hsearched hstep).1
      refine ih ?_ ?_
      · rw [hnext]
        exact hwalk.round hrewound
      · exact searched_of_fresh (by rw [← hnext]; rfl) rest

/-- A scan from right progress is a scan from the start. If it finds no
    length, then the progress it leaves is right again. -/
theorem tracks_scan {scanner : Scanner} {buffer : Bytes} (h : scanner.Tracks buffer) :
    (scanner.scan buffer).1 = frameLength buffer ∧
      ((∀ length, frameLength buffer ≠ .complete length) →
        (scanner.scan buffer).2.Tracks buffer) :=
  tracks_scanFrom h.walked h.searched

/-- One scanner asked about buffers one after another, with its answers. -/
def scanEach (scanner : Scanner) : List Bytes → List (Progress Nat) × Scanner
  | [] => ([], scanner)
  | buffer :: buffers =>
    let (answer, next) := scanner.scan buffer
    let (answers, last) := next.scanEach buffers
    (answer :: answers, last)

-- A scanner that tracks a buffer and is asked about longer and longer ones
-- tracks the next, as long as it has found no length.
theorem tracks_scanEach {scanner : Scanner} {start last : Bytes} {earlier : List Bytes}
    (h : scanner.Tracks start)
    (hgrows : (start :: (earlier ++ [last])).Pairwise (fun first second => first <+: second))
    (hopen : ∀ answer ∈ (scanner.scanEach earlier).1, ∀ length, answer ≠ .complete length) :
    (scanner.scanEach earlier).2.Tracks last := by
  induction earlier generalizing scanner start with
  | nil =>
      rcases (List.pairwise_cons.1 hgrows).1 last (List.mem_singleton.2 rfl) with ⟨more, rfl⟩
      exact h.append more
  | cons buffer buffers ih =>
      rw [List.cons_append, List.pairwise_cons] at hgrows
      rcases hgrows.1 buffer (List.mem_cons_self) with ⟨more, rfl⟩
      have hscan := tracks_scan (h.append more)
      -- The first scan found no length, so it leaves a scanner that tracks its
      -- buffer.
      have hfirst := hopen (scanner.scan (start ++ more)).1 (List.mem_cons_self)
      refine ih (hscan.2 ?_) hgrows.2 fun answer hanswer => ?_
      · rw [← hscan.1]
        exact hfirst
      · exact hopen answer (List.mem_cons_of_mem _ hanswer)

/-- Resuming is starting over. One scanner is asked about parts of one buffer,
    each at least as long as the one before, and finds no length in any but
    the last. What it then says of the last is what a new scanner says, and
    if that is a length, then it is as good as new itself. -/
theorem scan_resumed (whole last : Bytes) (earlier : List Bytes)
    (hfront : ∀ part ∈ earlier ++ [last], part <+: whole)
    (hgrows : ((earlier ++ [last]).map List.length).Pairwise (fun first second => first ≤ second))
    (hopen : ∀ answer ∈ (({} : Scanner).scanEach earlier).1,
      ∀ length, answer ≠ .complete length) :
    ((({} : Scanner).scanEach earlier).2.scan last).1 = frameLength last ∧
      ∀ length, ((({} : Scanner).scanEach earlier).2.scan last).1 = .complete length →
        ((({} : Scanner).scanEach earlier).2.scan last).2 = {} := by
  -- Parts of one buffer that grow are parts of one another.
  have hchain : (earlier ++ [last]).Pairwise (fun first second => first <+: second) := by
    rw [List.pairwise_map] at hgrows
    refine hgrows.imp_of_mem fun hfirst hsecond hle => ?_
    exact List.prefix_of_prefix_length_le (hfront _ hfirst) (hfront _ hsecond) hle
  have htracks : (({} : Scanner).scanEach earlier).2.Tracks last := by
    refine tracks_scanEach (tracks_new []) ?_ hopen
    exact List.pairwise_cons.2 ⟨fun part _ => List.nil_prefix, hchain⟩
  refine ⟨(tracks_scan htracks).1, fun length hlength => ?_⟩
  exact (scan_complete (Prod.ext hlength rfl)).2.2

/-- An array that holds an array of a line end, and an integer. -/
def nestedReply : Bytes :=
  Bytes.ofText "*2\r\n*1\r\n$2\r\n\r\n\r\n:7\r\n"

/-- The parts of it that end between CR and LF, in a header and in the data. -/
def nestedParts : List Bytes :=
  [nestedReply.take 3, nestedReply.take 9, nestedReply.take 13]

theorem scan_resumed_nested :
    (({} : Scanner).scanEach nestedParts).2 = ⟨8, 8, [1, 2]⟩ ∧
      ((({} : Scanner).scanEach nestedParts).2.scan nestedReply).1 = frameLength nestedReply ∧
      frameLength nestedReply = .complete 20 ∧
      ((({} : Scanner).scanEach nestedParts).2.scan nestedReply).2 = {} := by
  have hfront : ∀ part ∈ nestedParts ++ [nestedReply], part <+: nestedReply := by
    intro part hpart
    simp only [nestedParts, List.cons_append, List.nil_append, List.mem_cons, List.not_mem_nil,
      or_false] at hpart
    rcases hpart with rfl | rfl | rfl | rfl
    · exact List.take_prefix 3 nestedReply
    · exact List.take_prefix 9 nestedReply
    · exact List.take_prefix 13 nestedReply
    · exact List.prefix_rfl
  have hanswers : (({} : Scanner).scanEach nestedParts).1 =
      [.incomplete, .incomplete, .incomplete] := by cbv
  have hlength : frameLength nestedReply = .complete 20 := by cbv
  have hresumed := scan_resumed nestedReply nestedReply nestedParts hfront (by decide) (by
    rw [hanswers]
    simp only [List.mem_cons, List.not_mem_nil, or_false, or_self, forall_eq, ne_eq,
      reduceCtorEq, not_false_eq_true, implies_true])
  exact ⟨by cbv, hresumed.1, hlength, hresumed.2 20 (by rw [hresumed.1, hlength])⟩

end Scanner

end RespBus
