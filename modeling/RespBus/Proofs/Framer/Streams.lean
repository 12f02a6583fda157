import RespBus.Framer
import RespBus.Proofs.Framer.Replies
import RespBus.Proofs.Scanner.Resume

/-!
# Cutting Streams

A stream reaches the framer in reads, and where one read ends and the next
begins is nobody's choice. With reply framing it makes no difference: the
messages, the bytes held back and the fault are those of one read that brings
the whole stream.

The invariant is that the scanner tracks the bytes held back and that these
are incomplete, so they are neither a reply nor at fault. A push then frames
the bytes held back with those of the read, in the one way there is, and
leaves the invariant in place for the next; that is `push_resp_cases`.
`pushAll_resp` is the induction over the reads. Either they frame the stream,
or there is one among them in which a fault comes to light, and then the
replies handed out are those that the earlier reads had completed.

## Main definitions

* `Framer.pushAll`: Reads one after another, up to the first that fails.
* `judged`: What the bytes after the replies make of a push.
* `FailingRead`: The read in which a fault comes to light.

## Theorems

* `splitFrames_eq`: Cutting a buffer frames it.
* `Framer.push_resp_eq`: A push frames the bytes held back and the read.
* `Framer.push_resp_cases`: What follows the replies decides how a push ends.
* `FailingRead.framed`: The replies are those handed out and those lost.
* `FailingRead.lost_eq_nil_iff`: When no reply is lost.
* `Framer.pushAll_resp`: Reads frame the stream up to the one that fails.
* `Framer.pushAll_resp_flatten`: It makes no difference how a stream is cut.
-/

namespace RespBus

open Scanner (Tracks tracks_new tracks_scan scan_complete)

/-- What the bytes after the replies make of a push: the replies are lost if
    those bytes are at fault. -/
def judged (replies : List Bytes) (rest : Bytes) : Except Fault (List Bytes) :=
  match frameLength rest with
  | .invalid fault => .error fault
  | _ => .ok replies

/-- A reply that is found is split off, and the search goes on behind it. -/
theorem splitFrames_of_complete {scanner next : Scanner} {buffer : Bytes} {length : Nat}
    {done : List Bytes} (h : scanner.scan buffer = (.complete length, next)) :
    splitFrames done scanner buffer =
      splitFrames (buffer.take length :: done) next (buffer.drop length) := by
  rw [splitFrames]
  split
  · rename_i heq
    rw [h] at heq
    exact absurd heq (by simp only [Prod.mk.injEq, reduceCtorEq, false_and, not_false_eq_true])
  · rename_i heq
    rw [h] at heq
    exact absurd heq (by simp only [Prod.mk.injEq, reduceCtorEq, false_and, not_false_eq_true])
  · rename_i heq
    rw [h, Prod.mk.injEq, Progress.complete.injEq] at heq
    simp only [heq.1, heq.2]

-- Cutting a buffer frames it, whatever part of it was scanned before. The
-- induction is on the replies, and each of them leaves a new scanner.
theorem splitFrames_eq {scanner : Scanner} {buffer rest : Bytes} {replies : List Bytes}
    (done : List Bytes) (h : scanner.Tracks buffer) (hframed : Framed buffer replies rest) :
    ∃ next, next.Tracks rest ∧
      splitFrames done scanner buffer = ⟨judged (done.reverse ++ replies) rest, rest, next⟩ := by
  induction replies generalizing done scanner buffer with
  | nil =>
      have hbuffer : buffer = rest := hframed.parts
      have hscan := tracks_scan h
      rw [hbuffer] at hscan ⊢
      refine ⟨(scanner.scan rest).2, hscan.2 hframed.ended, ?_⟩
      rw [splitFrames, judged, List.append_nil]
      split
      · rename_i next heq
        rw [← hscan.1, heq]
      · rename_i fault next heq
        rw [← hscan.1, heq]
      · rename_i length next heq
        exact absurd (by rw [← hscan.1, heq]) (hframed.ended length)
  | cons reply replies ih =>
      have hbuffer : buffer = reply ++ (replies.flatten ++ rest) := by
        rw [hframed.parts, List.flatten_cons, List.append_assoc]
      -- The first reply is found, and then the induction goes on behind it.
      have hlength : (scanner.scan buffer).1 = .complete reply.length := by
        rw [(tracks_scan h).1, hbuffer]
        exact (hframed.whole reply List.mem_cons_self).append _
      have htail : Framed (replies.flatten ++ rest) replies rest :=
        ⟨rfl, fun r hr => hframed.whole r (List.mem_cons_of_mem _ hr), hframed.ended⟩
      rcases hscan : scanner.scan buffer with ⟨answer, next⟩
      rw [hscan] at hlength
      simp only [] at hlength
      rw [hlength] at hscan
      rw [splitFrames_of_complete hscan, (scan_complete hscan).2.2, hbuffer, List.take_left,
        List.drop_left]
      rcases ih (reply :: done) (tracks_new _) htail with ⟨after, hafter, hsplit⟩
      refine ⟨after, hafter, ?_⟩
      rw [hsplit, List.reverse_cons, List.append_assoc]
      rfl

namespace Framer

/-- Reads one after another: the messages they complete, up to the first read
    that fails, and the framer after the last or the fault. -/
def pushAll (framer : Framer) : List Bytes → List Bytes × Except Fault Framer
  | [] => ([], .ok framer)
  | chunk :: chunks =>
    match framer.push chunk with
    | (.error fault, _) => ([], .error fault)
    | (.ok frames, next) =>
      let (later, outcome) := next.pushAll chunks
      (frames ++ later, outcome)

/-- What a push makes of the bytes is settled by how they are cut. -/
theorem push_resp_eq {scanner : Scanner} {held chunk rest : Bytes} {replies : List Bytes}
    (h : scanner.Tracks held) (hframed : Framed (held ++ chunk) replies rest) :
    ∃ next, next.Tracks rest ∧
      (resp held scanner).push chunk = (judged replies rest, resp rest next) := by
  rcases splitFrames_eq [] (h.append chunk) hframed with ⟨next, hnext, hsplit⟩
  refine ⟨next, hnext, ?_⟩
  rw [push, hsplit]
  rfl

-- A push ends in one of two ways, depending on what follows the replies.
theorem push_resp_cases {scanner : Scanner} {held : Bytes} (h : scanner.Tracks held)
    (chunk : Bytes) :
    ∃ replies rest next, Framed (held ++ chunk) replies rest ∧ next.Tracks rest ∧
      ((frameLength rest = .incomplete ∧
          (resp held scanner).push chunk = (.ok replies, resp rest next)) ∨
        ∃ fault, frameLength rest = .invalid fault ∧
          (resp held scanner).push chunk = (.error fault, resp rest next)) := by
  rcases exists_framed (held ++ chunk) with ⟨replies, rest, hframed⟩
  rcases push_resp_eq h hframed with ⟨next, hnext, hpush⟩
  refine ⟨replies, rest, next, hframed, hnext, ?_⟩
  unfold judged at hpush
  rcases hrest : frameLength rest with _ | fault | length
  · rw [hrest] at hpush
    exact Or.inl ⟨rfl, hpush⟩
  · rw [hrest] at hpush
    exact Or.inr ⟨fault, rfl, hpush⟩
  · -- A rest that starts with a reply is not a rest.
    exact absurd hrest (hframed.ended length)

end Framer

/-- The read in which a fault comes to light, when the bytes `held` were held
    back before the first of the reads. -/
structure FailingRead (held : Bytes) (chunks : List Bytes) (fault : Fault) where
  /-- The reads before it. -/
  before : List Bytes
  chunk : Bytes
  /-- The reads that are left. -/
  after : List Bytes
  /-- The replies that the reads before it have completed. -/
  delivered : List Bytes
  /-- What has come of the bytes after these. -/
  pending : Bytes
  /-- The replies that are completed by the read itself. -/
  lost : List Bytes
  /-- What has then come of the bytes after these. -/
  shown : Bytes
  reads : chunks = before ++ chunk :: after
  framedBefore : Framed (held ++ before.flatten) delivered pending
  waiting : frameLength pending = .incomplete
  framedWithin : Framed (pending ++ chunk) lost shown
  faulty : frameLength shown = .invalid fault

namespace FailingRead

variable {held : Bytes} {chunks : List Bytes} {fault : Fault}

/-- The bytes of all reads are cut where the failing read found its fault. -/
theorem framed (failing : FailingRead held chunks fault) :
    Framed (held ++ chunks.flatten) (failing.delivered ++ failing.lost)
      (failing.shown ++ failing.after.flatten) := by
  have hread := failing.framedBefore.append failing.framedWithin
  have hall := hread.append_invalid failing.faulty failing.after.flatten
  have hreads : chunks.flatten =
      failing.before.flatten ++ (failing.chunk ++ failing.after.flatten) := by
    have := congrArg List.flatten failing.reads
    rw [List.flatten_append, List.flatten_cons] at this
    exact this
  rw [hreads]
  simpa only [List.append_assoc] using hall

/-- A read that goes well before the others. -/
def cons {chunk rest : Bytes} {replies : List Bytes}
    (hframed : Framed (held ++ chunk) replies rest) (failing : FailingRead rest chunks fault) :
    FailingRead held (chunk :: chunks) fault where
  before := chunk :: failing.before
  chunk := failing.chunk
  after := failing.after
  delivered := replies ++ failing.delivered
  pending := failing.pending
  lost := failing.lost
  shown := failing.shown
  reads := congrArg (List.cons chunk) failing.reads
  framedBefore := by
    rw [List.flatten_cons, ← List.append_assoc]
    exact hframed.append failing.framedBefore
  waiting := failing.waiting
  framedWithin := failing.framedWithin
  faulty := failing.faulty

-- Nothing is lost if and only if some read ends after the last reply and
-- before the fault can be seen.
theorem lost_eq_nil_iff (failing : FailingRead held chunks fault) :
    failing.lost = [] ↔
      ∃ before after rest, chunks = before ++ after ∧ frameLength rest = .incomplete ∧
        Framed (held ++ before.flatten) (failing.delivered ++ failing.lost) rest := by
  constructor
  · intro hlost
    refine ⟨failing.before, failing.chunk :: failing.after, failing.pending, failing.reads,
      failing.waiting, ?_⟩
    rw [hlost, List.append_nil]
    exact failing.framedBefore
  · rintro ⟨before, after, rest, hchunks, hwaiting, hframed⟩
    have hparts := hchunks.symm.trans failing.reads
    rcases List.append_eq_append_iff.1 hparts with ⟨others, hbefore, _⟩ | ⟨others, hbefore, hafter⟩
    · -- The replies are complete by the end of the reads that go well.
      have hdelivered := failing.framedBefore
      rcases exists_framed (rest ++ others.flatten) with ⟨more, left, hmore⟩
      rw [hbefore, List.flatten_append, ← List.append_assoc] at hdelivered
      have hsame := (hdelivered.unique (hframed.append hmore)).1
      have hlength := congrArg List.length hsame
      simp only [List.length_append] at hlength
      exact List.length_eq_zero_iff.1 (by omega)
    · cases others with
      | nil =>
          rw [hbefore, List.append_nil] at hframed
          have hsame := (failing.framedBefore.unique hframed).1
          exact List.append_right_eq_self.1 hsame.symm
      | cons chunk others =>
          -- The fault is seen already.
          rw [List.cons_append, List.cons.injEq] at hafter
          rw [← hafter.1] at hbefore
          have hseen := FailingRead.framed
            { failing with after := others, reads := hbefore }
          rw [(hframed.unique hseen).2, frameLength_append_invalid failing.faulty] at hwaiting
          exact absurd hwaiting (by simp only [reduceCtorEq, not_false_eq_true])

end FailingRead

namespace Framer

/-- Reads one after another frame the stream, or else there is one among them
    in which a fault comes to light. The induction is on the reads; between
    any two of them the bytes held back are tracked and incomplete. -/
theorem pushAll_resp {scanner : Scanner} {held : Bytes} (h : scanner.Tracks held)
    (hwaiting : frameLength held = .incomplete) (chunks : List Bytes) :
    (∃ replies rest next, Framed (held ++ chunks.flatten) replies rest ∧
        frameLength rest = .incomplete ∧
        (resp held scanner).pushAll chunks = (replies, .ok (resp rest next))) ∨
      ∃ fault, ∃ failing : FailingRead held chunks fault,
        (resp held scanner).pushAll chunks = (failing.delivered, .error fault) := by
  have hnone := framed_nil (not_complete_of_incomplete hwaiting)
  induction chunks generalizing scanner held with
  | nil =>
      refine Or.inl ⟨[], held, scanner, ?_, hwaiting, rfl⟩
      rw [List.flatten_nil, List.append_nil]
      exact hnone
  | cons chunk chunks ih =>
      rw [pushAll]
      -- The scanner tracks what is held, and a push hands this on to the next.
      rcases push_resp_cases h chunk with ⟨replies, rest, next, hframed, hnext, hpush⟩
      rcases hpush with ⟨hrest, hpush⟩ | ⟨fault, hrest, hpush⟩
      · rw [hpush]
        rcases ih hnext hrest (framed_nil (not_complete_of_incomplete hrest)) with
          ⟨others, left, last, hothers, hleft, hall⟩ | ⟨fault, failing, hall⟩
        · refine Or.inl ⟨replies ++ others, left, last, ?_, hleft, ?_⟩
          · rw [List.flatten_cons, ← List.append_assoc]
            exact hframed.append hothers
          · simp only [hall]
        · refine Or.inr ⟨fault, failing.cons hframed, ?_⟩
          simp only [hall]
          rfl
      · rw [hpush]
        refine Or.inr ⟨fault, ⟨[], chunk, chunks, [], held, replies, rest, rfl, ?_, hwaiting,
          hframed, hrest⟩, rfl⟩
        rw [List.flatten_nil, List.append_nil]
        exact hnone

/-- It makes no difference how a stream is cut into reads. They fail if one
    read of the whole stream fails, and with the same fault. If they do not,
    then they hand out the same messages and hold back the same bytes, and
    these are the stream, byte for byte. -/
theorem pushAll_resp_flatten (chunks : List Bytes) :
    (∀ fault, ((start .resp).pushAll chunks).2 = .error fault ↔
        ((start .resp).push chunks.flatten).1 = .error fault) ∧
      ∀ frames, ((start .resp).push chunks.flatten).1 = .ok frames →
        ∃ framer, (start .resp).pushAll chunks = (frames, .ok framer) ∧
          framer.held = ((start .resp).push chunks.flatten).2.held ∧
          frames.flatten ++ framer.held = chunks.flatten := by
  rw [start]
  rcases push_resp_cases (tracks_new []) chunks.flatten with
    ⟨replies, rest, next, hframed, _, hpush⟩
  rcases pushAll_resp (tracks_new []) frameLength_nil chunks with
    ⟨others, left, last, hothers, hleft, hall⟩ | ⟨fault, failing, hall⟩
  · -- No read fails, and the replies are those of the whole stream.
    rcases hframed.unique hothers with ⟨rfl, rfl⟩
    rcases hpush with ⟨_, hpush⟩ | ⟨fault, hfault, _⟩
    · rw [hpush, hall]
      refine ⟨fun fault => ?_, fun frames hframes => ?_⟩
      · simp only [reduceCtorEq]
      · simp only [Except.ok.injEq] at hframes
        rw [← hframes]
        exact ⟨_, rfl, rfl, hframed.parts.symm⟩
    · rw [hleft] at hfault
      exact absurd hfault (by simp only [reduceCtorEq, not_false_eq_true])
  · -- Some read fails, with the fault of what follows the replies.
    have hrest : frameLength rest = .invalid fault := by
      rw [(hframed.unique failing.framed).2]
      exact frameLength_append_invalid failing.faulty _
    rcases hpush with ⟨hwaiting, _⟩ | ⟨found, hfound, hpush⟩
    · rw [hrest] at hwaiting
      exact absurd hwaiting (by simp only [reduceCtorEq, not_false_eq_true])
    · rw [hrest, Progress.invalid.injEq] at hfound
      rw [hpush, hall, ← hfound]
      refine ⟨fun fault => by simp only [Except.error.injEq], fun frames hframes => ?_⟩
      exact absurd hframes (by simp only [reduceCtorEq, not_false_eq_true])

end Framer

end RespBus
