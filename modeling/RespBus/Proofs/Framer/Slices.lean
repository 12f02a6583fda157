import RespBus.Proofs.Framer.Streams

/-!
# Frames are Decoded Slices

Three things walk over the replies of a stream, and each of them decides
where one ends: the framer, which scans what a read brought and goes on where
it stopped; the counter, which starts a new scan for every reply; and the
decoder, which looks at the values. A session relies on all of them cutting
at the same places. It takes a message cut by the framer for one reply, and
whoever receives the message decodes it.

`Reply.slices` is the decoder's way to cut: it decodes what is at the front,
takes those bytes off, and begins again. That frames the bytes like any other
way of cutting them, and there is only one way to frame them.

## Main definitions

* `Reply.slices`: The bytes of each reply that a buffer starts with.

## Theorems

* `Reply.framed_slices`: Decoding again and again frames a buffer.
* `IsReply.countReplies_eq`: One reply counts as one.
* `Framer.pushAll_resp_slices`: The messages are the slices of the decoder.
-/

namespace RespBus

/-- One reply counts as one, with whatever framing it was cut. -/
theorem IsReply.countReplies_eq {reply : Bytes} (h : IsReply reply) : countReplies reply = 1 :=
  h.framed.countReplies_eq

namespace Reply

/-- The bytes of each reply that a buffer starts with, found by decoding what
    is at the front and taking it off, and what is left when no further reply
    is found. -/
def slices (buffer : Bytes) : List Bytes × Bytes :=
  match h : decode buffer with
  | .complete (_, length) =>
    -- A reply is never empty, so what follows it is shorter.
    have := decode_length h
    let later := slices (buffer.drop length)
    (buffer.take length :: later.1, later.2)
  | _ => ([], buffer)
termination_by buffer.length

/-- The slices are the replies, and what is left of the buffer is the rest. -/
theorem framed_slices (buffer : Bytes) : Framed buffer (slices buffer).1 (slices buffer).2 := by
  fun_induction slices buffer with
  | case1 buffer value length hdecode hlength later ih =>
      have hreply : IsReply (buffer.take length) := by
        refine isReply_iff_decode.2 ⟨value, ?_⟩
        rw [List.length_take_of_le hlength.2]
        exact decode_take hdecode
      have hframed := ih.cons hreply
      rw [List.take_append_drop] at hframed
      exact hframed
  | case2 buffer hnone =>
      refine framed_nil fun length hlength => ?_
      rcases frameLength_eq_complete_iff_decode.1 hlength with ⟨value, hdecode⟩
      exact hnone value length hdecode

end Reply

namespace Framer

-- What follows the replies of a stream decides whether the reads of it fail.
theorem pushAll_resp_of_framed {chunks replies : List Bytes} {rest : Bytes}
    (hframed : Framed chunks.flatten replies rest) (hrest : frameLength rest = .incomplete) :
    ∃ scanner, (start .resp).pushAll chunks = (replies, .ok (resp rest scanner)) := by
  rcases pushAll_resp (Scanner.tracks_new []) frameLength_nil chunks with
    ⟨others, left, scanner, hothers, _, hall⟩ | ⟨fault, failing, _⟩
  · rcases hframed.unique hothers with ⟨rfl, rfl⟩
    exact ⟨scanner, hall⟩
  · -- The fault would be in what follows the replies.
    rw [(hframed.unique failing.framed).2, frameLength_append_invalid failing.faulty] at hrest
    exact absurd hrest (by simp only [reduceCtorEq, not_false_eq_true])

/-- With reply framing, reads that do not fail hand out what the decoder cuts
    off their stream, reply by reply, and hold back what it leaves. A message
    is decoded to its last byte and counts as the one reply it is taken for;
    there are as many messages as the stream has complete replies; and the
    bytes held back are a reply of which some bytes are still to come. -/
theorem pushAll_resp_slices {chunks frames : List Bytes} {framer : Framer}
    (h : (start .resp).pushAll chunks = (frames, .ok framer)) :
    Reply.slices chunks.flatten = (frames, framer.held) ∧
      (∀ frame ∈ frames, (∃ value, Reply.decode frame = .complete (value, frame.length)) ∧
        countReplies frame = 1 ∧ framer.repliesIn frame = countReplies frame) ∧
      frames.length = countReplies chunks.flatten ∧
      Reply.decode framer.held = .incomplete ∧ frameLength framer.held = .incomplete := by
  rcases pushAll_resp (Scanner.tracks_new []) frameLength_nil chunks with
    ⟨replies, rest, next, hframed, hrest, hall⟩ | ⟨fault, failing, hall⟩
  · rw [start, hall, Prod.mk.injEq, Except.ok.injEq] at h
    rcases h with ⟨rfl, rfl⟩
    rw [List.nil_append] at hframed
    refine ⟨?_, fun frame hframe => ?_, hframed.countReplies_eq.symm,
      frameLength_eq_incomplete_iff_decode.1 hrest, hrest⟩
    · -- Slicing and pushing both cut the stream, and there is only one way to
      -- do it.
      rcases (Reply.framed_slices chunks.flatten).unique hframed with ⟨hreplies, hheld⟩
      exact Prod.ext hreplies hheld
    · have hreply := hframed.whole frame hframe
      refine ⟨isReply_iff_decode.1 hreply, hreply.countReplies_eq, ?_⟩
      rw [hreply.countReplies_eq]
      rfl
  · rw [start, hall] at h
    exact absurd h (by simp only [Prod.mk.injEq, reduceCtorEq, and_false, not_false_eq_true])

/-- Two replies and the beginning of a third. -/
theorem framed_unfinished :
    Framed (Bytes.ofText "+OK\r\n*1\r\n:5\r\n$3\r\nab")
      [Bytes.ofText "+OK\r\n", Bytes.ofText "*1\r\n:5\r\n"] (Bytes.ofText "$3\r\nab") where
  parts := by decide
  whole reply hreply := by
    simp only [List.mem_cons, List.not_mem_nil, or_false] at hreply
    rw [IsReply]
    rcases hreply with rfl | rfl <;> cbv
  ended := not_complete_of_incomplete (by cbv)

/-- The first read ends inside an array and the second inside a bulk string. -/
theorem pushAll_resp_slices_unfinished :
    Reply.slices (Bytes.ofText "+OK\r\n*1\r\n:5\r\n$3\r\nab") =
        ([Bytes.ofText "+OK\r\n", Bytes.ofText "*1\r\n:5\r\n"], Bytes.ofText "$3\r\nab") ∧
      Reply.decode (Bytes.ofText "$3\r\nab") = .incomplete := by
  have hchunks : [Bytes.ofText "+OK\r\n*1\r\n:", Bytes.ofText "5\r\n$3\r\nab"].flatten =
      Bytes.ofText "+OK\r\n*1\r\n:5\r\n$3\r\nab" := by decide
  have hframed := framed_unfinished
  rw [← hchunks] at hframed ⊢
  rcases pushAll_resp_of_framed hframed (by cbv) with ⟨scanner, hreads⟩
  rcases pushAll_resp_slices hreads with ⟨hslices, _, _, hheld, _⟩
  exact ⟨hslices, hheld⟩

end Framer

end RespBus
