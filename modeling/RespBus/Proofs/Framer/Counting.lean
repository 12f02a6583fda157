import RespBus.Proofs.Framer.Replies

/-!
# Counting Replies

A message cut by short reads is counted after it was cut, and the session
takes as many requests off its list as the count says. The count is a loop
without a bound of its own. It measures what is at the front, takes those
bytes off, and begins again, until it finds no complete reply there.

`CountsOff` is that loop by its rounds, said without the function: a round
needs a complete reply at the front, and leaves what follows it. No reply is
shorter than three bytes, so every round brings the end nearer by as many;
rounds that lead to each other are bounded by the length of the buffer, and
the loop ends on every input. Replies in front of a buffer are counted one for
one, since bytes that follow a reply do not change its length.

## Main definitions

* `CountsOff`: So many rounds of counting lead from a buffer to another.

## Theorems

* `CountsOff.length_le`: A round takes off three bytes at least.
* `Framed.countsOff`: The replies a buffer starts with are so many rounds.
* `countReplies_append`: Replies in front of a buffer are counted one for one.
* `countReplies_eq_zero_iff`: Nothing is counted where no reply begins.
* `countReplies_merged`: What counting comes to, and why it ends.
-/

namespace RespBus

/-- So many rounds of counting lead from a buffer to what is left of it. Every
    round takes the complete reply at the front off. -/
inductive CountsOff : Nat → Bytes → Bytes → Prop where
  | done (buffer : Bytes) : CountsOff 0 buffer buffer
  | round {rounds length : Nat} {buffer rest : Bytes}
      (hlength : frameLength buffer = .complete length)
      (hrest : CountsOff rounds (buffer.drop length) rest) : CountsOff (rounds + 1) buffer rest

/-- A round takes off three bytes at least, so there is an end to the rounds. -/
theorem CountsOff.length_le {rounds : Nat} {buffer rest : Bytes}
    (h : CountsOff rounds buffer rest) : 3 * rounds + rest.length ≤ buffer.length := by
  induction h with
  | done buffer => omega
  | round hlength _ ih =>
      have hbounds := frameLength_complete hlength
      rw [List.length_drop] at ih
      omega

/-- The replies that a buffer starts with are as many rounds, and no further
    round is possible after them. -/
theorem Framed.countsOff {bytes rest : Bytes} {replies : List Bytes}
    (h : Framed bytes replies rest) : CountsOff replies.length bytes rest := by
  induction replies generalizing bytes with
  | nil =>
      have hbytes : bytes = rest := h.parts
      rw [hbytes]
      exact .done rest
  | cons reply replies ih =>
      have hbytes : bytes = reply ++ (replies.flatten ++ rest) := by
        rw [h.parts, List.flatten_cons, List.append_assoc]
      have htail : Framed (replies.flatten ++ rest) replies rest :=
        ⟨rfl, fun r hr => h.whole r (List.mem_cons_of_mem _ hr), h.ended⟩
      rw [hbytes]
      refine .round ((h.whole reply List.mem_cons_self).append _) ?_
      -- A round takes the reply off the front, and leaves the others.
      rw [List.drop_left]
      exact ih htail

theorem countReplies_append {replies : List Bytes} (h : ∀ reply ∈ replies, IsReply reply)
    (rest : Bytes) :
    countReplies (replies.flatten ++ rest) = replies.length + countReplies rest := by
  rcases exists_framed rest with ⟨others, left, hothers⟩
  have hall := (framed_of_whole h).append hothers
  rw [hall.countReplies_eq, hothers.countReplies_eq, List.length_append]

/-- Nothing is counted if and only if the buffer does not start with a reply. -/
theorem countReplies_eq_zero_iff (buffer : Bytes) :
    countReplies buffer = 0 ↔ ¬ ∃ reply, reply <+: buffer ∧ IsReply reply := by
  rcases exists_framed buffer with ⟨replies, rest, hframed⟩
  rw [hframed.countReplies_eq, List.length_eq_zero_iff]
  constructor
  · rintro rfl ⟨reply, ⟨more, hmore⟩, hreply⟩
    -- The rest, which is all of the buffer, would start with that reply.
    have hrest : buffer = rest := hframed.parts
    refine hframed.ended reply.length ?_
    rw [← hrest, ← hmore]
    exact hreply.append more
  · intro hnone
    rcases replies with _ | ⟨reply, replies⟩
    · rfl
    · refine absurd ⟨reply, ⟨replies.flatten ++ rest, ?_⟩, ?_⟩ hnone
      · rw [hframed.parts, List.flatten_cons, List.append_assoc]
      · exact hframed.whole reply List.mem_cons_self

/-- What counting comes to. Complete replies in front of a buffer add as many
    to its count; the count is zero just if no complete reply is at the front;
    and counting ends, whatever is in the buffer. A reply at the front has
    three bytes or more and is not longer than the buffer, so that the bytes
    after it can be cut off. However many rounds there were, they took three
    bytes each; after as many as the count says there is no reply at the front
    any more. The count is therefore at most a third of the length. -/
theorem countReplies_merged (buffer : Bytes) :
    (∀ replies : List Bytes, (∀ reply ∈ replies, IsReply reply) →
        countReplies (replies.flatten ++ buffer) = replies.length + countReplies buffer) ∧
      (countReplies buffer = 0 ↔ ¬ ∃ reply, reply <+: buffer ∧ IsReply reply) ∧
      (∀ length, frameLength buffer = .complete length → 3 ≤ length ∧ length ≤ buffer.length) ∧
      (∀ rounds rest, CountsOff rounds buffer rest →
        3 * rounds + rest.length ≤ buffer.length) ∧
      (∃ rest, CountsOff (countReplies buffer) buffer rest ∧
        ∀ length, frameLength rest ≠ .complete length) ∧
      countReplies buffer ≤ buffer.length / 3 := by
  rcases exists_framed buffer with ⟨replies, rest, hframed⟩
  have hrounds : CountsOff (countReplies buffer) buffer rest := by
    rw [hframed.countReplies_eq]
    exact hframed.countsOff
  have hbound := hrounds.length_le
  -- The rounds that the bound counts are the ones that were counted.
  exact ⟨fun replies h => countReplies_append h buffer, countReplies_eq_zero_iff buffer,
    fun length h => frameLength_complete h, fun rounds rest h => h.length_le,
    ⟨rest, hrounds, hframed.ended⟩, by omega⟩

/-- A nested reply and the shortest one there is, before a reply that is not
    complete. -/
theorem countReplies_merged_shortest :
    countReplies (Bytes.ofText "*1\r\n:5\r\n+\r\n$3\r\nab") = 2 ∧
      countReplies (Bytes.ofText "$3\r\nab") = 0 ∧ 3 ≤ (Bytes.ofText "+\r\n").length := by
  have hshortest : frameLength (Bytes.ofText "+\r\n") = .complete 3 := by cbv
  have hwhole : ∀ reply ∈ [Bytes.ofText "*1\r\n:5\r\n", Bytes.ofText "+\r\n"], IsReply reply := by
    simp only [List.forall_mem_cons, List.not_mem_nil, false_implies, implies_true, and_true,
      IsReply]
    refine ⟨?_, ?_⟩ <;> cbv
  have hwaiting : frameLength (Bytes.ofText "$3\r\nab") = .incomplete := by cbv
  rcases countReplies_merged (Bytes.ofText "$3\r\nab") with ⟨hcount, hzero, _⟩
  -- Whoever found a reply in front would have found it here as well.
  have hnone : countReplies (Bytes.ofText "$3\r\nab") = 0 := by
    refine hzero.2 ?_
    rintro ⟨reply, ⟨more, hmore⟩, hreply⟩
    have hlength := hreply.append more
    rw [hmore] at hlength
    exact not_complete_of_incomplete hwaiting reply.length hlength
  have htwo := hcount _ hwhole
  rw [hnone] at htwo
  exact ⟨htwo, hnone, ((countReplies_merged (Bytes.ofText "+\r\n")).2.2.1 3 hshortest).2⟩

end RespBus
