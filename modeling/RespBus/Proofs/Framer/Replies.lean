import RespBus.Proofs.Reply.Stability
import RespBus.Proofs.Scanner.Decoder

/-!
# Replies in a Stream

A stream is replies one after another and then something that is no reply
yet, or never will be. `Framed` states that of a run of bytes. There is
exactly one way to see a run of bytes like that, since the length of a reply
depends on the reply alone: bytes that follow it change nothing, and it can
be cut out of the bytes it stands in.

Everything about the cutting of streams rests on `exists_framed` and
`Framed.unique`. To show that two ways of cutting agree, it is enough that
both leave replies and a rest that starts with none.

## Main definitions

* `IsReply`: Exactly one reply.
* `Framed`: Replies one after another and a rest that starts with none.

## Theorems

* `isReply_iff_decode`: One reply is what the decoder takes to its end.
* `frameLength_eq_complete_iff`: A length is that of a reply at the front.
* `frameLength_append_invalid`: No bytes make good what is at fault.
* `framed_of_whole`, `IsReply.framed`: Replies alone leave no rest.
* `exists_framed`: Every run of bytes can be seen as replies and a rest.
* `Framed.unique`: And only in one way.
* `Framed.append`: What follows is framed from where the replies ended.
* `Framed.append_invalid`: What follows a fault is never looked at.
* `Framed.countReplies_eq`: The replies are those that are counted.
-/

namespace RespBus

/-- Exactly one reply, with nothing before and nothing after it. -/
def IsReply (bytes : Bytes) : Prop :=
  frameLength bytes = .complete bytes.length

/-- Bytes are one reply just if they are decoded as a whole. -/
theorem isReply_iff_decode {bytes : Bytes} :
    IsReply bytes ↔ ∃ value, Reply.decode bytes = .complete (value, bytes.length) :=
  frameLength_eq_complete_iff_decode

/-- A reply is found whatever follows it. -/
theorem IsReply.append {reply : Bytes} (h : IsReply reply) (more : Bytes) :
    frameLength (reply ++ more) = .complete reply.length := by
  rcases isReply_iff_decode.1 h with ⟨value, hdecode⟩
  exact frameLength_eq_complete_iff_decode.2 ⟨value, Reply.decode_append hdecode more⟩

/-- A length is that of a reply at the front. -/
theorem frameLength_eq_complete_iff {buffer : Bytes} {length : Nat} :
    frameLength buffer = .complete length ↔
      ∃ reply rest, buffer = reply ++ rest ∧ IsReply reply ∧ reply.length = length := by
  constructor
  · intro h
    rcases frameLength_eq_complete_iff_decode.1 h with ⟨value, hdecode⟩
    have hlength := List.length_take_of_le (Reply.decode_length hdecode).2
    -- The bytes the reply takes are decoded alone as well.
    refine ⟨buffer.take length, buffer.drop length, (List.take_append_drop length buffer).symm,
      isReply_iff_decode.2 ⟨value, ?_⟩, hlength⟩
    rw [hlength]
    exact Reply.decode_take hdecode
  · rintro ⟨reply, rest, rfl, hreply, rfl⟩
    exact hreply.append rest

/-- More bytes make no difference to a fault. -/
theorem frameLength_append_invalid {buffer : Bytes} {fault : Fault}
    (h : frameLength buffer = .invalid fault) (more : Bytes) :
    frameLength (buffer ++ more) = .invalid fault := by
  rw [frameLength_eq_invalid_iff_decode] at h ⊢
  exact Reply.decode_append_invalid h more

theorem not_complete_of_incomplete {bytes : Bytes} (h : frameLength bytes = .incomplete)
    (length : Nat) : frameLength bytes ≠ .complete length := by
  rw [h]
  simp only [ne_eq, reduceCtorEq, not_false_eq_true]

theorem not_complete_of_invalid {bytes : Bytes} {fault : Fault}
    (h : frameLength bytes = .invalid fault) (length : Nat) :
    frameLength bytes ≠ .complete length := by
  rw [h]
  simp only [ne_eq, reduceCtorEq, not_false_eq_true]

theorem frameLength_nil : frameLength [] = .incomplete :=
  frameLength_eq_incomplete_iff_decode.2 Reply.decode_nil

/-- The bytes are these replies and a rest that does not start with another. -/
structure Framed (bytes : Bytes) (replies : List Bytes) (rest : Bytes) : Prop where
  parts : bytes = replies.flatten ++ rest
  whole : ∀ reply ∈ replies, IsReply reply
  ended : ∀ length, frameLength rest ≠ .complete length

/-- Bytes that start with no reply are all rest. -/
theorem framed_nil {rest : Bytes} (h : ∀ length, frameLength rest ≠ .complete length) :
    Framed rest [] rest where
  parts := rfl
  whole := by
    intro reply hreply
    exact absurd hreply (List.not_mem_nil)
  ended := h

/-- A reply in front is one reply more. -/
theorem Framed.cons {reply bytes rest : Bytes} {replies : List Bytes} (hreply : IsReply reply)
    (h : Framed bytes replies rest) : Framed (reply ++ bytes) (reply :: replies) rest where
  parts := by rw [h.parts, List.flatten_cons, List.append_assoc]
  whole := List.forall_mem_cons.2 ⟨hreply, h.whole⟩
  ended := h.ended

/-- Whole replies in a row leave no rest. -/
theorem framed_of_whole {replies : List Bytes} (h : ∀ reply ∈ replies, IsReply reply) :
    Framed replies.flatten replies [] where
  parts := (List.append_nil _).symm
  whole := h
  ended := not_complete_of_incomplete frameLength_nil

/-- One reply alone is framed as itself. -/
theorem IsReply.framed {reply : Bytes} (h : IsReply reply) : Framed reply [reply] [] := by
  have hsingle := framed_of_whole (List.forall_mem_singleton.2 h)
  rwa [List.flatten_singleton] at hsingle

/-- Any bytes are replies and a rest. -/
theorem exists_framed (bytes : Bytes) : ∃ replies rest, Framed bytes replies rest := by
  induction hn : bytes.length using Nat.strongRecOn generalizing bytes with
  | ind n ih =>
      -- The induction is on the length: a reply takes some bytes off the front.
      rcases hlength : frameLength bytes with _ | fault | length
      · exact ⟨[], bytes, framed_nil (not_complete_of_incomplete hlength)⟩
      · exact ⟨[], bytes, framed_nil (not_complete_of_invalid hlength)⟩
      · rcases frameLength_eq_complete_iff.1 hlength with ⟨reply, after, rfl, hreply, rfl⟩
        have hpos := (frameLength_complete hlength).1
        rcases ih after.length (by rw [← hn, List.length_append]; omega) after rfl with
          ⟨replies, rest, hframed⟩
        exact ⟨reply :: replies, rest, hframed.cons hreply⟩

namespace Framed

variable {bytes rest : Bytes} {replies : List Bytes}

/-- There is only one way to cut bytes into replies and a rest. -/
theorem unique {others : List Bytes} {left : Bytes} (h : Framed bytes replies rest)
    (hother : Framed bytes others left) : replies = others ∧ rest = left := by
  induction replies generalizing bytes others with
  | nil =>
      cases others with
      | nil =>
          have hparts := h.parts
          rw [hother.parts] at hparts
          exact ⟨rfl, hparts.symm⟩
      | cons reply others =>
          -- The rest would start with a reply.
          have hlength := (hother.whole reply List.mem_cons_self).append (others.flatten ++ left)
          rw [← List.append_assoc, ← List.flatten_cons, ← hother.parts, h.parts] at hlength
          exact absurd hlength (h.ended _)
  | cons reply replies ih =>
      cases others with
      | nil =>
          -- Here it is the other rest that would start with a reply.
          have hlength := (h.whole reply List.mem_cons_self).append (replies.flatten ++ rest)
          rw [← List.append_assoc, ← List.flatten_cons, ← h.parts, hother.parts] at hlength
          exact absurd hlength (hother.ended _)
      | cons other others =>
          have hfirst := (h.whole reply List.mem_cons_self).append (replies.flatten ++ rest)
          have hsecond := (hother.whole other List.mem_cons_self).append (others.flatten ++ left)
          have hboth : reply ++ (replies.flatten ++ rest) = other ++ (others.flatten ++ left) := by
            have hparts := h.parts
            rw [hother.parts, List.flatten_cons, List.flatten_cons, List.append_assoc,
              List.append_assoc] at hparts
            exact hparts.symm
          -- Both replies have the length that is found at the front.
          have hlength : reply.length = other.length := by
            rw [hboth, hsecond, Progress.complete.injEq] at hfirst
            exact hfirst.symm
          rcases List.append_inj hboth hlength with ⟨hreply, htail⟩
          have hleft : Framed (replies.flatten ++ rest) replies rest :=
            ⟨rfl, fun r hr => h.whole r (List.mem_cons_of_mem _ hr), h.ended⟩
          have hright : Framed (replies.flatten ++ rest) others left :=
            ⟨htail, fun r hr => hother.whole r (List.mem_cons_of_mem _ hr), hother.ended⟩
          rcases ih hleft hright with ⟨hreplies, hrest⟩
          exact ⟨by rw [hreply, hreplies], hrest⟩

/-- What follows is cut together with the rest. -/
theorem append {more left : Bytes} {others : List Bytes} (h : Framed bytes replies rest)
    (hmore : Framed (rest ++ more) others left) :
    Framed (bytes ++ more) (replies ++ others) left where
  parts := by
    rw [h.parts, List.append_assoc, hmore.parts, List.flatten_append, List.append_assoc]
  whole := List.forall_mem_append.2 ⟨h.whole, hmore.whole⟩
  ended := hmore.ended

/-- A rest that is at fault stays the rest. -/
theorem append_invalid {fault : Fault} (h : Framed bytes replies rest)
    (hfault : frameLength rest = .invalid fault) (more : Bytes) :
    Framed (bytes ++ more) replies (rest ++ more) where
  parts := by rw [h.parts, List.append_assoc]
  whole := h.whole
  ended := not_complete_of_invalid (frameLength_append_invalid hfault more)

/-- The count is the number of replies in front of the rest. -/
theorem countFrom_eq (h : Framed bytes replies rest) (counted : Nat) :
    countFrom counted bytes = counted + replies.length := by
  induction replies generalizing bytes counted with
  | nil =>
      rw [countFrom]
      split
      · rename_i length hlength
        rw [h.parts] at hlength
        exact absurd hlength (h.ended length)
      · rfl
  | cons reply replies ih =>
      -- Each round finds the reply in front and goes on with the bytes behind
      -- it.
      have hbytes : bytes = reply ++ (replies.flatten ++ rest) := by
        rw [h.parts, List.flatten_cons, List.append_assoc]
      have hfirst := (h.whole reply List.mem_cons_self).append (replies.flatten ++ rest)
      have htail : Framed (replies.flatten ++ rest) replies rest :=
        ⟨rfl, fun r hr => h.whole r (List.mem_cons_of_mem _ hr), h.ended⟩
      rw [hbytes, countFrom]
      split
      · rename_i length hlength
        rw [hfirst, Progress.complete.injEq] at hlength
        have hdrop : (reply ++ (replies.flatten ++ rest)).drop length =
            replies.flatten ++ rest := by
          rw [← hlength, List.drop_left]
        simp only [hdrop, ih htail, List.length_cons]
        omega
      · rename_i hother
        exact absurd hfirst (hother reply.length)

/-- Counting stops where the replies end. -/
theorem countReplies_eq (h : Framed bytes replies rest) :
    countReplies bytes = replies.length := by
  rw [countReplies, h.countFrom_eq, Nat.zero_add]

end Framed

end RespBus
