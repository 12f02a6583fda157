import Mathlib
import RespBus.Proofs.Reply.Locality

/-!
# Decoding in Parts

Whoever waits for bytes decodes what has come so far, and decodes it again
when there is more. That works because of what each of the three answers is
worth. A reply that was found is found again, however many bytes follow it,
and so is a fault. To want more bytes is the only answer that more bytes can
change, and it is the answer to every part of a reply that is not yet all of
it: a reply cut short is never taken for a malformed one.

Decoding is the reading of one reply with the bytes counted, and reading is
local. `decode_eq_complete_iff` puts the two together: a reply is decoded from
a buffer if and only if the buffer starts with bytes that are read alone, to
their end. A part of a reply then cannot be decoded, or its bytes would be
read alone as well and the whole reply would be no longer than the part; and
it cannot be at fault, or the whole reply would be.

## Theorems

* `Reply.decode_eq_complete_iff`: What is decoded is read alone to its end.
* `Reply.decode_eq_invalid_iff`: Decoding finds the faults of reading.
* `Reply.decode_nil`: An empty buffer holds no reply.
* `Reply.decode_append`, `Reply.decode_append_invalid`: More bytes change
  neither a reply that was found nor a fault.
* `Reply.decode_length`: A reply takes some of the bytes that are there.
* `Reply.decode_take`: A reply is decoded from its own bytes.
* `Reply.decode_take_of_lt`: A part of a reply wants more bytes.
* `Reply.decode_settled`: What each answer is worth.
-/

namespace RespBus

namespace Reply

theorem read_nil (levels : Nat) : read levels [] = .incomplete := by
  cases levels with
  | zero => rfl
  | succ levels => rfl

/-- A value is decoded just if the front of the buffer, alone, is all of it. -/
theorem decode_eq_complete_iff {buffer : Bytes} {value : Reply} {length : Nat} :
    decode buffer = .complete (value, length) ↔
      ∃ used rest, buffer = used ++ rest ∧ used.length = length ∧
        read maxNesting used = .complete (value, []) := by
  constructor
  · intro h
    rw [decode, Progress.map_eq_complete_iff] at h
    rcases h with ⟨⟨found, rest⟩, hread, hfound⟩
    simp only [Prod.mk.injEq] at hfound
    rcases (local_read maxNesting).complete hread with ⟨used, rfl, hused⟩
    -- The bytes used are read alone as well, with nothing after them.
    have halone := hused []
    rw [List.append_nil, hfound.1] at halone
    refine ⟨used, rest, rfl, ?_, halone⟩
    rw [← hfound.2, List.length_append]
    omega
  · rintro ⟨used, rest, rfl, rfl, hread⟩
    rw [decode, (local_read maxNesting).append hread rest]
    simp only [Progress.map, List.nil_append, List.length_append, Nat.add_sub_cancel]

/-- A buffer is at fault just if reading it is. -/
theorem decode_eq_invalid_iff {buffer : Bytes} {fault : Fault} :
    decode buffer = .invalid fault ↔ read maxNesting buffer = .invalid fault := by
  rw [decode, Progress.map_eq_invalid_iff]

theorem decode_nil : decode [] = .incomplete := by
  rw [decode, read_nil]
  rfl

/-- More bytes make no difference to a value that is there. -/
theorem decode_append {buffer : Bytes} {value : Reply} {length : Nat}
    (h : decode buffer = .complete (value, length)) (more : Bytes) :
    decode (buffer ++ more) = .complete (value, length) := by
  rcases decode_eq_complete_iff.1 h with ⟨used, rest, rfl, hlength, hread⟩
  exact decode_eq_complete_iff.2
    ⟨used, rest ++ more, List.append_assoc used rest more, hlength, hread⟩

/-- More bytes make no difference to a fault. -/
theorem decode_append_invalid {buffer : Bytes} {fault : Fault}
    (h : decode buffer = .invalid fault) (more : Bytes) :
    decode (buffer ++ more) = .invalid fault := by
  rw [decode_eq_invalid_iff] at h ⊢
  exact (local_read maxNesting).invalid h more

/-- A value takes some bytes, and no more than there are. -/
theorem decode_length {buffer : Bytes} {value : Reply} {length : Nat}
    (h : decode buffer = .complete (value, length)) : 0 < length ∧ length ≤ buffer.length := by
  rcases decode_eq_complete_iff.1 h with ⟨used, rest, rfl, rfl, hread⟩
  refine ⟨List.length_pos_iff.2 ?_, ?_⟩
  · rintro rfl
    rw [read_nil] at hread
    exact absurd hread (by simp only [reduceCtorEq, not_false_eq_true])
  · rw [List.length_append]
    omega

/-- A value is decoded from its own bytes alone. -/
theorem decode_take {buffer : Bytes} {value : Reply} {length : Nat}
    (h : decode buffer = .complete (value, length)) :
    decode (buffer.take length) = .complete (value, length) := by
  rcases decode_eq_complete_iff.1 h with ⟨used, rest, rfl, rfl, hread⟩
  rw [List.take_left]
  exact decode_eq_complete_iff.2 ⟨used, [], (List.append_nil used).symm, rfl, hread⟩

/-- Any fewer of its bytes are waited on. -/
theorem decode_take_of_lt {buffer : Bytes} {value : Reply} {length shorter : Nat}
    (h : decode buffer = .complete (value, length)) (hshorter : shorter < length) :
    decode (buffer.take shorter) = .incomplete := by
  have hwhole := List.take_append_drop shorter buffer
  rcases hpart : decode (buffer.take shorter) with _ | fault | ⟨found, size⟩
  · rfl
  · -- The whole buffer would have the same fault.
    have hfault := decode_append_invalid hpart (buffer.drop shorter)
    rw [hwhole, h] at hfault
    exact absurd hfault (by simp only [reduceCtorEq, not_false_eq_true])
  · -- The whole buffer would start with the same reply, and that is too short.
    have hsize := (decode_length hpart).2
    have hfound := decode_append hpart (buffer.drop shorter)
    rw [hwhole, h, Progress.complete.injEq, Prod.mk.injEq] at hfound
    rw [List.length_take] at hsize
    omega

/-- What each answer is worth. A reply that was found takes some of the bytes
    that are there; it is found again when more bytes follow, and in its own
    bytes alone, while any part of these wants more bytes. A fault that was
    found is found again when more bytes follow. -/
theorem decode_settled (buffer : Bytes) :
    (∀ value length, decode buffer = .complete (value, length) →
        0 < length ∧ length ≤ buffer.length ∧
          (∀ more, decode (buffer ++ more) = .complete (value, length)) ∧
          decode (buffer.take length) = .complete (value, length) ∧
          ∀ shorter, shorter < length → decode (buffer.take shorter) = .incomplete) ∧
      ∀ fault, decode buffer = .invalid fault →
        ∀ more, decode (buffer ++ more) = .invalid fault := by
  refine ⟨fun value length h => ?_, fun fault h more => decode_append_invalid h more⟩
  exact ⟨(decode_length h).1, (decode_length h).2, decode_append h, decode_take h,
    fun shorter hshorter => decode_take_of_lt h hshorter⟩

/-- An array whose second element is cut short inside its data. -/
theorem decode_settled_truncated :
    decode (Bytes.ofText "*2\r\n:1\r\n$5\r\nhel") = .incomplete ∧
      ∀ more, decode (Bytes.ofText "*2\r\n:1\r\n$5\r\nhello\r\n" ++ more) =
        .complete (.array [.integer 1, .bulk (Bytes.ofText "hello")], 19) := by
  have hwhole : decode (Bytes.ofText "*2\r\n:1\r\n$5\r\nhello\r\n") =
      .complete (.array [.integer 1, .bulk (Bytes.ofText "hello")], 19) := by cbv
  rcases (decode_settled (Bytes.ofText "*2\r\n:1\r\n$5\r\nhello\r\n")).1 _ _ hwhole with
    ⟨_, _, hmore, _, hpart⟩
  exact ⟨hpart 15 (by decide), hmore⟩

end Reply

end RespBus
