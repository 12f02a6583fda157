import RespBus.Proofs.Framer.Streams

/-!
# Short Reads

Short-read framing decides read by read. A read that fills its chunk is held
back, and one that comes short ends a message. What the peer sends in one go
is read chunk by chunk, so the last of these reads alone can be short, and it
is unless the length is a multiple of the chunk size. A rule about reads is
therefore a rule about deliveries: a message ends with each delivery whose
length is no such multiple, and nowhere else.

`Batched` says which deliveries come out together. A batch is a run of
deliveries that fill their chunks and one more that does not; the deliveries
after the last batch all fill theirs, and they are held back. There is no
choice in it. `pushAll_pieces` is what one delivery does to the bytes held
back, and the induction over deliveries goes from the last one.

## Main definitions

* `Batched`: The deliveries that come out together, and those held back.

## Theorems

* `Bytes.pieces_eq_concat`: All pieces are full but the last, which is short
  unless the length is a multiple.
* `Framer.pushAll_append`: Reads go on from where earlier ones ended.
* `Framer.pushAll_full`: Full chunks are held back.
* `Framer.exists_last_piece`: A delivery hands out nothing before its last
  piece.
* `Framer.pushAll_pieces`: A delivery ends a message or is held back.
* `Batched.ne_nil`, `Batched.flatten_append`: No batch is empty, and no byte
  is lost or moved.
* `Framer.pushAll_deliveries`: Messages are batches of deliveries.
-/

namespace RespBus

/-- All pieces of a delivery are full but the last, and that one is short if
    and only if the length is no multiple of the size. -/
theorem Bytes.pieces_eq_concat {size : Nat} (hsize : 0 < size) {delivery : Bytes}
    (hne : delivery ≠ []) :
    ∃ full last, pieces size delivery = full ++ [last] ∧
      (∀ piece ∈ full, piece.length = size) ∧ (last.length < size ↔ ¬ size ∣ delivery.length) := by
  induction hlength : delivery.length using Nat.strongRecOn generalizing delivery with
  | ind length ih =>
      have hpos := List.length_pos_of_ne_nil hne
      rw [pieces_cons hsize hne]
      by_cases hone : delivery.length ≤ size
      · -- One piece takes all of it.
        rw [List.take_of_length_le hone, List.drop_eq_nil_of_le hone]
        refine ⟨[], delivery, rfl, fun piece hpiece => absurd hpiece List.not_mem_nil, ?_⟩
        rw [← hlength]
        constructor
        · exact fun hshort hdvd => Nat.not_le_of_lt hshort (Nat.le_of_dvd hpos hdvd)
        · intro hndvd
          refine Nat.lt_of_le_of_ne hone fun heq => hndvd ?_
          rw [heq]
      · have hdrop : (delivery.drop size).length = length - size := by
          rw [List.length_drop, hlength]
        have hrest : delivery.drop size ≠ [] := by
          rw [← List.length_pos_iff, hdrop]
          omega
        rcases ih (length - size) (by omega) hrest hdrop with ⟨full, last, hpieces, hfull, hlast⟩
        refine ⟨delivery.take size :: full, last, by rw [hpieces]; rfl, ?_, ?_⟩
        · refine List.forall_mem_cons.2 ⟨?_, hfull⟩
          rw [List.length_take]
          omega
        · rw [hlast, Nat.dvd_sub_iff_left (by omega) (Nat.dvd_refl size)]

/-- The deliveries that come out together, one batch after another, and those
    that are held back. Only the last delivery of a batch leaves a chunk
    unfilled. -/
structure Batched (size : Nat) (deliveries : List Bytes) (batches : List (List Bytes))
    (left : List Bytes) : Prop where
  parts : deliveries = batches.flatten ++ left
  ended : ∀ batch ∈ batches, ∃ full short, batch = full ++ [short] ∧
    (∀ delivery ∈ full, size ∣ delivery.length) ∧ ¬ size ∣ short.length
  unended : ∀ delivery ∈ left, size ∣ delivery.length

namespace Batched

variable {size : Nat} {deliveries left : List Bytes} {batches : List (List Bytes)}

theorem nil (size : Nat) : Batched size [] [] [] where
  parts := rfl
  ended _ hbatch := absurd hbatch List.not_mem_nil
  unended _ hdelivery := absurd hdelivery List.not_mem_nil

/-- A delivery that fills its chunks is held back with the others. -/
theorem concat_full (h : Batched size deliveries batches left) {delivery : Bytes}
    (hfull : size ∣ delivery.length) :
    Batched size (deliveries ++ [delivery]) batches (left ++ [delivery]) where
  parts := by rw [h.parts, List.append_assoc]
  ended := h.ended
  unended := List.forall_mem_append.2 ⟨h.unended, List.forall_mem_singleton.2 hfull⟩

/-- A delivery that does not ends a batch. -/
theorem concat_short (h : Batched size deliveries batches left) {delivery : Bytes}
    (hshort : ¬ size ∣ delivery.length) :
    Batched size (deliveries ++ [delivery]) (batches ++ [left ++ [delivery]]) [] where
  parts := by
    rw [h.parts, List.flatten_append, List.flatten_singleton, List.append_nil, List.append_assoc]
  ended := List.forall_mem_append.2
    ⟨h.ended, List.forall_mem_singleton.2 ⟨left, delivery, rfl, h.unended, hshort⟩⟩
  unended _ hdelivery := absurd hdelivery List.not_mem_nil

/-- No batch is without bytes, since its last delivery is not. -/
theorem ne_nil (h : Batched size deliveries batches left) :
    ∀ message ∈ batches.map List.flatten, message ≠ [] := by
  intro message hmessage hnil
  rcases List.mem_map.1 hmessage with ⟨batch, hbatch, rfl⟩
  rcases h.ended batch hbatch with ⟨full, short, rfl, _, hshort⟩
  rw [List.flatten_append, List.flatten_singleton, List.append_eq_nil_iff] at hnil
  rw [hnil.2] at hshort
  exact hshort (Nat.dvd_zero size)

/-- The batches and what is held back are the deliveries, byte for byte. -/
theorem flatten_append (h : Batched size deliveries batches left) :
    (batches.map List.flatten).flatten ++ left.flatten = deliveries.flatten := by
  rw [h.parts, List.flatten_append, List.flatten_flatten]

end Batched

namespace Framer

theorem pushAll_append {framer next : Framer} {first frames : List Bytes}
    (h : framer.pushAll first = (frames, .ok next)) (later : List Bytes) :
    framer.pushAll (first ++ later) =
      (frames ++ (next.pushAll later).1, (next.pushAll later).2) := by
  induction first generalizing framer frames with
  | nil =>
      rw [pushAll, Prod.mk.injEq, Except.ok.injEq] at h
      rw [← h.1, ← h.2]
      rfl
  | cons chunk chunks ih =>
      rw [pushAll] at h
      rw [List.cons_append, pushAll]
      -- No push of the first ones fails, since all of them together went well.
      rcases hpush : framer.push chunk with ⟨fault | earlier, middle⟩
      · rw [hpush] at h
        exact absurd h (by simp only [Prod.mk.injEq, reduceCtorEq, and_false, not_false_eq_true])
      · rw [hpush] at h
        simp only [Prod.mk.injEq] at h
        rcases hchunks : middle.pushAll chunks with ⟨others, outcome⟩
        rw [hchunks] at h
        simp only [] at h
        rw [h.2] at hchunks
        simp only [ih hchunks, ← h.1, List.append_assoc]

section ShortRead

variable {size : Nat}

/-- Chunks that are full are held back. -/
theorem pushAll_full {chunks : List Bytes} (hfull : ∀ chunk ∈ chunks, chunk.length = size) :
    ∀ held, (shortRead size held).pushAll chunks =
      ([], .ok (shortRead size (held ++ chunks.flatten))) := by
  induction chunks with
  | nil =>
      intro held
      rw [List.flatten_nil, List.append_nil]
      rfl
  | cons chunk chunks ih =>
      intro held
      rw [List.forall_mem_cons] at hfull
      rw [pushAll, push, if_neg (by omega)]
      simp only [ih hfull.2, List.flatten_cons, List.append_assoc, List.append_nil]

/-- What a delivery does at its last piece: it ends a message that goes back
    to the last one, or is held back as well. The pieces before it hand out
    nothing. -/
theorem exists_last_piece (hsize : 0 < size) {delivery : Bytes} (hne : delivery ≠ []) :
    ∃ full last, Bytes.pieces size delivery = full ++ [last] ∧ ∀ held,
      (shortRead size held).pushAll full =
          ([], .ok (shortRead size (held ++ full.flatten))) ∧
        (shortRead size (held ++ full.flatten)).pushAll [last] =
          if size ∣ delivery.length then ([], .ok (shortRead size (held ++ delivery)))
          else ([held ++ delivery], .ok (shortRead size [])) := by
  rcases Bytes.pieces_eq_concat hsize hne with ⟨full, last, hpieces, hfull, hlast⟩
  have hwhole : full.flatten ++ last = delivery := by
    rw [← Bytes.flatten_pieces hsize delivery, hpieces, List.flatten_append,
      List.flatten_singleton]
  refine ⟨full, last, hpieces, fun held => ⟨pushAll_full hfull held, ?_⟩⟩
  simp only [pushAll, push]
  -- The last piece is full if the size divides the delivery, and then it ends
  -- no message.
  by_cases hdvd : size ∣ delivery.length
  · rw [if_neg (by rw [hlast, not_not]; exact hdvd), if_pos hdvd, List.append_assoc, hwhole]
    rfl
  · rw [if_pos (hlast.2 hdvd), if_neg hdvd, List.append_assoc, hwhole]
    rfl

/-- A delivery ends a message, unless its length is a multiple of the chunk
    size. Then it is held back. -/
theorem pushAll_pieces (hsize : 0 < size) (held delivery : Bytes) :
    (shortRead size held).pushAll (Bytes.pieces size delivery) =
      if size ∣ delivery.length then ([], .ok (shortRead size (held ++ delivery)))
      else ([held ++ delivery], .ok (shortRead size [])) := by
  by_cases hne : delivery = []
  · -- Nothing was sent, so nothing is read.
    rw [hne, List.length_nil, if_pos (Nat.dvd_zero size), List.append_nil]
    rfl
  · rcases exists_last_piece hsize hne with ⟨full, last, hpieces, hreads⟩
    rw [hpieces, pushAll_append (hreads held).1, (hreads held).2]
    rfl

/-- Messages are batches of deliveries. The induction is on the deliveries,
    the last of them first. -/
theorem pushAll_deliveries (hsize : 0 < size) (deliveries : List Bytes) :
    ∃ batches left, Batched size deliveries batches left ∧
      (start (.shortRead size)).pushAll (deliveries.flatMap (Bytes.pieces size)) =
        (batches.map List.flatten, .ok (shortRead size left.flatten)) := by
  -- The last delivery is taken off, for it alone decides whether the batch goes
  -- on.
  induction deliveries using List.reverseRecOn with
  | nil => exact ⟨[], [], .nil size, rfl⟩
  | append_singleton deliveries delivery ih =>
      rcases ih with ⟨batches, left, hbatched, hreads⟩
      rw [List.flatMap_append, List.flatMap_singleton, pushAll_append hreads,
        pushAll_pieces hsize]
      by_cases hdvd : size ∣ delivery.length
      · refine ⟨batches, left ++ [delivery], hbatched.concat_full hdvd, ?_⟩
        rw [if_pos hdvd, List.append_nil, List.flatten_append, List.flatten_singleton]
      · refine ⟨batches ++ [left ++ [delivery]], [], hbatched.concat_short hdvd, ?_⟩
        rw [if_neg hdvd, List.map_append, List.map_singleton, List.flatten_append,
          List.flatten_singleton]
        rfl

end ShortRead

end Framer

end RespBus
