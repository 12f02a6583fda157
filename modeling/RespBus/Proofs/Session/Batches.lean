import RespBus.Proofs.Framer.ShortReads
import RespBus.Proofs.Session.Journal

/-!
# Deliveries Told of Together

What a session is told of, its framer hands out. That holds with either
framing and in every run, whatever else happens between the reads: requests
that are sent or written, a user who lets go, an end of the connection. The
messages of a run are those of its reads pushed one after another, up to the
first that fails, and as long as the session runs the bytes it holds back are
those its framer was left with. `messages_run` says so, by induction on the
stimuli, the last of them first.

With short-read framing the reads of a session come from deliveries, each of
which is read in pieces of the chunk size. The messages are then batches of
deliveries, and where a batch ends is up to the lengths alone.

## Theorems

* `Effect.map_messages`: The messages without origins are those the handler is
  told of.
* `Session.messages_run`: The messages of a run are those its framer hands out.
* `Session.batches_told`: With short reads, messages are batches of deliveries.
-/

namespace RespBus

namespace Effect

/-- The messages are what is told that is not an error. -/
theorem map_messages (effects : List Effect) :
    (messages effects).map Prod.fst = (contents effects).filterMap Except.toOption := by
  rw [messages, contents, List.filterMap_map, List.map_filterMap]
  congr 1
  funext event
  rcases event with ⟨label, content, origin⟩
  cases content <;> rfl

end Effect

namespace Session

/-- Every message is told of once, and in order. -/
theorem messages_creditAll (session : Session) (frames : List Bytes) :
    (Effect.messages (session.creditAll frames).2).map Prod.fst = frames := by
  rw [Effect.map_messages, (contents_creditAll session frames).1, List.filterMap_map]
  exact List.filterMap_some

/-- The messages of a run are those that its framer hands out over what was
    read, and a session that has not stopped holds back what the framer does. -/
theorem messages_run (session : Session) (stimuli : List Stimulus) :
    (Effect.messages (session.run stimuli).2).map Prod.fst =
        (session.framer.pushAll (session.received stimuli)).1 ∧
      ((session.run stimuli).1.accepts = true →
        (session.framer.pushAll (session.received stimuli)).2 =
          .ok (session.run stimuli).1.framer) := by
  induction stimuli using List.reverseRecOn with
  | nil => exact ⟨rfl, fun _ => rfl⟩
  | append_singleton stimuli stimulus ih =>
      rw [run_concat]
      simp only [Effect.messages_append, List.map_append]
      rcases concat_cases session stimuli stimulus with
        ⟨hnone, hreceived⟩ | ⟨chunk, rfl, hphase, hreceived, _⟩
      · rcases quiet_step hnone with ⟨hmessages, _, hruns⟩
        rw [hreceived, hmessages, List.map_nil, List.append_nil]
        refine ⟨ih.1, fun hlater => ?_⟩
        rw [ih.2 (hruns hlater).1, (hruns hlater).2]
      · -- A session that reads runs, so its framer is where the reads left it.
        have hreads : session.framer.pushAll (session.received stimuli) =
            ((Effect.messages (session.run stimuli).2).map Prod.fst,
              .ok (session.run stimuli).1.framer) :=
          Prod.ext ih.1.symm (ih.2 (accepts_of_connected hphase))
        rw [hreceived, Framer.pushAll_append hreads, Framer.pushAll,
          step_of_connected hphase, stepConnected, receive]
        rcases (session.run stimuli).1.framer.push chunk with ⟨fault | frames, next⟩
        · exact ⟨rfl, fun hruns => absurd hruns Bool.false_ne_true⟩
        · refine ⟨?_, fun _ => ?_⟩
          · simp only [messages_creditAll, Framer.pushAll, List.append_nil]
          · simp only [Framer.pushAll, (contents_creditAll _ frames).2.1]

/-- With short reads, messages are batches of deliveries. The deliveries are
    any bytes, each of them read in pieces of the chunk size. The messages are
    those of the deliveries whose length is no multiple of that size, and each
    of these has in it all deliveries after the one before up to and with its
    own. No message is empty, and the messages with what is held back are the
    deliveries, byte for byte. One more delivery that is not empty hands out
    nothing before its last piece, and at that piece one message at most. A
    session is told of the same messages, whatever else happens to it while it
    reads. -/
theorem batches_told {size : Nat} (hsize : 0 < size) (deliveries : List Bytes) :
    ∃ batches left, Batched size deliveries batches left ∧
      (Framer.start (.shortRead size)).pushAll (deliveries.flatMap (Bytes.pieces size)) =
        (batches.map List.flatten, .ok (.shortRead size left.flatten)) ∧
      (∀ message ∈ batches.map List.flatten, message ≠ []) ∧
      (batches.map List.flatten).flatten ++ left.flatten = deliveries.flatten ∧
      (∀ delivery, delivery ≠ [] → ∃ full last, Bytes.pieces size delivery = full ++ [last] ∧
        ((Framer.start (.shortRead size)).pushAll
            (deliveries.flatMap (Bytes.pieces size) ++ full)).1 = batches.map List.flatten ∧
        ((Framer.start (.shortRead size)).pushAll
            (deliveries.flatMap (Bytes.pieces size) ++ full ++ [last])).1 =
          batches.map List.flatten ++
            if size ∣ delivery.length then [] else [left.flatten ++ delivery]) ∧
      ∀ hasRuntime config session stimuli, start hasRuntime config = .ok session →
        config.framing = .shortRead size →
        session.received stimuli = deliveries.flatMap (Bytes.pieces size) →
        (Effect.messages (session.run stimuli).2).map Prod.fst = batches.map List.flatten ∧
          ((session.run stimuli).1.accepts = true →
            (session.run stimuli).1.framer = .shortRead size left.flatten) := by
  rcases Framer.pushAll_deliveries hsize deliveries with ⟨batches, left, hbatched, hreads⟩
  refine ⟨batches, left, hbatched, hreads, hbatched.ne_nil, hbatched.flatten_append, ?_, ?_⟩
  · intro delivery hne
    rcases Framer.exists_last_piece hsize hne with ⟨full, last, hpieces, hpushed⟩
    rcases hpushed left.flatten with ⟨hfull, hlast⟩
    -- The full pieces of one more delivery say nothing, and its last one
    -- decides.
    have hfront := (Framer.pushAll_append hreads full).trans (by rw [hfull])
    refine ⟨full, last, hpieces, by rw [hfront, List.append_nil], ?_⟩
    rw [Framer.pushAll_append hfront, hlast, List.append_nil]
    by_cases hdvd : size ∣ delivery.length
    · rw [if_pos hdvd, if_pos hdvd]
    · rw [if_neg hdvd, if_neg hdvd]
  · intro hasRuntime config session stimuli hstart hmode hreceived
    have hframer : session.framer = .start (.shortRead size) := by
      rw [framer_start hstart, hmode]
    -- The session tells what its framer hands out.
    have hrun := session.messages_run stimuli
    rw [hreceived, hframer, hreads] at hrun
    exact ⟨hrun.1, fun hruns => (Except.ok.inj (hrun.2 hruns)).symm⟩

/-- Six bytes, none, four, five, and three more that are held back. -/
def droplets : List Bytes :=
  [Bytes.ofText ":10\r\n+", [], Bytes.ofText "OK\r\n", okReply, Bytes.ofText ":1\r"]

/-- The user sends a request between the reads of the first delivery. -/
def dripping : List Stimulus :=
  [.begin, .dialed (.ok ()), .read (Bytes.ofText ":10"), .send ⟨.fetchMenu, [], none⟩,
    .read (Bytes.ofText "\r\n+"), .wrote (.ok ()), .read (Bytes.ofText "OK\r"),
    .read (Bytes.ofText "\n"), .read (Bytes.ofText "+OK"), .read (Bytes.ofText "\r\n"),
    .read (Bytes.ofText ":1\r")]

/-- Replies that fill their chunks come out with the next that does not. One
    more of these would be handed out at its last piece. -/
theorem batches_told_dripping :
    ∃ batches left, Batched 3 droplets batches left ∧
      (Effect.messages (listening.run dripping).2).map Prod.fst = batches.map List.flatten ∧
      batches.map List.flatten = [Bytes.ofText ":10\r\n+OK\r\n", okReply] ∧
      left.flatten = Bytes.ofText ":1\r" ∧
      ∃ full last, Bytes.pieces 3 okReply = full ++ [last] ∧
        ((Framer.start (.shortRead 3)).pushAll
            (droplets.flatMap (Bytes.pieces 3) ++ full)).1 = batches.map List.flatten := by
  have hstart : start true { framing := .shortRead 3 } = .ok listening := by cbv
  have hreceived : listening.received dripping = droplets.flatMap (Bytes.pieces 3) := by
    decide +kernel
  have htold : (Effect.messages (listening.run dripping).2).map Prod.fst =
      [Bytes.ofText ":10\r\n+OK\r\n", okReply] := by decide +kernel
  rcases batches_told (show 0 < 3 by decide) droplets with
    ⟨batches, left, hbatched, _, _, hbytes, hlast, hsession⟩
  have hmessages := (hsession true _ listening dripping hstart rfl hreceived).1
  have hbatches : batches.map List.flatten = [Bytes.ofText ":10\r\n+OK\r\n", okReply] := by
    rw [← hmessages, htold]
  rw [hbatches] at hbytes
  -- No bytes are lost, so what was not told is what is left.
  have hleft : left.flatten = Bytes.ofText ":1\r" :=
    List.append_cancel_left (hbytes.trans (by decide))
  rcases hlast okReply (by decide) with ⟨full, last, hpieces, hfull, _⟩
  exact ⟨batches, left, hbatched, hmessages, hbatches, hleft, full, last, hpieces, hfull⟩

end Session

end RespBus
