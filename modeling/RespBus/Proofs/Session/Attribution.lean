import RespBus.Proofs.Session.Ledger

/-!
# Attribution of Replies

A peer answers requests in the order in which it gets them, one reply to each,
and a reply carries nothing that says which request it answers. A session
relies on the order. Whatever it cuts out of the stream it attributes to the
oldest request that has been written and not answered.

With reply framing that is exact as long as the peer is `Paced`: by no read
have more replies come complete than requests were written. Where reads end is
of no importance, nor is what is sent in between.

The invariant is `Tally`. The requests written are those answered and those
that await a reply; the replies are those told of, one for each that was
answered, and those lost in a read with a fault in it. Only a read touches
both sides, and it moves as many requests as it completes replies, which the
pacing says there are. Every other stimulus at most adds a request at the end.

## Main definitions

* `Session.received`: What is read while the session is connected.
* `Session.Paced`: The peer answers nothing that was not written.
* `Session.Tally`: The replies told of are those to the requests answered.

## Theorems

* `Session.concat_cases`: What the last stimulus of a run brings.
* `Session.quiet_step`: Without bytes nothing is told or attributed.
* `Session.creditAll_resp`: Messages are attributed to the oldest requests.
* `Session.Tally.quiet`, `Session.Tally.read`: A stimulus keeps the tally.
* `Session.tally_run`: A run keeps the tally.
* `Session.attributed_run`: The i-th message is the i-th reply and belongs to
  the i-th request.
-/

namespace RespBus

namespace Effect

theorem messages_append (first second : List Effect) :
    messages (first ++ second) = messages first ++ messages second := by
  rw [messages, events_append, List.filterMap_append]
  rfl

theorem messages_of_silent {effects : List Effect} (h : contents effects = []) :
    messages effects = [] := by
  rw [contents, List.map_eq_nil_iff] at h
  rw [messages, h]
  rfl

end Effect

namespace Session

/-- The bytes that a stimulus brings, if the session reads them. -/
def received? (session : Session) : Stimulus → Option Bytes
  | .read chunk => if session.phase = .connected then some chunk else none
  | _ => none

/-- What is read in a run while the session is connected. -/
def received (session : Session) (stimuli : List Stimulus) : List Bytes :=
  session.along received? stimuli

/-- The peer answers nothing that was not written: by no read have more
    replies come complete than requests were written before it. -/
def Paced (session : Session) (stimuli : List Stimulus) : Prop :=
  ∀ n chunk, stimuli[n]? = some (.read chunk) →
    countReplies (session.received (stimuli.take (n + 1))).flatten ≤
      (session.written (stimuli.take n)).length

/-- A run that is paced was so all along. -/
theorem Paced.of_append {session : Session} {first later : List Stimulus}
    (h : session.Paced (first ++ later)) : session.Paced first := by
  intro n chunk hread
  have hbound : n < first.length := by
    rw [List.getElem?_eq_some_iff] at hread
    exact hread.1
  have hlast := h n chunk (by rw [List.getElem?_append_left hbound]; exact hread)
  rw [List.take_append_of_le_length (by omega), List.take_append_of_le_length (by omega)] at hlast
  exact hlast

/-- At the last read of a paced run there are no more replies than requests were
    written. -/
theorem Paced.last {session : Session} {stimuli : List Stimulus} {chunk : Bytes}
    (h : session.Paced (stimuli ++ [.read chunk])) :
    countReplies (session.received (stimuli ++ [.read chunk])).flatten ≤
      (session.written stimuli).length := by
  have hlast := h stimuli.length chunk List.getElem?_concat_length
  rw [List.take_left, List.take_of_length_le (by rw [List.length_append]; rfl)] at hlast
  exact hlast

/-- What is received is read while the session is connected. -/
theorem eq_read_of_received {session : Session} {stimulus : Stimulus} {chunk : Bytes}
    (h : session.received? stimulus = some chunk) :
    stimulus = .read chunk ∧ session.phase = .connected := by
  cases stimulus with
  | read bytes =>
      rw [received?] at h
      by_cases hphase : session.phase = .connected
      · rw [if_pos hphase, Option.some.injEq] at h
        exact ⟨by rw [h], hphase⟩
      · rw [if_neg hphase] at h
        exact absurd h (by simp only [reduceCtorEq, not_false_eq_true])
  | _ => exact absurd h (by simp only [received?, reduceCtorEq, not_false_eq_true])

/-- The last stimulus of a run meets the state that the others lead to. -/
theorem run_concat (session : Session) (stimuli : List Stimulus) (stimulus : Stimulus) :
    session.run (stimuli ++ [stimulus]) =
      (((session.run stimuli).1.step stimulus).1,
        (session.run stimuli).2 ++ ((session.run stimuli).1.step stimulus).2) := by
  rw [run_append]
  simp only [run, List.append_nil]

/-- The last stimulus of a run brings no bytes that are read, or it is a read
    of a session that is connected, which writes nothing. -/
theorem concat_cases (session : Session) (stimuli : List Stimulus) (stimulus : Stimulus) :
    ((session.run stimuli).1.received? stimulus = none ∧
        session.received (stimuli ++ [stimulus]) = session.received stimuli) ∨
      ∃ chunk, stimulus = .read chunk ∧ (session.run stimuli).1.phase = .connected ∧
        session.received (stimuli ++ [stimulus]) = session.received stimuli ++ [chunk] ∧
        session.written (stimuli ++ [stimulus]) = session.written stimuli := by
  -- What the last stimulus adds to what was received is one chunk or nothing.
  have hreceived : session.received (stimuli ++ [stimulus]) =
      session.received stimuli ++ ((session.run stimuli).1.received? stimulus).toList :=
    along_concat received? session stimuli stimulus
  rcases hchunk : (session.run stimuli).1.received? stimulus with _ | chunk
  · rw [hchunk, Option.toList_none, List.append_nil] at hreceived
    exact .inl ⟨rfl, hreceived⟩
  · rcases eq_read_of_received hchunk with ⟨rfl, hphase⟩
    rw [hchunk] at hreceived
    have hwritten := along_concat written? session stimuli (.read chunk)
    have hnone : (session.run stimuli).1.written? (.read chunk) = none := rfl
    rw [hnone, Option.toList_none, List.append_nil] at hwritten
    exact .inr ⟨chunk, rfl, hphase, hreceived, hwritten⟩

/-- Bytes that come while the session is not connected are not read. -/
theorem step_read_of_not_connected {session : Session} (h : session.phase ≠ .connected)
    (chunk : Bytes) : session.step (.read chunk) = (session, []) := by
  -- No other phase has a case for reads.
  cases hphase : session.phase with
  | connected => exact absurd hphase h
  | disconnected =>
      unfold step
      rw [hphase]
      rfl
  | connecting =>
      unfold step
      rw [hphase]
      rfl
  | closing =>
      unfold step
      rw [hphase]
  | closed =>
      unfold step
      rw [hphase]

/-- A stimulus without bytes that are read brings none, or does nothing. -/
theorem unread_cases {session : Session} {stimulus : Stimulus}
    (hnone : session.received? stimulus = none) :
    stimulus.chunk? = none ∨
      session.step stimulus = (session, []) ∧ session.written? stimulus = none := by
  rcases hchunk : stimulus.chunk? with _ | chunk
  · exact .inl rfl
  · have hread := Stimulus.eq_read_of_chunk hchunk
    rw [hread, received?] at hnone
    have hphase : session.phase ≠ .connected := by
      intro hconnected
      rw [if_pos hconnected] at hnone
      exact absurd hnone (by simp only [reduceCtorEq, not_false_eq_true])
    rw [hread]
    exact .inr ⟨step_read_of_not_connected hphase chunk, rfl⟩

/-- Without bytes that are read nothing is told, and at most one request was
    added to those that await a reply. A session that has not stopped holds
    back the same bytes. -/
theorem quiet_step {session : Session} {stimulus : Stimulus}
    (hnone : session.received? stimulus = none) :
    Effect.messages (session.step stimulus).2 = [] ∧
      (session.step stimulus).1.awaiting =
        session.awaiting ++ (session.written? stimulus).toList.map Request.origin ∧
      ((session.step stimulus).1.accepts = true →
        session.accepts = true ∧ (session.step stimulus).1.framer = session.framer) := by
  -- The stimulus is no read, or the session does not take reads.
  rcases unread_cases hnone with hchunk | ⟨hnothing, hwritten⟩
  · rcases records_step session stimulus with ⟨retired, hrecords, hunread⟩
    have hawaiting := hrecords.awaiting
    rw [hunread hchunk, List.nil_append] at hawaiting
    rcases stopping_or_silent_step session hchunk with ⟨hclosed, hmessages⟩ | ⟨hframer, hsilent⟩
    · refine ⟨hmessages, hawaiting.symm, fun hruns => ?_⟩
      rw [not_accepts_of_closed hclosed] at hruns
      exact absurd hruns Bool.false_ne_true
    · refine ⟨Effect.messages_of_silent hsilent, hawaiting.symm, fun hruns => ?_⟩
      -- A session that had stopped before would not run now.
      have haccepts : session.accepts = true := by
        by_contra hstopped
        rw [step_of_stopped (Bool.eq_false_iff.2 hstopped)] at hruns
        exact hstopped hruns
      exact ⟨haccepts, hframer⟩
  · rw [hnothing, hwritten, Option.toList_none, List.map_nil, List.append_nil]
    exact ⟨rfl, rfl, fun hruns => ⟨hruns, rfl⟩⟩

/-- With reply framing every message is one reply, so messages are attributed
    to as many of the oldest requests, in order. -/
theorem creditAll_resp (frames : List Bytes) :
    ∀ (session : Session) (answered left : List Origin), session.framer.mode = .resp →
      session.awaiting = answered ++ left → frames.length = answered.length →
      Effect.messages (session.creditAll frames).2 =
          List.zipWith (fun frame origin => (frame, some origin)) frames answered ∧
        (session.creditAll frames).1.awaiting = left := by
  induction frames with
  | nil =>
      intro session answered left _ hawaiting hlength
      rw [List.eq_nil_of_length_eq_zero hlength.symm] at hawaiting ⊢
      exact ⟨rfl, hawaiting⟩
  | cons frame frames ih =>
      intro session answered left hmode hawaiting hlength
      rcases answered with _ | ⟨origin, answered⟩
      · exact absurd hlength (Nat.succ_ne_zero frames.length)
      · -- Under this framing a message is one reply, so it takes one request
        -- off the list.
        have hone : session.framer.repliesIn frame = 1 := by
          rw [Framer.repliesIn, hmode]
        have hcredit : session.credit frame =
            ({ session with awaiting := answered ++ left },
              .report ⟨session.label, .ok frame, some origin⟩) := by
          simp only [credit, hone, hawaiting, List.cons_append, List.tail_cons, List.head?_cons,
            Option.some_or, Nat.sub_self, Nat.zero_min, List.drop_zero]
        rcases ih { session with awaiting := answered ++ left } answered left hmode rfl
          (Nat.succ.inj hlength) with ⟨hmessages, hleft⟩
        rw [creditAll, hcredit]
        refine ⟨?_, hleft⟩
        exact congrArg (List.cons (frame, some origin)) hmessages

/-- The replies told of are those to the requests answered. What was received
    is the replies `told` of, those `lost` in a read with a fault in it, and a
    rest; what was written are the requests `answered` and those `pending`.
    Nothing was lost as long as the session runs. -/
structure Tally (after : Session) (received : Bytes) (written : List Request)
    (messages : List (Bytes × Option Origin)) (told lost : List Bytes) (rest : Bytes)
    (answered pending : List Request) : Prop where
  framed : Framed received (told ++ lost) rest
  requests : written = answered ++ pending
  paired : told.length = answered.length
  messages : messages =
    List.zipWith (fun reply origin => (reply, some origin)) told (answered.map Request.origin)
  unharmed : frameLength rest = .incomplete → lost = []
  runs : after.accepts = true → lost = [] ∧ frameLength rest = .incomplete ∧
    after.awaiting = pending.map Request.origin ∧
    ∃ scanner : Scanner, after.framer = .resp rest scanner ∧ scanner.Tracks rest

namespace Tally

variable {session : Session} {received rest : Bytes} {written answered pending : List Request}
  {messages : List (Bytes × Option Origin)} {told lost : List Bytes}

/-- Without bytes that are read the tally goes on, with a request more to be
    answered if one was written. -/
theorem quiet (h : session.Tally received written messages told lost rest answered pending)
    {stimulus : Stimulus} (hnone : session.received? stimulus = none) :
    (session.step stimulus).1.Tally received
      (written ++ (session.written? stimulus).toList)
      (messages ++ Effect.messages (session.step stimulus).2) told lost rest answered
      (pending ++ (session.written? stimulus).toList) := by
  rcases quiet_step hnone with ⟨hmessages, hawaiting, hruns⟩
  refine ⟨h.framed, ?_, h.paired, ?_, h.unharmed, fun hlater => ?_⟩
  · rw [h.requests, List.append_assoc]
  · rw [hmessages, List.append_nil, h.messages]
  · rcases hruns hlater with ⟨haccepts, hframer⟩
    rcases h.runs haccepts with ⟨hlost, hrest, hpending, scanner, hheld, htracks⟩
    refine ⟨hlost, hrest, ?_, scanner, hframer.trans hheld, htracks⟩
    rw [hawaiting, hpending, List.map_append]

/-- A read answers as many requests as it completes replies, or brings a fault
    to light and stops the session. -/
theorem read (h : session.Tally received written messages told lost rest answered pending)
    (hphase : session.phase = .connected) {chunk : Bytes}
    (hpaced : countReplies (received ++ chunk) ≤ written.length) :
    ∃ told lost rest answered pending, (session.step (.read chunk)).1.Tally (received ++ chunk)
      written (messages ++ Effect.messages (session.step (.read chunk)).2) told lost rest answered
      pending := by
  rcases h.runs (accepts_of_connected hphase) with
    ⟨rfl, hwaiting, hawaiting, scanner, hheld, htracks⟩
  have hframed := h.framed
  rw [List.append_nil] at hframed
  rw [step_of_connected hphase, stepConnected, receive, hheld]
  rcases Framer.push_resp_cases htracks chunk with ⟨replies, later, next, hmore, hnext, hpush⟩
  have hall := hframed.append hmore
  rcases hpush with ⟨hlater, hpush⟩ | ⟨fault, hlater, hpush⟩
  · rw [hpush]
    -- The pacing leaves a request for every reply.
    have henough : replies.length ≤ pending.length := by
      rw [hall.countReplies_eq, h.requests, List.length_append, List.length_append, h.paired]
        at hpaced
      omega
    have hsplit : session.awaiting = (pending.take replies.length).map Request.origin ++
        (pending.drop replies.length).map Request.origin := by
      rw [← List.map_append, List.take_append_drop, hawaiting]
    have hlength : replies.length = ((pending.take replies.length).map Request.origin).length := by
      rw [List.length_map, List.length_take, Nat.min_eq_left henough]
    rcases creditAll_resp replies { session with framer := .resp later next } _ _ rfl hsplit
      hlength with ⟨hmessages, hleft⟩
    rcases contents_creditAll { session with framer := .resp later next } replies with
      ⟨_, hframer, _⟩
    refine ⟨told ++ replies, [], later, answered ++ pending.take replies.length,
      pending.drop replies.length, ?_, ?_, ?_, ?_, fun _ => rfl, fun _ => ?_⟩
    · rw [List.append_nil]
      exact hall
    · rw [List.append_assoc, List.take_append_drop, h.requests]
    · rw [List.length_map] at hlength
      rw [List.length_append, List.length_append, h.paired, ← hlength]
    · simp only [hmessages]
      rw [h.messages, List.map_append, List.zipWith_append (by rw [List.length_map, h.paired])]
    · exact ⟨rfl, hlater, hleft, next, hframer, hnext⟩
  · rw [hpush]
    refine ⟨told, replies, later, answered, pending, hall, h.requests, h.paired, ?_,
      fun hwhole => ?_, fun hruns => ?_⟩
    · rw [h.messages]
      exact List.append_nil _
    · rw [hwhole] at hlater
      exact absurd hlater (by simp only [reduceCtorEq, not_false_eq_true])
    · exact absurd hruns Bool.false_ne_true

end Tally

/-- A run keeps the tally. The induction is on the stimuli, the last of them
    first, because the pacing is about what came before a read. -/
theorem tally_run {hasRuntime : Bool} {config : SessionConfig} {session : Session}
    (hstart : start hasRuntime config = .ok session) (hresp : config.framing = .resp)
    (stimuli : List Stimulus) (hpaced : session.Paced stimuli) :
    ∃ told lost rest answered pending, (session.run stimuli).1.Tally
      (session.received stimuli).flatten (session.written stimuli)
      (Effect.messages (session.run stimuli).2) told lost rest answered pending := by
  -- The induction takes the last stimulus off: it reads a chunk, or it leaves
  -- the tally alone.
  induction stimuli using List.reverseRecOn with
  | nil =>
      rcases eq_of_start hstart with ⟨label, address, rfl⟩
      refine ⟨[], [], [], [], [], framed_nil (not_complete_of_incomplete frameLength_nil), rfl, rfl,
        rfl, fun _ => rfl, fun _ => ⟨rfl, frameLength_nil, rfl, {}, ?_, Scanner.tracks_new []⟩⟩
      rw [hresp]
      rfl
  | append_singleton stimuli stimulus ih =>
      rcases ih hpaced.of_append with ⟨told, lost, rest, answered, pending, h⟩
      rw [run_concat]
      simp only [Effect.messages_append]
      rcases concat_cases session stimuli stimulus with
        ⟨hnone, hreceived⟩ | ⟨chunk, rfl, hphase, hreceived, hwritten⟩
      · have hwritten := along_concat written? session stimuli stimulus
        rw [written, hwritten, hreceived]
        exact ⟨told, lost, rest, answered, _, h.quiet hnone⟩
      · have hbound := hpaced.last
        rw [hreceived, List.flatten_append, List.flatten_singleton] at hbound
        rw [hreceived, hwritten, List.flatten_append, List.flatten_singleton]
        exact h.read hphase hbound

/-- The i-th message is the i-th reply and belongs to the i-th request. A
    session under reply framing is started, requests are sent to it and bytes
    are delivered to it in any order and in reads of any size, and its peer is
    paced. Then every message it reports is, byte for byte, the reply that
    stands at the same place in what it received, with the origin of the
    request that stands at the same place among those written; and as long as
    nothing it received is at fault, every reply is reported. -/
theorem attributed_run {hasRuntime : Bool} {config : SessionConfig} {session : Session}
    (hstart : start hasRuntime config = .ok session) (hresp : config.framing = .resp)
    {stimuli : List Stimulus} (hpaced : session.Paced stimuli) :
    ∃ replies rest, Framed (session.received stimuli).flatten replies rest ∧
      (∀ (i : Nat) (message : Bytes × Option Origin),
          (Effect.messages (session.run stimuli).2)[i]? = some message →
        ∃ (reply : Bytes) (request : Request), replies[i]? = some reply ∧
          (session.written stimuli)[i]? = some request ∧
          message = (reply, some request.origin)) ∧
      (frameLength rest = .incomplete →
        (Effect.messages (session.run stimuli).2).length = replies.length) := by
  rcases tally_run hstart hresp stimuli hpaced with ⟨told, lost, rest, answered, pending, h⟩
  refine ⟨told ++ lost, rest, h.framed, fun i message hmessage => ?_, fun hrest => ?_⟩
  · -- The messages were told with their requests, one for one.
    rw [h.messages, List.getElem?_zipWith_eq_some] at hmessage
    rcases hmessage with ⟨reply, origin, hreply, horigin, rfl⟩
    rw [List.getElem?_map, Option.map_eq_some_iff] at horigin
    rcases horigin with ⟨request, hrequest, rfl⟩
    refine ⟨reply, request, ?_, ?_, rfl⟩
    · rw [List.getElem?_append_left (List.getElem?_eq_some_iff.1 hreply).1, hreply]
    · rw [h.requests, List.getElem?_append_left (List.getElem?_eq_some_iff.1 hrequest).1, hrequest]
  · rw [h.messages, h.unharmed hrest, List.append_nil, List.length_zipWith, List.length_map,
      h.paired, Nat.min_self]

/-- Two requests, the second of them empty. -/
def questions : List Request :=
  [⟨.fetchMenu, Bytes.ofText "GET", none⟩, ⟨.retrieveMessage, [], some "7"⟩]

/-- Replies to them. -/
def answers : List Bytes :=
  [okReply, Bytes.ofText ":1\r\n"]

/-- The first request is early, and the first reply ends in the read that
    brings the second. -/
def conversation : List Stimulus :=
  [.send ⟨.fetchMenu, Bytes.ofText "GET", none⟩, .begin, .dialed (.ok ()), .wrote (.ok ()),
    .send ⟨.retrieveMessage, [], some "7"⟩, .wrote (.ok ()), .read (Bytes.ofText "+O"),
    .read (Bytes.ofText "K\r\n:1\r\n")]

/-- No answer of the conversation comes before its question. -/
theorem paced_conversation : dialing.Paced conversation := by
  intro n chunk hread
  have hbound : n < 8 := (List.getElem?_eq_some_iff.1 hread).1
  interval_cases n
  all_goals decide +kernel

theorem framed_answers : Framed (answers.flatten ++ []) answers [] where
  parts := rfl
  whole reply hreply := by
    simp only [answers, List.mem_cons, List.not_mem_nil, or_false] at hreply
    rw [IsReply]
    rcases hreply with rfl | rfl <;> cbv
  ended := not_complete_of_incomplete frameLength_nil

theorem attributed_run_conversation :
    dialing.Paced conversation ∧
      (Effect.messages (dialing.run conversation).2).length = 2 ∧
      ∀ (i : Nat) (message : Bytes × Option Origin),
        (Effect.messages (dialing.run conversation).2)[i]? = some message →
          ∃ (reply : Bytes) (request : Request), answers[i]? = some reply ∧
            questions[i]? = some request ∧ message = (reply, some request.origin) := by
  have hstart : start true { framing := .resp } = .ok dialing := by cbv
  have hreceived : (dialing.received conversation).flatten = answers.flatten ++ [] := by
    decide +kernel
  have hwritten : dialing.written conversation = questions := by decide +kernel
  rcases attributed_run hstart rfl paced_conversation with
    ⟨replies, rest, hframed, hattributed, hall⟩
  rw [hreceived] at hframed
  rw [hwritten] at hattributed
  rcases hframed.unique framed_answers with ⟨rfl, rfl⟩
  exact ⟨paced_conversation, hall frameLength_nil, hattributed⟩

end Session

end RespBus
