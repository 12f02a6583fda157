import RespBus.Proofs.Session.Batches
import RespBus.Watch

/-!
# What a Watcher Logs

A watcher logs every message, but not everything in it. It decodes the message
once, and the entry is that of the reply at the front. How far that reply goes
into the message is found out on the way and not looked at.

With reply framing this is the whole message, as each is exactly one reply. Short
reads merge replies that arrive together, and then the others are in no entry.
`ofEvent_first` says it for any message that starts with a reply: it is logged
as if the rest of it had never come. The session does look at the others, it
counts them; and a message that starts with no reply is logged to its last byte.

That is not a matter of a rare message. `events_deliver` has a message for every
list of replies whose bytes do not fill their chunks, and `log_of_run` puts
the two together.

## Main definitions

* `Watch.answers`: Three replies.

## Theorems

* `Framer.mode_pushAll`: A framer keeps its mode.
* `Session.two_le_of_start`: No session starts with chunks of one byte.
* `Session.isReply_of_resp`: With reply framing every message is one reply.
* `Session.events_deliver`: What a delivery that leaves a chunk unfilled says.
* `Watch.ofEvent_raw`, `Watch.ofEvent_first`: The entry for a message.
* `Watch.isReply_iff`: When the first reply is all of a message.
* `Watch.log_of_run`: What a watcher logs, and what it does not.
* `Watch.log_hides`: Three replies, and the first of them in the log.
-/

namespace RespBus

theorem Stimulus.reads_map (chunks : List Bytes) : reads (chunks.map read) = chunks := by
  rw [reads, List.filterMap_map]
  exact List.filterMap_some

namespace Framer

theorem mode_push (framer : Framer) (chunk : Bytes) : (framer.push chunk).2.mode = framer.mode := by
  cases framer with
  | shortRead size held =>
      rw [push]
      by_cases hshort : chunk.length < size
      · rw [if_pos hshort]
        rfl
      · rw [if_neg hshort]
        rfl
  | resp held scanner => rfl

/-- A framer keeps its mode. -/
theorem mode_pushAll {chunks : List Bytes} : ∀ {framer next : Framer},
    (framer.pushAll chunks).2 = .ok next → next.mode = framer.mode := by
  induction chunks with
  | nil =>
      intro framer next h
      rw [Except.ok.inj h]
  | cons chunk chunks ih =>
      intro framer next h
      have hmode := framer.mode_push chunk
      rw [pushAll] at h
      rcases hpush : framer.push chunk with ⟨fault | frames, after⟩
      · rw [hpush] at h
        exact absurd h (by simp only [reduceCtorEq, not_false_eq_true])
      · rw [hpush] at h hmode
        exact (ih h).trans hmode

end Framer

namespace Session

variable {session : Session}

/-- No session starts with chunks of fewer than two bytes. -/
theorem two_le_of_start {hasRuntime : Bool} {config : SessionConfig}
    (hstart : start hasRuntime config = .ok session) {size : Nat}
    (hmode : config.framing = .shortRead size) : 2 ≤ size := by
  have hvalid := (valid_of_start hstart).1
  unfold SessionConfig.validate at hvalid
  by_cases hhost : config.host = ""
  · rw [if_pos hhost] at hvalid
    exact absurd hvalid (by simp only [reduceCtorEq, not_false_eq_true])
  · rw [if_neg hhost, hmode] at hvalid
    exact Framing.validate_shortRead.1 hvalid

theorem mode_of_accepts {hasRuntime : Bool} {config : SessionConfig}
    (hstart : start hasRuntime config = .ok session) {stimuli : List Stimulus}
    (haccepts : (session.run stimuli).1.accepts = true) :
    (session.run stimuli).1.framer.mode = config.framing := by
  rw [Framer.mode_pushAll ((session.messages_run stimuli).2 haccepts), framer_start hstart]
  cases config.framing <;> rfl

theorem mem_messages {effects : List Effect} {event : Event} {message : Bytes}
    (h : event ∈ Effect.events effects) (hcontent : event.content = .ok message) :
    message ∈ (Effect.messages effects).map Prod.fst := by
  rw [Effect.map_messages, List.mem_filterMap]
  refine ⟨event.content, List.mem_map_of_mem h, ?_⟩
  rw [hcontent]
  rfl

/-- With reply framing every message is one reply. -/
theorem isReply_of_resp {hasRuntime : Bool} {config : SessionConfig}
    (hstart : start hasRuntime config = .ok session) (hmode : config.framing = .resp)
    {stimuli : List Stimulus} {message : Bytes}
    (h : message ∈ (Effect.messages (session.run stimuli).2).map Prod.fst) : IsReply message := by
  rw [(session.messages_run stimuli).1, framer_start hstart, hmode, Framer.start] at h
  rcases Framer.pushAll_resp (Scanner.tracks_new []) frameLength_nil (session.received stimuli) with
    ⟨replies, _, _, hframed, _, hpush⟩ | ⟨_, failing, hpush⟩
  · rw [hpush] at h
    exact hframed.whole message h
  · rw [hpush] at h
    exact failing.framedBefore.whole message h

/-- A delivery that does not fill its chunks makes a session tell of one
    message: what was held back, and the delivery behind it. -/
theorem events_deliver {size : Nat} {held data : Bytes} (hphase : session.phase = .connected)
    (hframer : session.framer = .shortRead size held) (hsize : 0 < size)
    (hshort : ¬ size ∣ data.length) :
    ∃ event, Effect.events (session.run ((Action.deliver data).stimuli size)).2 = [event] ∧
      event.content = .ok (held ++ data) := by
  have hcontents := contents_run hphase (uninterrupted_reads session (Bytes.pieces size data))
  rw [Stimulus.reads_map, hframer, Framer.pushAll_pieces hsize, if_neg hshort] at hcontents
  change (Effect.events _).map Event.content = [.ok (held ++ data)] at hcontents
  rcases List.map_eq_singleton_iff.1 hcontents with ⟨event, hevents, hcontent⟩
  exact ⟨event, hevents, hcontent⟩

end Session

namespace Watch

section Entry

variable {event : Event} {message first rest : Bytes} {hidden : List Bytes}

/-- A message that starts with no reply is logged to its last byte. -/
theorem ofEvent_raw (hcontent : event.content = .ok message) (h : Framed message [] rest) :
    Entry.ofEvent event = .raw event.session (event.origin.map Origin.purpose) message := by
  have hnone : ∀ value length, Reply.decode message ≠ .complete (value, length) := by
    intro value length hdecode
    rw [h.parts] at hdecode
    exact h.ended length (frameLength_eq_complete_iff_decode.2 ⟨value, hdecode⟩)
  unfold Entry.ofEvent
  rw [hcontent]
  rcases hdecode : Reply.decode message with _ | fault | ⟨value, length⟩
  · simp only [hdecode]
  · simp only [hdecode]
  · exact absurd hdecode (hnone value length)

/-- A message that starts with a reply is logged as this reply is, and nothing
    that follows it is looked at. -/
theorem ofEvent_first (hcontent : event.content = .ok message)
    (h : Framed message (first :: hidden) rest) :
    ∃ value, Reply.decode first = .complete (value, first.length) ∧
      Entry.ofEvent event = .reply event.session (event.origin.map Origin.purpose) value ∧
      Entry.ofEvent event = Entry.ofEvent { event with content := .ok first } := by
  rcases isReply_iff_decode.1 (h.whole first List.mem_cons_self) with ⟨value, hfirst⟩
  have hdecode : Reply.decode message = .complete (value, first.length) := by
    rw [h.parts, List.flatten_cons, List.append_assoc]
    exact Reply.decode_append hfirst _
  refine ⟨value, hfirst, ?_, ?_⟩
  · simp only [Entry.ofEvent, hcontent, hdecode]
  · simp only [Entry.ofEvent, hcontent, hdecode, hfirst]

/-- The first reply is all of a message just if nothing follows it. -/
theorem isReply_iff (h : Framed message (first :: hidden) rest) :
    (∃ value, Reply.decode message = .complete (value, message.length)) ↔
      hidden = [] ∧ rest = [] := by
  rw [← isReply_iff_decode]
  constructor
  · intro hreply
    rcases h.unique hreply.framed with ⟨hreplies, hrest⟩
    exact ⟨(List.cons.inj hreplies).2, hrest⟩
  · rintro ⟨rfl, rfl⟩
    have hmessage := h.parts
    rw [List.flatten_singleton, List.append_nil] at hmessage
    rw [hmessage]
    exact h.whole first List.mem_cons_self

end Entry

/-- What a watcher logs of the messages of a session. Every message is replies
    one after another and a rest that starts with none, and with reply framing
    it is one reply. If there is no reply in front, all bytes are logged.
    Otherwise the first reply is, and the entry is the one that this reply
    would have alone; that is all of the message just if no other reply and no
    rest follows. With short reads, replies that are delivered together and do
    not fill their chunks are one message, so all of them but the first are
    hidden, although they are counted. -/
theorem log_of_run {hasRuntime : Bool} {config : SessionConfig} {session : Session}
    (hstart : Session.start hasRuntime config = .ok session) (stimuli : List Stimulus) :
    (∀ event ∈ Effect.events (session.run stimuli).2, ∀ message, event.content = .ok message →
      ∃ replies rest, Framed message replies rest ∧
        (config.framing = .resp → replies = [message] ∧ rest = []) ∧
        (replies = [] → Entry.ofEvent event =
          .raw event.session (event.origin.map Origin.purpose) message) ∧
        ∀ first hidden, replies = first :: hidden →
          (∃ value, Reply.decode first = .complete (value, first.length) ∧
            Entry.ofEvent event =
              .reply event.session (event.origin.map Origin.purpose) value ∧
            Entry.ofEvent event = Entry.ofEvent { event with content := .ok first }) ∧
          ((∃ value, Reply.decode message = .complete (value, message.length)) ↔
            hidden = [] ∧ rest = [])) ∧
    ∀ size first hidden, config.framing = .shortRead size →
      (session.run stimuli).1.phase = .connected → (session.run stimuli).1.framer.held = [] →
      (∀ reply ∈ first :: hidden, IsReply reply) →
      ¬ size ∣ (first :: hidden).flatten.length →
      ∃ event,
        Effect.events ((session.run stimuli).1.run
          ((Action.deliver (first :: hidden).flatten).stimuli size)).2 = [event] ∧
        event.content = .ok (first :: hidden).flatten ∧
        Entry.ofEvent event = Entry.ofEvent { event with content := .ok first } ∧
        (session.run stimuli).1.framer.repliesIn (first :: hidden).flatten =
          hidden.length + 1 := by
  refine ⟨fun event hevent message hcontent => ?_,
    fun size first hidden hmode hphase hheld hwhole hshort => ?_⟩
  · rcases exists_framed message with ⟨replies, rest, hframed⟩
    refine ⟨replies, rest, hframed, fun hmode => ?_, fun hnone => ?_, fun first hidden hfirst => ?_⟩
    · -- Under this framing every message is one reply, and there is only one
      -- way to cut it.
      have hreply := Session.isReply_of_resp hstart hmode (Session.mem_messages hevent hcontent)
      exact hframed.unique hreply.framed
    · rw [hnone] at hframed
      exact ofEvent_raw hcontent hframed
    · rw [hfirst] at hframed
      exact ⟨ofEvent_first hcontent hframed, isReply_iff hframed⟩
  · have hmode' := Session.mode_of_accepts hstart (Session.accepts_of_connected hphase)
    have hsize : 0 < size :=
      Nat.lt_of_lt_of_le Nat.zero_lt_two (Session.two_le_of_start hstart hmode)
    -- Nothing is held, so the next delivery is a message of its own.
    have hframer : (session.run stimuli).1.framer = .shortRead size [] := by
      rw [hmode] at hmode'
      rcases hstate : (session.run stimuli).1.framer with ⟨chunkSize, held⟩ | ⟨held, scanner⟩
      · rw [hstate] at hmode' hheld
        rw [Framer.mode, Framing.shortRead.injEq] at hmode'
        rw [Framer.held] at hheld
        rw [hmode', hheld]
      · rw [hstate] at hmode'
        exact absurd hmode' (by simp only [Framer.mode, reduceCtorEq, not_false_eq_true])
    have hframed := framed_of_whole hwhole
    rcases Session.events_deliver hphase hframer hsize hshort with ⟨event, hevents, hcontent⟩
    rw [List.nil_append] at hcontent
    rcases ofEvent_first hcontent hframed with ⟨_, _, _, hentry⟩
    refine ⟨event, hevents, hcontent, hentry, ?_⟩
    rw [hframer, Framer.repliesIn, Framer.mode]
    simp only [hframed.countReplies_eq, List.length_cons]
    omega

/-- Three replies. -/
def answers : List Bytes :=
  [Bytes.ofText "+OK\r\n", Bytes.ofText ":1\r\n", Bytes.ofText ":2\r\n"]

theorem isReply_answers : ∀ reply ∈ answers, IsReply reply := by
  simp only [answers, List.forall_mem_cons, List.not_mem_nil, false_implies, implies_true, and_true,
    IsReply]
  refine ⟨?_, ?_, ?_⟩ <;> cbv

theorem log_of_run_answers :
    (Session.listening.run [.begin, .dialed (.ok ())]).1.phase = .connected ∧
      (∀ reply ∈ answers, IsReply reply) ∧ ¬ 3 ∣ answers.flatten.length ∧
      ∃ event, Effect.events ((Session.listening.run [.begin, .dialed (.ok ())]).1.run
          ((Action.deliver answers.flatten).stimuli 3)).2 = [event] ∧
        Entry.ofEvent event =
          Entry.ofEvent { event with content := .ok (Bytes.ofText "+OK\r\n") } := by
  have hstart : Session.start true { framing := .shortRead 3 } = .ok Session.listening := by cbv
  have hphase : (Session.listening.run [.begin, .dialed (.ok ())]).1.phase = .connected := by cbv
  have hshort : ¬ 3 ∣ answers.flatten.length := by decide
  rcases (log_of_run hstart _).2 3 _ _ rfl hphase (by cbv) isReply_answers hshort with
    ⟨event, hevents, _, hentry, _⟩
  exact ⟨hphase, isReply_answers, hshort, event, hevents, hentry⟩

/-- Three replies that arrive together are one message, and the log has the
    first of them. -/
theorem log_hides :
    countReplies answers.flatten = 3 ∧
    Effect.contents (Session.listening.run ([.begin, .dialed (.ok ())] ++
      (Action.deliver answers.flatten).stimuli 3)).2 = [.ok answers.flatten] ∧
    (Effect.events (Session.listening.run ([.begin, .dialed (.ok ())] ++
      (Action.deliver answers.flatten).stimuli 3)).2).map
        (fun event => ((Entry.ofEvent event).field, (Entry.ofEvent event).value)) =
        [("reply", "OK")] :=
  ⟨(framed_of_whole isReply_answers).countReplies_eq, by cbv, by cbv⟩

end Watch

end RespBus
