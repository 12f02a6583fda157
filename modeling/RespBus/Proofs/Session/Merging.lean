import RespBus.Proofs.Session.Journal

/-!
# Merged Messages

Short-read framing knows nothing of replies. A message is whatever came since
the last read that was short, and if replies arrive together, or one of them
fills its chunks to the last byte, there are several replies in it. It is
counted afterwards and takes as many requests off the list as it has replies.
The next message then belongs to the request that its first reply answers, as
if every reply had come alone.

That the count is right rests on the peer, which sends whole replies at a time.
A delivery is read in pieces of the chunk size, and none but the last of them
can be short. So a short read ends a delivery, and what was held back until
then is whole deliveries, and with them whole replies, in exactly one way.

The invariant is `Merged`. What was received is the replies told of and what is
held back, and the requests that await a reply are those written without the
first of them, one for each reply told of. It says nothing of the replies held
back: more of them may come, and more requests be written, before they are told
of. By then the pacing has seen to it that there is a request for each.

## Main definitions

* `Session.EndsWhole`: A short read ends a reply.
* `Session.Answers`: Messages that are groups of replies, each with the origin
  of the request that its first reply answers.
* `Session.Merged`: The groups are answered, and the rest is held back.

## Theorems

* `Bytes.flatten_of_short_read`: A short read ends a delivery.
* `groups_unique`: Messages are groups of replies in one way only.
* `Session.Merged.quiet`, `Session.Merged.full`, `Session.Merged.short`: Without
  bytes that are read nothing is told; a chunk that is full is held back; a
  short one ends a group.
* `Session.merged_run`: A run keeps the invariant.
* `Session.groups_attributed`: Merging does not shift attribution.
-/

namespace RespBus

-- A piece that is short is the last of its delivery.
theorem Bytes.flatten_of_short_piece {size : Nat} {delivery chunk : Bytes}
    {earlier others : List Bytes} (h : pieces size delivery = earlier ++ [chunk] ++ others)
    (hshort : chunk.length < size) : chunk ≠ [] ∧ (earlier ++ [chunk]).flatten = delivery := by
  have hsize : 0 < size := by omega
  have hsplit := h
  rw [List.append_assoc, List.singleton_append] at hsplit
  rcases of_mem_pieces hsize hsplit with ⟨hne, hlast⟩
  rw [hlast hshort, List.append_nil] at h
  rw [← h, flatten_pieces hsize]
  exact ⟨hne, rfl⟩

/-- A read that comes short ends a delivery. It is not empty, and all that was
    read by then is whole deliveries. -/
theorem Bytes.flatten_of_short_read {size : Nat} (deliveries : List Bytes) :
    ∀ {earlier : List Bytes} {chunk : Bytes},
      earlier ++ [chunk] <+: deliveries.flatMap (pieces size) → chunk.length < size →
        chunk ≠ [] ∧ ∃ first, first <+: deliveries ∧
          (earlier ++ [chunk]).flatten = first.flatten := by
  induction deliveries with
  | nil =>
      intro earlier chunk hcut _
      have hnil := List.prefix_nil.1 hcut
      exact absurd hnil (List.append_ne_nil_of_right_ne_nil _ (List.cons_ne_nil _ _))
  | cons delivery deliveries ih =>
      intro earlier chunk hcut hshort
      have hsize : 0 < size := by omega
      have hends : ∀ others, pieces size delivery = earlier ++ [chunk] ++ others →
          chunk ≠ [] ∧ ∃ first, first <+: delivery :: deliveries ∧
            (earlier ++ [chunk]).flatten = first.flatten := by
        intro others hpieces
        rcases flatten_of_short_piece hpieces hshort with ⟨hne, hflatten⟩
        exact ⟨hne, [delivery], ⟨deliveries, rfl⟩, by rw [hflatten, List.flatten_singleton]⟩
      -- The read is within the first delivery, or it ends it, or it is after it.
      rcases hcut with ⟨later, hcut⟩
      rw [List.flatMap_cons] at hcut
      rcases List.append_eq_append_iff.1 hcut with ⟨others, hpieces, _⟩ | ⟨others, hread, hrest⟩
      · exact hends others hpieces
      · rcases List.eq_nil_or_concat others with rfl | ⟨front, last, rfl⟩
        · rw [List.append_nil] at hread
          exact hends [] (by rw [hread, List.append_nil])
        · rw [List.concat_eq_append, ← List.append_assoc] at hread
          rcases List.append_inj' hread rfl with ⟨rfl, hchunk⟩
          rw [List.concat_eq_append, ← hchunk] at hrest
          rcases ih ⟨later, hrest.symm⟩ hshort with ⟨hne, first, hfirst, hflatten⟩
          refine ⟨hne, delivery :: first, List.cons_prefix_cons.2 ⟨rfl, hfirst⟩, ?_⟩
          rw [List.append_assoc, List.flatten_append, flatten_pieces hsize, hflatten,
            List.flatten_cons]

/-- Deliveries of whole replies are whole replies put together. -/
theorem framed_flatten {deliveries : List Bytes}
    (h : ∀ delivery ∈ deliveries, ∃ replies, Framed delivery replies []) :
    ∃ replies, Framed deliveries.flatten replies [] := by
  induction deliveries with
  | nil => exact ⟨[], framed_nil (not_complete_of_incomplete frameLength_nil)⟩
  | cons delivery deliveries ih =>
      rcases List.forall_mem_cons.1 h with ⟨⟨replies, hfirst⟩, hothers⟩
      rcases ih hothers with ⟨others, hlater⟩
      exact ⟨replies ++ others, hfirst.append hlater⟩

/-- Messages are groups of replies in one way only. -/
theorem groups_unique {groups : List (List Bytes)} :
    ∀ {others : List (List Bytes)}, (∀ group ∈ groups, ∀ reply ∈ group, IsReply reply) →
      (∀ group ∈ others, ∀ reply ∈ group, IsReply reply) →
      groups.map List.flatten = others.map List.flatten → groups = others := by
  induction groups with
  | nil =>
      intro others _ _ heq
      exact (List.map_eq_nil_iff.1 heq.symm).symm
  | cons group groups ih =>
      intro others hwhole hothers heq
      rcases others with _ | ⟨other, others⟩
      · exact absurd heq (List.cons_ne_nil _ _)
      · rw [List.map_cons, List.map_cons, List.cons.injEq] at heq
        rcases List.forall_mem_cons.1 hwhole with ⟨hgroup, hlater⟩
        rcases List.forall_mem_cons.1 hothers with ⟨hother, hrest⟩
        -- The first messages are the same bytes, and these are cut into replies
        -- in one way only.
        have hfirst := framed_of_whole hgroup
        rw [heq.1] at hfirst
        rw [(hfirst.unique (framed_of_whole hother)).1, ih hlater hrest heq.2]

/-- A message that is a group of replies counts as that many. -/
theorem Framer.repliesIn_group {chunkSize : Nat} {held frame : Bytes} {group : List Bytes}
    (h : Framed frame group []) (hne : group ≠ []) :
    repliesIn (.shortRead chunkSize held) frame = group.length := by
  simp only [repliesIn, mode, h.countReplies_eq]
  exact Nat.max_eq_left (List.length_pos_of_ne_nil hne)

namespace Session

/-- A short read ends a reply: it is not empty, and all that was read by then
    is whole replies. -/
def EndsWhole (chunkSize : Nat) (received : List Bytes) : Prop :=
  ∀ earlier chunk, earlier ++ [chunk] <+: received → chunk.length < chunkSize →
    chunk ≠ [] ∧ ∃ replies, Framed (earlier ++ [chunk]).flatten replies []

/-- What was read earlier also ends whole wherever it ends short. -/
theorem EndsWhole.of_earlier {chunkSize : Nat} {first received : List Bytes}
    (h : EndsWhole chunkSize received) (hfirst : first <+: received) : EndsWhole chunkSize first :=
  fun earlier chunk hfront => h earlier chunk (hfront.trans hfirst)

/-- If every delivery is made of whole replies, what has been read ends whole
    wherever a read was short. -/
theorem endsWhole_of_deliveries {chunkSize : Nat} {deliveries received : List Bytes}
    (hwhole : ∀ delivery ∈ deliveries, ∃ replies, Framed delivery replies [])
    (hcut : received <+: deliveries.flatMap (Bytes.pieces chunkSize)) :
    EndsWhole chunkSize received := by
  intro earlier chunk hfront hshort
  -- A short read is the end of a delivery, so the bytes up to it are whole
  -- deliveries.
  rcases Bytes.flatten_of_short_read deliveries (hfront.trans hcut) hshort with
    ⟨hne, first, hfirst, hflatten⟩
  rw [hflatten]
  exact ⟨hne, framed_flatten fun delivery hmem => hwhole delivery (hfirst.subset hmem)⟩

/-- Each message is a group of replies put together, one at least, and has the
    origin of the request that its first reply answers. That is the one with
    as many requests before it as there are replies in earlier groups. -/
structure Answers (written : List Request) (messages : List (Bytes × Option Origin))
    (groups : List (List Bytes)) : Prop where
  whole : ∀ group ∈ groups, group ≠ [] ∧ ∀ reply ∈ group, IsReply reply
  frames : messages.map Prod.fst = groups.map List.flatten
  origins : ∀ (i : Nat) (message : Bytes × Option Origin), messages[i]? = some message →
    ∃ request : Request, written[(groups.take i).flatten.length]? = some request ∧
      message.2 = some request.origin

namespace Answers

variable {written : List Request} {messages : List (Bytes × Option Origin)}
  {groups : List (List Bytes)}

/-- There is one group for each message. -/
theorem length_eq (h : Answers written messages groups) : messages.length = groups.length := by
  have hlength := congrArg List.length h.frames
  rw [List.length_map, List.length_map] at hlength
  exact hlength

/-- The groups hold whole replies and nothing else. -/
theorem framed (h : Answers written messages groups) :
    Framed groups.flatten.flatten groups.flatten [] := by
  refine framed_of_whole fun reply hreply => ?_
  rcases List.mem_flatten.1 hreply with ⟨group, hgroup, hmem⟩
  exact (h.whole group hgroup).2 reply hmem

/-- What is written later changes nothing for the messages there are. -/
theorem written_append (h : Answers written messages groups) (later : List Request) :
    Answers (written ++ later) messages groups where
  whole := h.whole
  frames := h.frames
  origins := by
    intro i message hmessage
    rcases h.origins i message hmessage with ⟨request, hrequest, horigin⟩
    refine ⟨request, ?_, horigin⟩
    rw [List.getElem?_append_left (List.getElem?_eq_some_iff.1 hrequest).1, hrequest]

/-- One more group goes to the first request that is not answered. -/
theorem concat (h : Answers written messages groups) {group : List Bytes} {request : Request}
    (hne : group ≠ []) (hwhole : ∀ reply ∈ group, IsReply reply)
    (hrequest : written[groups.flatten.length]? = some request) :
    Answers written (messages ++ [(group.flatten, some request.origin)])
      (groups ++ [group]) where
  whole := by
    refine List.forall_mem_append.2 ⟨h.whole, ?_⟩
    exact List.forall_mem_singleton.2 ⟨hne, hwhole⟩
  frames := by rw [List.map_append, List.map_append, h.frames]; rfl
  origins := by
    intro i message hmessage
    have hlength := h.length_eq
    -- The messages before the new one start at the replies they started at.
    rcases Nat.lt_or_ge i messages.length with hlt | hge
    · rw [List.getElem?_append_left hlt] at hmessage
      rw [List.take_append_of_le_length (by omega)]
      exact h.origins i message hmessage
    · rw [List.getElem?_append_right hge, List.getElem?_singleton] at hmessage
      have hi : i = groups.length := by
        by_contra hother
        rw [if_neg (by omega)] at hmessage
        exact absurd hmessage (by simp only [reduceCtorEq, not_false_eq_true])
      rw [hi, if_pos (by omega), Option.some.injEq] at hmessage
      rw [hi, List.take_left]
      exact ⟨request, hrequest, by rw [← hmessage]⟩

/-- The first messages are the first groups. -/
theorem take_eq {earlier : List Request} {later : List (Bytes × Option Origin)}
    {first : List (List Bytes)} (h : Answers written (messages ++ later) groups)
    (hfirst : Answers earlier messages first) : groups.take messages.length = first := by
  refine groups_unique (fun group hgroup => (h.whole group (List.mem_of_mem_take hgroup)).2)
    (fun group hgroup => (hfirst.whole group hgroup).2) ?_
  rw [List.map_take, ← h.frames, ← hfirst.frames, List.map_append, ← List.length_map Prod.fst,
    List.take_left]

end Answers

/-- What was received is the groups told of and what is held back, which is
    nothing after a short read; and the requests that await a reply are those
    that the groups did not answer. -/
structure Merged (after : Session) (chunkSize : Nat) (received : List Bytes)
    (written : List Request) (messages : List (Bytes × Option Origin))
    (groups : List (List Bytes)) (held : Bytes) : Prop where
  parts : received.flatten = groups.flatten.flatten ++ held
  told : ∀ chunk, received.getLast? = some chunk → chunk.length < chunkSize → held = []
  answers : Answers written messages groups
  enough : groups.flatten.length ≤ written.length
  awaiting : after.awaiting = (written.map Request.origin).drop groups.flatten.length
  runs : after.accepts = true → after.framer = .shortRead chunkSize held

/-- A session starts with nothing received, written or told. -/
theorem merged_of_start {hasRuntime : Bool} {config : SessionConfig} {session : Session}
    {chunkSize : Nat} (hstart : start hasRuntime config = .ok session)
    (hmode : config.framing = .shortRead chunkSize) : session.Merged chunkSize [] [] [] [] [] := by
  rcases eq_of_start hstart with ⟨label, address, rfl⟩
  refine ⟨rfl, fun _ _ _ => rfl, ⟨?_, rfl, ?_⟩, Nat.le_refl 0, rfl, fun _ => ?_⟩
  · intro group hgroup
    exact absurd hgroup List.not_mem_nil
  · intro i message hmessage
    exact absurd (List.getElem?_nil.symm.trans hmessage)
      (by simp only [reduceCtorEq, not_false_eq_true])
  · rw [hmode]
    rfl

namespace Merged

variable {session : Session} {chunkSize : Nat} {received : List Bytes} {held : Bytes}
  {written : List Request} {messages : List (Bytes × Option Origin)} {groups : List (List Bytes)}

/-- Without bytes that are read nothing is told, and a request that was written
    awaits a reply behind the others. -/
theorem quiet (h : session.Merged chunkSize received written messages groups held)
    {stimulus : Stimulus} (hnone : session.received? stimulus = none) :
    (session.step stimulus).1.Merged chunkSize received
      (written ++ (session.written? stimulus).toList)
      (messages ++ Effect.messages (session.step stimulus).2) groups held := by
  rcases quiet_step hnone with ⟨hmessages, hawaiting, hruns⟩
  refine ⟨h.parts, h.told, ?_, ?_, ?_, fun hlater => ?_⟩
  · rw [hmessages, List.append_nil]
    exact h.answers.written_append _
  · rw [List.length_append]
    exact Nat.le_add_right_of_le h.enough
  · rw [hawaiting, h.awaiting, List.map_append,
      List.drop_append_of_le_length (by rw [List.length_map]; exact h.enough)]
  · rcases hruns hlater with ⟨haccepts, hframer⟩
    rw [hframer, h.runs haccepts]

/-- A chunk that is full is held back. -/
theorem full (h : session.Merged chunkSize received written messages groups held)
    (hphase : session.phase = .connected) {chunk : Bytes} (hfull : ¬chunk.length < chunkSize) :
    (session.step (.read chunk)).1.Merged chunkSize (received ++ [chunk]) written
      (messages ++ Effect.messages (session.step (.read chunk)).2) groups (held ++ chunk) := by
  rw [step_of_connected hphase, stepConnected, receive, h.runs (accepts_of_connected hphase),
    Framer.push, if_neg hfull]
  refine ⟨?_, fun last hlast hshort => ?_, ?_, h.enough, h.awaiting, fun _ => rfl⟩
  · rw [List.flatten_append, List.flatten_singleton, h.parts, List.append_assoc]
  · rw [List.getLast?_concat, Option.some.injEq] at hlast
    rw [hlast] at hfull
    exact absurd hshort hfull
  · exact (List.append_nil messages).symm ▸ h.answers

/-- Where all that was received is whole replies, so is what is held back. The
    bytes can be seen as replies in one way only, and the groups have taken the
    first of them. -/
theorem exists_group (h : session.Merged chunkSize received written messages groups held)
    {chunk : Bytes} {replies : List Bytes}
    (hwhole : Framed (received ++ [chunk]).flatten replies []) :
    ∃ group, replies = groups.flatten ++ group ∧ Framed (held ++ chunk) group [] := by
  rcases exists_framed (held ++ chunk) with ⟨group, rest, hgroup⟩
  have hall : Framed (received ++ [chunk]).flatten (groups.flatten ++ group) rest := by
    rw [List.flatten_append, List.flatten_singleton, h.parts, List.append_assoc]
    exact h.answers.framed.append hgroup
  rcases hwhole.unique hall with ⟨hreplies, rfl⟩
  exact ⟨group, hreplies, hgroup⟩

/-- A short read hands out what is held back. That is a group of replies, and
    it answers as many requests. -/
theorem short (h : session.Merged chunkSize received written messages groups held)
    (hphase : session.phase = .connected) {chunk : Bytes} (hshort : chunk.length < chunkSize)
    (hne : chunk ≠ []) {replies : List Bytes}
    (hwhole : Framed (received ++ [chunk]).flatten replies [])
    (hpaced : countReplies (received ++ [chunk]).flatten ≤ written.length) :
    ∃ group, (session.step (.read chunk)).1.Merged chunkSize (received ++ [chunk]) written
      (messages ++ Effect.messages (session.step (.read chunk)).2) (groups ++ [group]) [] := by
  rcases h.exists_group hwhole with ⟨group, rfl, hgroup⟩
  have hframe : held ++ chunk = group.flatten := by rw [hgroup.parts, List.append_nil]
  have hsome : group ≠ [] := by
    rintro rfl
    exact hne (List.append_eq_nil_iff.1 hframe).2
  have hflatten : (groups ++ [group]).flatten = groups.flatten ++ group := by
    rw [List.flatten_append, List.flatten_singleton]
  rw [hwhole.countReplies_eq, List.length_append] at hpaced
  -- The pacing leaves a request for the first reply.
  rcases hrequest : written[groups.flatten.length]? with _ | request
  · have hpos := List.length_pos_of_ne_nil hsome
    rw [List.getElem?_eq_none_iff] at hrequest
    omega
  have horigin : session.awaiting.head? = some request.origin := by
    rw [h.awaiting, List.head?_drop, List.getElem?_map, hrequest]
    rfl
  rw [hframe] at hgroup
  have hreplies : Framer.repliesIn (.shortRead chunkSize []) group.flatten = group.length :=
    Framer.repliesIn_group hgroup hsome
  rw [step_of_connected hphase, stepConnected, receive, h.runs (accepts_of_connected hphase),
    Framer.push, if_pos hshort]
  simp only [creditAll, credit_eq, hframe, hreplies, horigin, Option.some_or]
  refine ⟨group, ?_, fun _ _ _ => rfl, h.answers.concat hsome hgroup.whole hrequest, ?_, ?_,
    fun _ => rfl⟩
  · rw [hwhole.parts, hflatten]
  · rw [hflatten, List.length_append]
    exact hpaced
  · rw [h.awaiting, List.drop_drop, hflatten, List.length_append]

end Merged

/-- A run keeps the invariant. The induction is on the stimuli, the last of
    them first, because what a read ends is what came before it. -/
theorem merged_run {hasRuntime : Bool} {config : SessionConfig} {session : Session}
    {chunkSize : Nat} (hstart : start hasRuntime config = .ok session)
    (hmode : config.framing = .shortRead chunkSize) (stimuli : List Stimulus)
    (hwhole : EndsWhole chunkSize (session.received stimuli)) (hpaced : session.Paced stimuli) :
    ∃ groups held, (session.run stimuli).1.Merged chunkSize (session.received stimuli)
      (session.written stimuli) (Effect.messages (session.run stimuli).2) groups held := by
  -- The induction takes the last stimulus off, since what a run has been given
  -- is judged at its end.
  induction stimuli using List.reverseRecOn with
  | nil => exact ⟨[], [], merged_of_start hstart hmode⟩
  | append_singleton stimuli stimulus ih =>
      rw [run_concat]
      simp only [Effect.messages_append]
      rcases concat_cases session stimuli stimulus with
        ⟨hnone, hreceived⟩ | ⟨chunk, rfl, hphase, hreceived, hwritten⟩
      · rw [hreceived] at hwhole
        rcases ih hwhole hpaced.of_append with ⟨groups, held, h⟩
        have hwritten := along_concat written? session stimuli stimulus
        rw [written, hwritten, hreceived]
        exact ⟨groups, held, h.quiet hnone⟩
      · have hbound := hpaced.last
        rw [hreceived] at hwhole hbound
        rcases ih (hwhole.of_earlier (List.prefix_append _ _)) hpaced.of_append with
          ⟨groups, held, h⟩
        rw [hreceived, hwritten]
        by_cases hshort : chunk.length < chunkSize
        · rcases hwhole _ chunk List.prefix_rfl hshort with ⟨hne, replies, hreplies⟩
          rcases h.short hphase hshort hne hreplies hbound with ⟨group, hgroup⟩
          exact ⟨groups ++ [group], [], hgroup⟩
        · -- A chunk that is full may not be the last of its reply, and is held
          -- back.
          exact ⟨groups, held ++ chunk, h.full hphase hshort⟩

/-- Merging does not shift attribution. A session under short-read framing is
    started, requests are sent to it in any order with whole replies delivered
    to it, any number at a time, that are read in pieces of the chunk size,
    and its peer is paced. Then the messages it reports are groups of the
    replies delivered, in order, and each has the origin of the request that
    stands at the place of its first reply among those written. After a short
    read no reply is held back. At any time, and so after every message, the
    requests that await a reply are those written without the ones answered by
    the groups so far. -/
theorem groups_attributed {hasRuntime : Bool} {config : SessionConfig} {session : Session}
    {chunkSize : Nat} (hstart : start hasRuntime config = .ok session)
    (hmode : config.framing = .shortRead chunkSize) {deliveries : List Bytes}
    (hwhole : ∀ delivery ∈ deliveries, ∃ replies, Framed delivery replies [])
    {stimuli : List Stimulus}
    (hcut : session.received stimuli <+: deliveries.flatMap (Bytes.pieces chunkSize))
    (hpaced : session.Paced stimuli) :
    ∃ groups held, (session.received stimuli).flatten = groups.flatten.flatten ++ held ∧
      (∀ chunk, (session.received stimuli).getLast? = some chunk → chunk.length < chunkSize →
        held = []) ∧
      Answers (session.written stimuli) (Effect.messages (session.run stimuli).2) groups ∧
      ∀ first later, stimuli = first ++ later →
        (session.run first).1.awaiting = ((session.written first).map Request.origin).drop
          (groups.take (Effect.messages (session.run first).2).length).flatten.length := by
  have hends := endsWhole_of_deliveries hwhole hcut
  rcases merged_run hstart hmode stimuli hends hpaced with ⟨groups, held, h⟩
  refine ⟨groups, held, h.parts, h.told, h.answers, ?_⟩
  rintro first later rfl
  -- What a run has received up to some point ends whole as well, so the
  -- invariant holds there too.
  have hreceived : session.received (first ++ later) = session.received first ++ _ :=
    along_append received? _ _ session
  rw [hreceived] at hends
  rcases merged_run hstart hmode first (hends.of_earlier (List.prefix_append _ _))
    hpaced.of_append with ⟨parts, rest, hfirst⟩
  have hanswers := h.answers
  rw [run_append] at hanswers
  simp only [Effect.messages_append] at hanswers
  rw [hanswers.take_eq hfirst.answers]
  exact hfirst.awaiting

/-- Replies that arrive together, read three bytes at a time: two that fill
    their chunks, and one and one that do not. -/
def arrivals : List (List Bytes) :=
  [[okReply, Bytes.ofText ":1\r\n"], [Bytes.ofText ":2\r\n"], [okReply]]

/-- A request to take the messages of an entity. -/
def errand (entity : String) : Request :=
  ⟨.retrieveMessage, Bytes.ofText "LPOP", some entity⟩

/-- The third request is sent while the replies to the first two are held
    back. -/
def merging : List Stimulus :=
  [.begin, .dialed (.ok ()), .send (errand "a"), .wrote (.ok ()), .send (errand "b"),
    .wrote (.ok ()), .read (Bytes.ofText "+OK"), .read (Bytes.ofText "\r\n:"),
    .read (Bytes.ofText "1\r\n"), .send (errand "c"), .wrote (.ok ()),
    .read (Bytes.ofText ":2\r"), .read (Bytes.ofText "\n"), .send (errand "d"),
    .wrote (.ok ()), .read (Bytes.ofText "+OK"), .read (Bytes.ofText "\r\n")]

/-- No read of the run is ahead of the writes. -/
theorem paced_merging : listening.Paced merging := by
  intro n chunk hread
  have hbound : n < 17 := (List.getElem?_eq_some_iff.1 hread).1
  interval_cases n
  all_goals decide +kernel

/-- Each arrival is made of whole replies. -/
theorem framed_arrivals :
    ∀ arrival ∈ arrivals.map List.flatten, ∃ replies, Framed arrival replies [] := by
  have hwhole : ∀ replies ∈ arrivals, ∀ reply ∈ replies, IsReply reply := by
    simp only [arrivals, List.forall_mem_cons, List.not_mem_nil, false_implies, implies_true,
      and_true, IsReply]
    refine ⟨⟨?_, ?_⟩, ?_, ?_⟩ <;> cbv
  intro arrival hmem
  rcases List.mem_map.1 hmem with ⟨replies, hreplies, rfl⟩
  exact ⟨replies, framed_of_whole (hwhole replies hreplies)⟩

/-- Three replies come out as one message, and the fourth belongs to the fourth
    request. -/
theorem groups_attributed_merging :
    Effect.messages (listening.run merging).2 =
        [(okReply ++ Bytes.ofText ":1\r\n:2\r\n", some (errand "a").origin),
          (okReply, some (errand "d").origin)] ∧
      ∃ groups, (listening.received merging).flatten = groups.flatten.flatten ∧
        Answers (listening.written merging) (Effect.messages (listening.run merging).2) groups ∧
        ∀ first later, merging = first ++ later →
          (listening.run first).1.awaiting = ((listening.written first).map Request.origin).drop
            (groups.take (Effect.messages (listening.run first).2).length).flatten.length := by
  have hstart : start true { framing := .shortRead 3 } = .ok listening := by cbv
  have hcut : listening.received merging <+:
      (arrivals.map List.flatten).flatMap (Bytes.pieces 3) := ⟨[], by decide +kernel⟩
  have hlast : (listening.received merging).getLast? = some (Bytes.ofText "\r\n") := by
    decide +kernel
  rcases groups_attributed hstart rfl framed_arrivals hcut paced_merging with
    ⟨groups, held, hparts, htold, hanswers, hawaiting⟩
  rw [htold _ hlast (by decide), List.append_nil] at hparts
  exact ⟨by decide +kernel, groups, hparts, hanswers, hawaiting⟩

end Session

end RespBus
