import RespBus.Proofs.Framer.Streams
import RespBus.Session.Run

/-!
# Replies Before a Fault

The handler of a session is told of every message, and of a fault in the
stream once, after which nothing is said any more. As long as the session
runs, the only stimulus that makes it speak is a read. So what it says in a
run is what its framer hands out over the reads of that run, with the fault at
the end if one of the reads fails. Requests that are sent in the meantime and
writes that come to their end make no difference.

A reply that comes complete is not always handed out. `FailingRead` has the
reason: a read in which a fault comes to light hands out nothing, so the
replies that the same read has completed are lost. All replies before a fault
reach the handler if and only if some read ends after the last of them and
before the fault can be seen. Whether that is so is up to the connection,
which may put a reply and faulty bytes into one read.

## Main definitions

* `Effect.contents`: What the handler is told, without names and origins.
* `Effect.messages`: The messages the handler is told of, with origins.
* `Stimulus.reads`: The reads among stimuli.
* `Session.Silent`: An answer that says nothing and reads nothing.
* `Session.Stopping`: An answer that stops the session.
* `Session.Uninterrupted`: Nothing but a read stops the session in a run.
* `Session.told`: What reads make the session say.
* `Session.Opens`: What connects a session before it reads.

## Theorems

* `Session.stopping_or_silent_step`: Only reads are told of.
* `Session.run_closed`: A session that has stopped says nothing.
* `Session.contents_run`: A run says what the framer hands out.
* `Session.Opens.contents_single_read`: One read with a fault in it says only
  the fault.
* `Session.told_before_fault`: Which replies are told of before a fault, and
  when these are all.
* `Session.reply_lost_with_fault`: A complete reply that is never told of.
-/

namespace RespBus

/-- What the handler is told, without names and origins. -/
def Effect.contents (effects : List Effect) : List (Except SessionError Bytes) :=
  (events effects).map Event.content

/-- The messages the handler is told of, each with the origin it is attributed
    to. -/
def Effect.messages (effects : List Effect) : List (Bytes × Option Origin) :=
  (events effects).filterMap fun event =>
    match event.content with
    | .ok frame => some (frame, event.origin)
    | .error _ => none

theorem Effect.contents_append (first second : List Effect) :
    contents (first ++ second) = contents first ++ contents second := by
  rw [contents, events_append, List.map_append]
  rfl

namespace Stimulus

/-- The bytes that a stimulus brings. -/
def chunk? : Stimulus → Option Bytes
  | read chunk => some chunk
  | _ => none

/-- The reads among stimuli, in order. -/
def reads (stimuli : List Stimulus) : List Bytes :=
  stimuli.filterMap chunk?

theorem chunk_read_ne_none (chunk : Bytes) : (read chunk).chunk? ≠ none := by
  simp only [chunk?, ne_eq, reduceCtorEq, not_false_eq_true]

/-- Only a read carries bytes. -/
theorem eq_read_of_chunk {stimulus : Stimulus} {chunk : Bytes}
    (h : stimulus.chunk? = some chunk) : stimulus = read chunk := by
  cases stimulus with
  | read bytes =>
      simp only [chunk?, Option.some.injEq] at h
      rw [h]
  | _ => exact absurd h (by simp only [chunk?, reduceCtorEq, not_false_eq_true])

end Stimulus

namespace Session

/-- Nothing is said, and the bytes held back stay as they were. -/
def Silent (session : Session) (answer : Session × List Effect) : Prop :=
  answer.1.framer = session.framer ∧ Effect.contents answer.2 = []

/-- The session stops, and reports no message as it does. -/
def Stopping (answer : Session × List Effect) : Prop :=
  answer.1.phase = .closed ∧ Effect.messages answer.2 = []

theorem silent_startWrite (session : Session) : session.Silent session.startWrite := by
  rw [startWrite]
  rcases session.queue.start with ⟨_ | payload, queue⟩
  · exact ⟨rfl, rfl⟩
  · exact ⟨rfl, rfl⟩

theorem silent_proceed (session : Session) : session.Silent session.proceed := by
  unfold proceed
  by_cases hdone : session.held = false ∧ session.queue.pending = []
  · rw [if_pos hdone]
    exact ⟨rfl, rfl⟩
  · rw [if_neg hdone]
    exact silent_startWrite session

/-- A session without a connection says nothing. -/
theorem silent_stepWaiting (session : Session) (stimulus : Stimulus) :
    session.Silent (session.stepWaiting stimulus) := by
  cases stimulus with
  | release =>
      rw [stepWaiting]
      by_cases hempty : session.queue.pending = []
      · simp only [if_pos hempty]
        exact ⟨rfl, rfl⟩
      · simp only [if_neg hempty]
        exact ⟨rfl, rfl⟩
  | _ => exact ⟨rfl, rfl⟩

/-- A connected session that reads nothing stops or says nothing. -/
theorem stopping_or_silent_stepConnected {session : Session} {stimulus : Stimulus}
    (hnone : stimulus.chunk? = none) :
    Stopping (session.stepConnected stimulus) ∨
      session.Silent (session.stepConnected stimulus) := by
  cases stimulus with
  | send request =>
      exact Or.inr (silent_startWrite { session with queue := session.queue.enqueue request })
  | wrote outcome =>
      cases outcome with
      | ok done =>
          rw [stepConnected]
          rcases session.queue.complete with ⟨_ | request, queue⟩
          · exact Or.inr ⟨rfl, rfl⟩
          · exact Or.inr (silent_proceed ({ session with queue }.record request))
      | error loss =>
          rw [stepConnected]
          rcases session.queue.complete with ⟨_ | request, queue⟩
          · exact Or.inr ⟨rfl, rfl⟩
          · -- A write that failed stops the session.
            exact Or.inl ⟨rfl, rfl⟩
  | read chunk => exact absurd hnone (Stimulus.chunk_read_ne_none chunk)
  | lost loss => exact Or.inl ⟨rfl, rfl⟩
  | release => exact Or.inr (silent_proceed { session with held := false })
  | _ => exact Or.inr ⟨rfl, rfl⟩

-- Only reads are told of. Whatever else happens to a session either stops it
-- or says nothing, in every phase.
theorem stopping_or_silent_step (session : Session) {stimulus : Stimulus}
    (hnone : stimulus.chunk? = none) :
    Stopping (session.step stimulus) ∨ session.Silent (session.step stimulus) := by
  unfold step
  split
  · exact Or.inr ⟨rfl, rfl⟩
  · exact Or.inr (silent_stepWaiting session _)
  · -- An answer to the dial that is a failure stops the session.
    rename_i outcome hphase
    cases outcome with
    | ok done => exact Or.inr (silent_proceed { session with phase := .connected })
    | error failure => exact Or.inl ⟨rfl, rfl⟩
  · exact Or.inr (silent_stepWaiting session _)
  · exact stopping_or_silent_stepConnected hnone
  · exact Or.inr ⟨rfl, rfl⟩
  · exact Or.inr ⟨rfl, rfl⟩

/-- Nothing wakes a closed session. -/
theorem run_closed {session : Session} (h : session.phase = .closed) (stimuli : List Stimulus) :
    session.run stimuli = (session, []) := by
  induction stimuli with
  | nil => rfl
  | cons stimulus stimuli ih =>
      have hstep : session.step stimulus = (session, []) := by
        cases stimulus <;> (unfold step; rw [h])
      rw [run, hstep]
      simp only [ih, List.append_nil]

-- Stimuli without a read that leave a session connected have said nothing.
theorem silent_run {session : Session} {stimuli : List Stimulus}
    (hnone : Stimulus.reads stimuli = []) (h : (session.run stimuli).1.phase = .connected) :
    session.Silent (session.run stimuli) := by
  induction stimuli generalizing session with
  | nil => exact ⟨rfl, rfl⟩
  | cons stimulus stimuli ih =>
      have hchunks := List.filterMap_eq_nil_iff.1 hnone
      have hothers : Stimulus.reads stimuli = [] :=
        List.filterMap_eq_nil_iff.2 fun other hother =>
          hchunks other (List.mem_cons_of_mem _ hother)
      rw [run] at h ⊢
      simp only [] at h
      rcases stopping_or_silent_step session (hchunks stimulus List.mem_cons_self) with
        ⟨hclosed, _⟩ | ⟨hframer, hcontents⟩
      · -- A session that stops does not end connected.
        rw [run_closed hclosed, hclosed] at h
        exact absurd h (by simp only [reduceCtorEq, not_false_eq_true])
      · rcases ih hothers h with ⟨hlast, hlater⟩
        refine ⟨hlast.trans hframer, ?_⟩
        rw [Effect.contents_append, hcontents, hlater]
        rfl

/-- A session that has been started has a valid configuration, and has not
    begun to dial. -/
theorem valid_of_start {hasRuntime : Bool} {config : SessionConfig} {session : Session}
    (h : start hasRuntime config = .ok session) :
    config.validate = .ok () ∧ session =
      { label := config.label, address := config.address, framer := .start config.framing } := by
  unfold start at h
  rcases hvalid : config.validate with setting | done
  · rw [hvalid] at h
    exact absurd h (by simp only [reduceCtorEq, not_false_eq_true])
  · rw [hvalid] at h
    -- The three checks are made in this order, and a start has passed all of
    -- them.
    by_cases hruns : hasRuntime = true
    · unfold Framer.create at h
      rcases hreserve : config.framing.reserve with cause | reserved
      · simp only [if_pos hruns, hreserve, reduceCtorEq] at h
      · simp only [if_pos hruns, hreserve, Except.ok.injEq] at h
        exact ⟨rfl, h.symm⟩
    · simp only [if_neg hruns] at h
      exact absurd h (by simp only [reduceCtorEq, not_false_eq_true])

/-- A started session is a new one, with a framer as its configuration says. -/
theorem eq_of_start {hasRuntime : Bool} {config : SessionConfig} {session : Session}
    (h : start hasRuntime config = .ok session) :
    ∃ label address, session = { label, address, framer := .start config.framing } :=
  ⟨_, _, (valid_of_start h).2⟩

theorem framer_start {hasRuntime : Bool} {config : SessionConfig} {session : Session}
    (h : start hasRuntime config = .ok session) : session.framer = .start config.framing := by
  rw [(valid_of_start h).2]

/-- Messages are told of in order, and neither the framer nor the phase sees it. -/
theorem contents_creditAll (session : Session) (frames : List Bytes) :
    Effect.contents (session.creditAll frames).2 = frames.map .ok ∧
      (session.creditAll frames).1.framer = session.framer ∧
      (session.creditAll frames).1.phase = session.phase := by
  induction frames generalizing session with
  | nil => exact ⟨rfl, rfl, rfl⟩
  | cons frame frames ih =>
      rcases ih (session.credit frame).1 with ⟨hcontents, hframer, hphase⟩
      rw [creditAll]
      refine ⟨?_, hframer, hphase⟩
      exact congrArg (List.cons (.ok frame)) hcontents

/-- Nothing but a read stops the session in a run. -/
def Uninterrupted (session : Session) : List Stimulus → Prop
  | [] => True
  | stimulus :: stimuli =>
    (session.phase = .connected → stimulus.chunk? = none →
        (session.step stimulus).1.phase = .connected) ∧
      (session.step stimulus).1.Uninterrupted stimuli

/-- Nothing interrupts a run of reads only. -/
theorem uninterrupted_reads (session : Session) (chunks : List Bytes) :
    session.Uninterrupted (chunks.map .read) := by
  induction chunks generalizing session with
  | nil => trivial
  | cons chunk chunks ih =>
      refine ⟨fun _ hnone => ?_, ih _⟩
      exact absurd hnone (Stimulus.chunk_read_ne_none chunk)

/-- What reads make a session say: the messages, and the fault if one of them
    fails. -/
def told (outcome : List Bytes × Except Fault Framer) : List (Except SessionError Bytes) :=
  outcome.1.map .ok ++
    match outcome.2 with
    | .ok _ => []
    | .error fault => [.error (.framing fault)]

/-- A run says what the framer hands out over its reads. The induction is on
    the stimuli, and the session stays connected until a read fails. -/
theorem contents_run {session : Session} {stimuli : List Stimulus}
    (h : session.phase = .connected) (hruns : session.Uninterrupted stimuli) :
    Effect.contents (session.run stimuli).2 =
      told (session.framer.pushAll (Stimulus.reads stimuli)) := by
  induction stimuli generalizing session with
  | nil => rfl
  | cons stimulus stimuli ih =>
      rcases hruns with ⟨hstays, hothers⟩
      have hstep : session.step stimulus = session.stepConnected stimulus := by
        cases stimulus <;> (unfold step; rw [h])
      rw [run]
      simp only [Effect.contents_append]
      rcases hchunk : stimulus.chunk? with _ | chunk
      · have hnext := hstays h hchunk
        rw [ih hnext hothers, Stimulus.reads, Stimulus.reads, List.filterMap_cons_none hchunk]
        rcases stopping_or_silent_step session hchunk with ⟨hclosed, _⟩ | ⟨hframer, hcontents⟩
        · rw [hnext] at hclosed
          exact absurd hclosed (by simp only [reduceCtorEq, not_false_eq_true])
        · rw [hcontents, hframer]
          rfl
      · -- A read is what the framer answers to its bytes.
        have hread := Stimulus.eq_read_of_chunk hchunk
        rw [Stimulus.reads, List.filterMap_cons_some hchunk, Framer.pushAll]
        rw [hread, stepConnected] at hstep
        rw [hread, hstep] at hothers ⊢
        unfold receive at hothers ⊢
        rcases hpush : session.framer.push chunk with ⟨fault | frames, next⟩
        · -- The fault is the last that is said.
          rw [run_closed rfl]
          rfl
        · rw [hpush] at hothers
          rcases contents_creditAll { session with framer := next } frames with
            ⟨hcontents, hframer, hphase⟩
          simp only [] at hothers ⊢
          rw [hcontents, ih (hphase.trans h) hothers, hframer, told, told, Stimulus.reads,
            List.map_append, List.append_assoc]

/-- A session under reply framing that `opening` connects before it reads. -/
structure Opens (session : Session) (opening : List Stimulus) : Prop where
  started : ∃ hasRuntime config, start hasRuntime config = .ok session ∧ config.framing = .resp
  unread : Stimulus.reads opening = []
  connected : (session.run opening).1.phase = .connected

-- What a session is told of from its start on is what a new framer hands out
-- over its reads.
theorem Opens.contents_run {session : Session} {opening stimuli : List Stimulus}
    (h : session.Opens opening) (hruns : (session.run opening).1.Uninterrupted stimuli) :
    Effect.contents (session.run (opening ++ stimuli)).2 =
      told ((Framer.resp [] {}).pushAll (Stimulus.reads stimuli)) := by
  rcases h.started with ⟨hasRuntime, config, hstart, hresp⟩
  rcases silent_run h.unread h.connected with ⟨hframer, hsilent⟩
  rw [framer_start hstart, hresp, Framer.start] at hframer
  rw [run_append]
  simp only []
  rw [Effect.contents_append, hsilent, Session.contents_run h.connected hruns, hframer,
    List.nil_append]

-- Replies are lost if they arrive in one read with the bytes at fault, however
-- many they are.
theorem Opens.contents_single_read {session : Session} {opening : List Stimulus}
    (h : session.Opens opening) {replies : List Bytes} {bad : Bytes} {fault : Fault}
    (hreplies : ∀ reply ∈ replies, IsReply reply) (hbad : frameLength bad = .invalid fault) :
    Effect.contents (session.run (opening ++ [.read (replies.flatten ++ bad)])).2 =
      [.error (.framing fault)] := by
  have hruns : (session.run opening).1.Uninterrupted [.read (replies.flatten ++ bad)] :=
    uninterrupted_reads _ [replies.flatten ++ bad]
  have hframed : Framed ([] ++ (replies.flatten ++ bad)) replies bad :=
    ⟨rfl, hreplies, not_complete_of_invalid hbad⟩
  rcases Framer.push_resp_eq (Scanner.tracks_new []) hframed with ⟨next, _, hpush⟩
  have hreads : Stimulus.reads [.read (replies.flatten ++ bad)] = [replies.flatten ++ bad] := rfl
  rw [h.contents_run hruns, hreads, Framer.pushAll, hpush, judged, hbad]
  rfl

/-- Which replies are told of before a fault, and when these are all. A session
    that is stopped by nothing but a read is sent replies one after another and
    then faulty bytes. It is told of the replies that were complete before the
    read in which the fault comes to light, and of the fault. These are all
    replies if and only if a read ends after the last of them and before the
    fault can be seen. -/
theorem told_before_fault {session : Session} {opening stimuli : List Stimulus}
    (h : session.Opens opening) (hruns : (session.run opening).1.Uninterrupted stimuli)
    {replies : List Bytes} {bad : Bytes} {fault : Fault}
    (hreplies : ∀ reply ∈ replies, IsReply reply) (hbad : frameLength bad = .invalid fault)
    (hstream : (Stimulus.reads stimuli).flatten = replies.flatten ++ bad) :
    (∃ failing : FailingRead [] (Stimulus.reads stimuli) fault,
        replies = failing.delivered ++ failing.lost ∧
        Effect.contents (session.run (opening ++ stimuli)).2 =
          failing.delivered.map .ok ++ [.error (.framing fault)]) ∧
      (Effect.contents (session.run (opening ++ stimuli)).2 =
          replies.map .ok ++ [.error (.framing fault)] ↔
        ∃ before after rest, Stimulus.reads stimuli = before ++ after ∧
          before.flatten = replies.flatten ++ rest ∧ frameLength rest = .incomplete) := by
  have hstreamed : Framed ([] ++ (Stimulus.reads stimuli).flatten) replies bad :=
    ⟨hstream, hreplies, not_complete_of_invalid hbad⟩
  rcases Framer.pushAll_resp (Scanner.tracks_new []) frameLength_nil (Stimulus.reads stimuli) with
    ⟨others, left, next, hothers, hleft, _⟩ | ⟨found, failing, hall⟩
  · rw [← (hstreamed.unique hothers).2, hbad] at hleft
    exact absurd hleft (by simp only [reduceCtorEq, not_false_eq_true])
  · rcases hstreamed.unique failing.framed with ⟨hparts, hrest⟩
    -- More bytes behind the fault do not change it.
    have hfound : found = fault := by
      rw [hrest, frameLength_append_invalid failing.faulty, Progress.invalid.injEq] at hbad
      exact hbad
    subst hfound
    have htold : Effect.contents (session.run (opening ++ stimuli)).2 =
        failing.delivered.map .ok ++ [.error (.framing found)] := by
      rw [h.contents_run hruns, hall, told]
    refine ⟨⟨failing, hparts, htold⟩, ?_⟩
    -- All replies are told of just if the failing read completes none.
    have hlost : Effect.contents (session.run (opening ++ stimuli)).2 =
        replies.map .ok ++ [.error (.framing found)] ↔ failing.lost = [] := by
      rw [htold, hparts, List.append_cancel_right_eq, List.map_append, List.self_eq_append_right,
        List.map_eq_nil_iff]
    rw [hlost, failing.lost_eq_nil_iff, ← hparts]
    constructor
    · rintro ⟨before, after, rest, hreads, hwaiting, hframed⟩
      exact ⟨before, after, rest, hreads, hframed.parts, hwaiting⟩
    · rintro ⟨before, after, rest, hreads, hfront, hwaiting⟩
      exact ⟨before, after, rest, hreads, hwaiting, hfront, hreplies,
        not_complete_of_incomplete hwaiting⟩

/-- A reply and bytes that are none. -/
def okReply : Bytes :=
  Bytes.ofText "+OK\r\n"

def noReply : Bytes :=
  Bytes.ofText "xyz\r\n"

/-- A session under reply framing, before it dials. -/
def dialing : Session :=
  { label := "session", address := "127.0.0.1:6379", framer := .start .resp }

/-- To begin and to be answered opens a session. -/
theorem dialing_opens : dialing.Opens [.begin, .dialed (.ok ())] where
  started := ⟨true, { framing := .resp }, by cbv, rfl⟩
  unread := rfl
  connected := by cbv

theorem isReply_okReply : ∀ reply ∈ [okReply], IsReply reply := by
  intro reply hreply
  rw [List.mem_singleton.1 hreply, IsReply]
  cbv

theorem frameLength_noReply : frameLength noReply = .invalid (.unknownKind 120) := by
  cbv

/-- The end of the first read lies between the two, so both are told of. -/
theorem told_before_fault_apart :
    Effect.contents (dialing.run ([.begin, .dialed (.ok ())] ++ [.read okReply, .read noReply])).2 =
      [.ok okReply, .error (.framing (.unknownKind 120))] := by
  have hruns : (dialing.run [.begin, .dialed (.ok ())]).1.Uninterrupted
      [.read okReply, .read noReply] := uninterrupted_reads _ [okReply, noReply]
  refine (told_before_fault dialing_opens hruns isReply_okReply frameLength_noReply rfl).2.2 ?_
  exact ⟨[okReply], [noReply], [], rfl, rfl, frameLength_nil⟩

/-- A complete reply that is never told of, because it shares a read with the
    fault behind it. -/
theorem reply_lost_with_fault :
    IsReply okReply ∧ frameLength noReply = .invalid (.unknownKind 120) ∧
      Effect.contents
          (dialing.run ([.begin, .dialed (.ok ())] ++ [.read (okReply ++ noReply)])).2 =
        [.error (.framing (.unknownKind 120))] := by
  have hlost := dialing_opens.contents_single_read isReply_okReply frameLength_noReply
  exact ⟨isReply_okReply okReply (List.mem_singleton.2 rfl), frameLength_noReply, hlost⟩

end Session

end RespBus
