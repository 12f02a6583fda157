import RespBus.Proofs.Session.Faults

/-!
# The Ledger of a Session

A request passes through a session in stages. It is accepted, it waits, its
write begins, its write is settled, and if that went well it awaits a reply.
Each stage keeps the order of the one before, and nothing is added or lost on
the way. That is a balance: what was there and what came in is what went out
and what is there now.

`Outbound.Passes` is the balance of the queue, in two lines. The first counts
every request from its acceptance to the end of its write. The second counts
only those whose write has begun, which are at most one at any time, and ties
them to the payloads that were written. A balance over one stretch and the
next is a balance over both, so `passes_run` follows from single stimuli, and
those from the three operations of the queue.

What is accepted or settled depends on the state in which a stimulus finds
the session. `along` reads such things off a run, one stimulus at a time.

## Main definitions

* `Effect.writes`: The payloads whose writes began.
* `Outbound.writing`, `Outbound.waiting`: The requests whose write has begun,
  and those behind them.
* `Outbound.Sound`: A write is under way only of a request that is there.
* `Outbound.Passes`: The balance of a queue.
* `Session.along`: What stimuli mean to a session, one after another.
* `Session.accepted`, `Session.settled`, `Session.written`: The requests
  accepted in a run, those whose write ended, and those whose write went well.
* `Session.Records`: The balance of the requests that await a reply.

## Theorems

* `Outbound.Passes.trans`: Balances of two stretches are one of both.
* `Outbound.start_cases`, `Outbound.complete_cases`: What the calls on a queue
  can do.
* `Session.passes_step`: A stimulus keeps the balance.
* `Session.passes_run`: A run keeps the balance.
* `Session.records_run`: The requests that await a reply are the last of those
  written.
-/

namespace RespBus

namespace Effect

/-- The payloads whose writes began, in order. -/
def writes (effects : List Effect) : List Bytes :=
  effects.filterMap fun
    | write payload => some payload
    | _ => none

theorem writes_append (first second : List Effect) :
    writes (first ++ second) = writes first ++ writes second :=
  List.filterMap_append

/-- What is handed over are the payloads, with nothing between them. -/
theorem handed_eq_flatten (effects : List Effect) :
    handed effects = (writes effects).flatten := by
  induction effects with
  | nil => rfl
  | cons effect effects ih =>
      have hcons : handed (effect :: effects) = handed [effect] ++ handed effects :=
        handed_append [effect] effects
      rw [hcons, ih]
      cases effect with
      | write payload =>
          change (payload ++ []) ++ _ = _
          rw [List.append_nil]
          rfl
      | _ => rfl

end Effect

namespace Outbound

/-- The request whose write has begun, if there is one. -/
def writing (queue : Outbound) : List Request :=
  if queue.inFlight then queue.pending.take 1 else []

/-- The requests whose write has not begun. -/
def waiting (queue : Outbound) : List Request :=
  if queue.inFlight then queue.pending.tail else queue.pending

/-- A write is under way only of a request that is there. -/
def Sound (queue : Outbound) : Prop :=
  queue.inFlight = true → queue.pending ≠ []

theorem sound_empty : ({} : Outbound).Sound := by
  intro h
  exact absurd h (by decide)

/-- The queue is the request that is being written and those that wait. -/
theorem writing_append_waiting (queue : Outbound) :
    queue.writing ++ queue.waiting = queue.pending := by
  unfold writing waiting
  by_cases h : queue.inFlight = true
  · rw [if_pos h, if_pos h, ← List.drop_one, List.take_append_drop]
  · rw [if_neg h, if_neg h, List.nil_append]

/-- The balance of a queue over some stretch in which requests were accepted,
    writes were settled and payloads were written. -/
structure Passes (before : Outbound) (accepted settled : List Request) (writes : List Bytes)
    (after : Outbound) : Prop where
  sound : after.Sound
  conserved : before.pending ++ accepted = settled ++ after.pending
  begun : ∃ begun, before.writing ++ begun = settled ++ after.writing ∧
    writes = begun.map Request.payload

namespace Passes

variable {before middle after : Outbound} {accepted settled : List Request} {writes : List Bytes}

theorem refl (h : before.Sound) : before.Passes [] [] [] before where
  sound := h
  conserved := by rw [List.append_nil, List.nil_append]
  begun := ⟨[], by rw [List.append_nil, List.nil_append], rfl⟩

/-- What passes a queue in one stretch and in the next passes it in both. -/
theorem trans {acceptedLater settledLater : List Request} {writesLater : List Bytes}
    (h : before.Passes accepted settled writes middle)
    (hlater : middle.Passes acceptedLater settledLater writesLater after) :
    before.Passes (accepted ++ acceptedLater) (settled ++ settledLater) (writes ++ writesLater)
      after where
  sound := hlater.sound
  conserved := by
    rw [← List.append_assoc, h.conserved, List.append_assoc, hlater.conserved, List.append_assoc]
  begun := by
    rcases h.begun with ⟨first, hfirst, hwrites⟩
    rcases hlater.begun with ⟨second, hsecond, hwritesLater⟩
    refine ⟨first ++ second, ?_, ?_⟩
    · rw [← List.append_assoc, hfirst, List.append_assoc, hsecond, List.append_assoc]
    · rw [hwrites, hwritesLater, List.map_append]

-- What has been accepted is on the wire, or it waits.
theorem begun_append_waiting (h : before.Passes accepted settled writes after)
    (hempty : before.pending = []) :
    ∃ begun, accepted = begun ++ after.waiting ∧ writes = begun.map Request.payload := by
  rcases h.begun with ⟨begun, hbegun, hwrites⟩
  have hnone : before.writing = [] := by
    unfold writing
    rw [hempty]
    split <;> rfl
  have hconserved := h.conserved
  rw [hnone, List.nil_append] at hbegun
  -- Of what was accepted some was settled, and the rest is still there: the one
  -- that is being written, and those that wait.
  rw [hempty, List.nil_append, ← after.writing_append_waiting, ← List.append_assoc, ← hbegun]
    at hconserved
  exact ⟨begun, hconserved, hwrites⟩

end Passes

-- What is handed in goes to the back, so the front request stays in front.
theorem writing_enqueue {queue : Outbound} (h : queue.Sound) (request : Request) :
    (queue.enqueue request).writing = queue.writing := by
  unfold writing enqueue
  by_cases hflight : queue.inFlight = true
  · have hsome := List.length_pos_iff.2 (h hflight)
    -- The request that is being written is there, so the first one stays the
    -- first.
    rw [if_pos hflight, if_pos hflight, List.take_append_of_le_length (by omega)]
  · rw [if_neg hflight, if_neg hflight]

/-- To enqueue a request is to accept it and nothing else. -/
theorem passes_enqueue {queue : Outbound} (h : queue.Sound) (request : Request) :
    queue.Passes [request] [] [] (queue.enqueue request) where
  sound _ := List.append_ne_nil_of_right_ne_nil _ (List.cons_ne_nil request [])
  conserved := rfl
  begun := ⟨[], by rw [writing_enqueue h, List.append_nil, List.nil_append], rfl⟩

/-- A start hands out the payload of the front request, or it is in vain. -/
theorem start_cases (queue : Outbound) :
    (∃ request others, queue = ⟨request :: others, false⟩ ∧
        queue.start = (some request.payload, ⟨request :: others, true⟩)) ∨
      ((queue.inFlight = true ∨ queue.pending = []) ∧ queue.start = (none, queue)) := by
  rcases queue with ⟨_ | ⟨request, others⟩, _ | _⟩
  · exact Or.inr ⟨Or.inr rfl, rfl⟩
  · exact Or.inr ⟨Or.inl rfl, rfl⟩
  · exact Or.inl ⟨request, others, rfl, rfl⟩
  · exact Or.inr ⟨Or.inl rfl, rfl⟩

/-- A completion gives the front request back, or it is in vain. -/
theorem complete_cases {queue : Outbound} (h : queue.Sound) :
    (∃ request others, queue = ⟨request :: others, true⟩ ∧
        queue.complete = (some request, ⟨others, false⟩)) ∨
      (queue.inFlight = false ∧ queue.complete = (none, queue)) := by
  rcases queue with ⟨_ | ⟨request, others⟩, _ | _⟩
  · exact Or.inr ⟨rfl, rfl⟩
  · exact absurd rfl (h rfl)
  · exact Or.inr ⟨rfl, rfl⟩
  · exact Or.inl ⟨request, others, rfl, rfl⟩

/-- To ask for the next write begins the front request, if nothing is being
    written. -/
theorem passes_start {queue : Outbound} (h : queue.Sound) :
    queue.Passes [] [] queue.start.1.toList queue.start.2 := by
  rcases queue.start_cases with ⟨request, others, rfl, hstart⟩ | ⟨_, hstart⟩
  · rw [hstart]
    exact ⟨fun _ => List.cons_ne_nil request others, List.append_nil _, [request], rfl, rfl⟩
  · rw [hstart]
    exact Passes.refl h

/-- The end of a write settles the request that was being written. -/
theorem passes_complete {queue : Outbound} (h : queue.Sound) :
    queue.Passes [] queue.complete.1.toList [] queue.complete.2 := by
  rcases complete_cases h with ⟨request, others, rfl, hcomplete⟩ | ⟨_, hcomplete⟩
  · rw [hcomplete]
    exact ⟨fun hlater => absurd hlater Bool.false_ne_true, List.append_nil _, [], rfl, rfl⟩
  · rw [hcomplete]
    exact Passes.refl h

end Outbound

namespace Session

/-- What stimuli mean to a session, one after another, where they mean
    anything. -/
def along {α : Type} (observe : Session → Stimulus → Option α) :
    Session → List Stimulus → List α
  | _, [] => []
  | session, stimulus :: stimuli =>
    (observe session stimulus).toList ++ along observe (session.step stimulus).1 stimuli

/-- What is observed over two stretches is what is observed over each of them. -/
theorem along_append {α : Type} (observe : Session → Stimulus → Option α)
    (second first : List Stimulus) :
    ∀ session : Session, session.along observe (first ++ second) =
      session.along observe first ++ (session.run first).1.along observe second := by
  induction first with
  | nil =>
      intro session
      rfl
  | cons stimulus stimuli ih =>
      intro session
      rw [List.cons_append, along, along, ih, List.append_assoc]
      rfl

/-- The last stimulus of a run is observed in the state before it. -/
theorem along_concat {α : Type} (observe : Session → Stimulus → Option α) (session : Session)
    (stimuli : List Stimulus) (stimulus : Stimulus) :
    session.along observe (stimuli ++ [stimulus]) =
      session.along observe stimuli ++ (observe (session.run stimuli).1 stimulus).toList := by
  rw [along_append, along, along, List.append_nil]

-- What two observers see alike at every point of a run they see alike in all.
theorem along_congr {α : Type} {observe other : Session → Stimulus → Option α}
    (stimuli : List Stimulus) :
    ∀ session : Session,
      (∀ before stimulus after, stimuli = before ++ stimulus :: after →
        observe (session.run before).1 stimulus = other (session.run before).1 stimulus) →
      session.along observe stimuli = session.along other stimuli := by
  induction stimuli with
  | nil =>
      intro session _
      rfl
  | cons stimulus stimuli ih =>
      intro session h
      have hfirst : observe session stimulus = other session stimulus := h [] stimulus stimuli rfl
      have hlater := ih (session.step stimulus).1 fun before next after heq =>
        h (stimulus :: before) next after (congrArg (List.cons stimulus) heq)
      rw [along, along, hfirst, hlater]

/-- The request that a stimulus hands in, if it is accepted. -/
def accepted? (session : Session) : Stimulus → Option Request
  | .send request => if session.accepts then some request else none
  | _ => none

/-- The request whose write a stimulus settles, well or badly. -/
def settled? (session : Session) : Stimulus → Option Request
  | .wrote _ => if session.phase = .connected then session.queue.complete.1 else none
  | _ => none

/-- The request whose write a stimulus brings to a good end. -/
def written? (session : Session) : Stimulus → Option Request
  | .wrote (.ok ()) => if session.phase = .connected then session.queue.complete.1 else none
  | _ => none

/-- The requests accepted in a run, in order. -/
def accepted (session : Session) (stimuli : List Stimulus) : List Request :=
  session.along accepted? stimuli

/-- The requests whose writes ended in a run, in order. -/
def settled (session : Session) (stimuli : List Stimulus) : List Request :=
  session.along settled? stimuli

/-- The requests written in a run, in order. -/
def written (session : Session) (stimuli : List Stimulus) : List Request :=
  session.along written? stimuli

theorem step_of_connected {session : Session} (h : session.phase = .connected)
    (stimulus : Stimulus) : session.step stimulus = session.stepConnected stimulus := by
  cases stimulus <;> (unfold step; rw [h])

/-- A session that accepts nothing any more is deaf to everything. -/
theorem step_of_stopped {session : Session} (h : session.accepts = false) (stimulus : Stimulus) :
    session.step stimulus = (session, []) := by
  cases hphase : session.phase with
  | closing => cases stimulus <;> (unfold step; rw [hphase])
  | closed => cases stimulus <;> (unfold step; rw [hphase])
  | _ =>
      unfold accepts at h
      rw [hphase] at h
      exact absurd h (by decide)

/-- A session that has not stopped is on its way to its connection, or has
    it. -/
theorem phase_cases (session : Session) :
    session.accepts = false ∨ session.phase = .connected ∨
      (session.accepts = true ∧ session.phase ≠ .connected) := by
  by_cases haccepts : session.accepts = true
  · by_cases hphase : session.phase = .connected
    · exact Or.inr (Or.inl hphase)
    · exact Or.inr (Or.inr ⟨haccepts, hphase⟩)
  · exact Or.inl (Bool.eq_false_iff.2 haccepts)

theorem accepts_of_connected {session : Session} (h : session.phase = .connected) :
    session.accepts = true := by
  unfold accepts
  rw [h]
  decide

theorem not_accepts_of_closed {session : Session} (h : session.phase = .closed) :
    session.accepts = false := by
  unfold accepts
  rw [h]
  decide

/-- Starting a write passes the queue what is written and nothing else. -/
theorem passes_startWrite (session : Session) (h : session.queue.Sound) :
    session.queue.Passes [] [] (Effect.writes session.startWrite.2)
      session.startWrite.1.queue := by
  have hstart := Outbound.passes_start h
  unfold startWrite
  rcases hqueue : session.queue.start with ⟨_ | payload, queue⟩
  · exact Outbound.Passes.refl h
  · rw [hqueue] at hstart
    exact hstart

/-- Going on after a write, or after the release, only ever begins a write. -/
theorem passes_proceed (session : Session) (h : session.queue.Sound) :
    session.queue.Passes [] [] (Effect.writes session.proceed.2) session.proceed.1.queue := by
  unfold proceed
  by_cases hdone : session.held = false ∧ session.queue.pending = []
  · rw [if_pos hdone]
    exact Outbound.Passes.refl h
  · rw [if_neg hdone]
    exact passes_startWrite session h

-- Reports neither write nor touch the queue.
theorem queue_creditAll (frames : List Bytes) :
    ∀ session : Session, (session.creditAll frames).1.queue = session.queue ∧
      Effect.writes (session.creditAll frames).2 = [] := by
  induction frames with
  | nil =>
      intro session
      exact ⟨rfl, rfl⟩
  | cons frame frames ih =>
      intro session
      exact ih (session.credit frame).1

/-- Reading bytes neither writes nor touches the queue. -/
theorem queue_receive (session : Session) (chunk : Bytes) :
    (session.receive chunk).1.queue = session.queue ∧
      Effect.writes (session.receive chunk).2 = [] := by
  unfold receive
  rcases session.framer.push chunk with ⟨fault | frames, framer⟩
  · exact ⟨rfl, rfl⟩
  · exact queue_creditAll frames { session with framer }

/-- A connected session accepts, settles and writes just what passes its queue. -/
theorem passes_stepConnected {session : Session} (h : session.queue.Sound)
    (hphase : session.phase = .connected) (stimulus : Stimulus) :
    session.queue.Passes (session.accepted? stimulus).toList (session.settled? stimulus).toList
      (Effect.writes (session.stepConnected stimulus).2)
      (session.stepConnected stimulus).1.queue := by
  cases stimulus with
  | send request =>
      have henqueue := Outbound.passes_enqueue h request
      have hstart := passes_startWrite { session with queue := session.queue.enqueue request }
        henqueue.sound
      rw [accepted?, if_pos (accepts_of_connected hphase)]
      exact henqueue.trans hstart
  | wrote outcome =>
      have hpasses := Outbound.passes_complete h
      rw [settled?, if_pos hphase]
      -- A completion counts only if something was being written. The cases are
      -- the same with either outcome until the session goes on.
      rcases Outbound.complete_cases h with ⟨request, others, _, hcomplete⟩ | ⟨_, hcomplete⟩
      · rw [hcomplete] at hpasses ⊢
        cases outcome with
        | ok done =>
            have hproceed := passes_proceed
              ({ session with queue := ⟨others, false⟩ }.record request) hpasses.sound
            rw [stepConnected, hcomplete]
            exact hpasses.trans hproceed
        | error loss =>
            rw [stepConnected, hcomplete]
            exact hpasses
      · rw [hcomplete]
        cases outcome <;>
          (rw [stepConnected, hcomplete]
           exact Outbound.Passes.refl h)
  | read chunk =>
      rcases queue_receive session chunk with ⟨hqueue, hwrites⟩
      rw [stepConnected, hqueue, hwrites]
      exact Outbound.Passes.refl h
  | release => exact passes_proceed { session with held := false } h
  | _ => exact Outbound.Passes.refl h

/-- A session that is not connected yet writes nothing, and what it accepts
    waits. -/
theorem passes_stepWaiting {session : Session} (h : session.queue.Sound)
    (haccepts : session.accepts = true) (hphase : session.phase ≠ .connected)
    (stimulus : Stimulus) :
    session.queue.Passes (session.accepted? stimulus).toList (session.settled? stimulus).toList
      (Effect.writes (session.stepWaiting stimulus).2)
      (session.stepWaiting stimulus).1.queue := by
  cases stimulus with
  | send request =>
      rw [accepted?, if_pos haccepts]
      exact Outbound.passes_enqueue h request
  | wrote outcome =>
      rw [settled?, if_neg hphase]
      exact Outbound.Passes.refl h
  | release =>
      rw [stepWaiting]
      by_cases hempty : session.queue.pending = []
      · simp only [if_pos hempty]
        exact Outbound.Passes.refl h
      · simp only [if_neg hempty]
        exact Outbound.Passes.refl h
  | _ => exact Outbound.Passes.refl h

/-- A stimulus keeps the balance of the queue, in whatever phase it finds the
    session. -/
theorem passes_step {session : Session} (h : session.queue.Sound) (stimulus : Stimulus) :
    session.queue.Passes (session.accepted? stimulus).toList (session.settled? stimulus).toList
      (Effect.writes (session.step stimulus).2) (session.step stimulus).1.queue := by
  rcases session.phase_cases with hstopped | hphase | ⟨haccepts, hphase⟩
  · -- A stopped session ignores the stimulus, so nothing may be accepted or
    -- settled.
    have hnone : session.phase ≠ .connected := by
      intro hconnected
      rw [accepts_of_connected hconnected] at hstopped
      exact absurd hstopped (by decide)
    rw [step_of_stopped hstopped]
    cases stimulus with
    | send request =>
        rw [accepted?, hstopped]
        exact Outbound.Passes.refl h
    | wrote outcome =>
        rw [settled?, if_neg hnone]
        exact Outbound.Passes.refl h
    | _ => exact Outbound.Passes.refl h
  · rw [step_of_connected hphase]
    exact passes_stepConnected h hphase stimulus
  · have hwaiting := passes_stepWaiting h haccepts hphase stimulus
    unfold step
    split
    · exact Outbound.Passes.refl h
    · exact hwaiting
    · rename_i outcome hconnecting
      cases outcome with
      -- Once the connection is there, what was accepted before it is begun.
      | ok done => exact passes_proceed { session with phase := .connected } h
      | error failure => exact Outbound.Passes.refl h
    · exact hwaiting
    · rename_i hconnected
      exact absurd hconnected hphase
    all_goals
      rename_i hstopped
      unfold accepts at haccepts
      rw [hstopped] at haccepts
      exact absurd haccepts (by decide)

/-- A run keeps the balance of the queue. The induction is on the stimuli. -/
theorem passes_run (stimuli : List Stimulus) :
    ∀ session : Session, session.queue.Sound →
      session.queue.Passes (session.accepted stimuli) (session.settled stimuli)
        (Effect.writes (session.run stimuli).2) (session.run stimuli).1.queue := by
  induction stimuli with
  | nil =>
      intro session h
      exact Outbound.Passes.refl h
  | cons stimulus stimuli ih =>
      intro session h
      have hfirst := passes_step h stimulus
      have hlater := ih (session.step stimulus).1 hfirst.sound
      rw [run, accepted, settled, along, along]
      simp only [Effect.writes_append]
      exact hfirst.trans hlater

/-- The balance of the requests that await a reply, over some stretch in which
    requests were written and others taken off the list. -/
structure Records (before : Session) (written : List Request) (retired : List Origin)
    (after : Session) : Prop where
  awaiting : before.awaiting ++ written.map Request.origin = retired ++ after.awaiting
  lastSent : after.lastSent = (written.map Request.origin).getLast?.or before.lastSent

namespace Records

variable {before middle after : Session} {written : List Request} {retired : List Origin}

/-- Whatever leaves both fields alone records nothing. -/
theorem keep (hawaiting : after.awaiting = before.awaiting)
    (hlast : after.lastSent = before.lastSent) : before.Records [] [] after where
  awaiting := by rw [hawaiting, List.map_nil, List.append_nil, List.nil_append]
  lastSent := hlast

/-- Two stretches record one after the other. -/
theorem trans {writtenLater : List Request} {retiredLater : List Origin}
    (h : before.Records written retired middle)
    (hlater : middle.Records writtenLater retiredLater after) :
    before.Records (written ++ writtenLater) (retired ++ retiredLater) after where
  awaiting := by
    rw [List.map_append, ← List.append_assoc, h.awaiting, List.append_assoc, hlater.awaiting,
      List.append_assoc]
  lastSent := by
    rw [hlater.lastSent, h.lastSent, List.map_append, List.getLast?_append, Option.or_assoc]

end Records

/-- What is begun is recorded only when it is written. -/
theorem records_proceed (session : Session) : session.Records [] [] session.proceed.1 := by
  unfold proceed
  by_cases hdone : session.held = false ∧ session.queue.pending = []
  · rw [if_pos hdone]
    exact Records.keep rfl rfl
  · rw [if_neg hdone, startWrite]
    rcases session.queue.start with ⟨_ | payload, queue⟩
    · exact Records.keep rfl rfl
    · exact Records.keep rfl rfl

/-- A request that was written is the last sent, and awaits a reply. -/
theorem records_record (session : Session) (request : Request) :
    session.Records [request] [] (session.record request) where
  awaiting := rfl
  lastSent := rfl

-- A message takes some of the oldest requests off the list.
theorem records_creditAll (frames : List Bytes) :
    ∀ session : Session, ∃ retired, session.Records [] retired (session.creditAll frames).1 := by
  induction frames with
  | nil =>
      intro session
      exact ⟨[], Records.keep rfl rfl⟩
  | cons frame frames ih =>
      intro session
      have hsuffix : (session.credit frame).1.awaiting <:+ session.awaiting :=
        (List.drop_suffix _ _).trans (List.tail_suffix _)
      rcases hsuffix with ⟨first, hfirst⟩
      have hcredit : session.Records [] first (session.credit frame).1 :=
        ⟨by rw [List.map_nil, List.append_nil, hfirst], rfl⟩
      rcases ih (session.credit frame).1 with ⟨others, hothers⟩
      exact ⟨first ++ others, hcredit.trans hothers⟩

/-- Bytes that are read take requests off the front of the list at most. -/
theorem records_receive (session : Session) (chunk : Bytes) :
    ∃ retired, session.Records [] retired (session.receive chunk).1 := by
  unfold receive
  rcases session.framer.push chunk with ⟨fault | frames, framer⟩
  · exact ⟨[], Records.keep rfl rfl⟩
  · rcases records_creditAll frames { session with framer } with ⟨retired, hretired⟩
    have hsame : session.Records [] [] { session with framer } := Records.keep rfl rfl
    exact ⟨retired, hsame.trans hretired⟩

/-- A connected session records the request whose write ends, and only a read
    takes requests off the list. -/
theorem records_stepConnected {session : Session} (hphase : session.phase = .connected)
    (stimulus : Stimulus) :
    ∃ retired, session.Records (session.written? stimulus).toList retired
        (session.stepConnected stimulus).1 ∧ (stimulus.chunk? = none → retired = []) := by
  cases stimulus with
  | send request =>
      refine ⟨[], ?_, fun _ => rfl⟩
      rw [stepConnected, startWrite]
      rcases (session.queue.enqueue request).start with ⟨_ | payload, queue⟩
      · exact Records.keep rfl rfl
      · exact Records.keep rfl rfl
  | wrote outcome =>
      refine ⟨[], ?_, fun _ => rfl⟩
      rcases hqueue : session.queue.complete with ⟨_ | request, queue⟩
      · cases outcome <;>
          (rw [stepConnected, hqueue]
           simp only [written?, hqueue, ite_self]
           exact Records.keep rfl rfl)
      · cases outcome with
        | ok done =>
            -- What was written is entered first, and the next write begins
            -- then.
            have hsame : session.Records [] [] { session with queue } := Records.keep rfl rfl
            have hrecord := hsame.trans (records_record { session with queue } request)
            rw [stepConnected, hqueue, written?, if_pos hphase, hqueue]
            exact hrecord.trans (records_proceed _)
        | error loss =>
            rw [stepConnected, hqueue]
            exact Records.keep rfl rfl
  | read chunk =>
      rcases records_receive session chunk with ⟨retired, hretired⟩
      refine ⟨retired, hretired, fun hnone => ?_⟩
      exact absurd hnone (Stimulus.chunk_read_ne_none chunk)
  | release =>
      have hsame : session.Records [] [] { session with held := false } := Records.keep rfl rfl
      exact ⟨[], hsame.trans (records_proceed _), fun _ => rfl⟩
  | _ => exact ⟨[], Records.keep rfl rfl, fun _ => rfl⟩

/-- Nothing is recorded before the connection is there. -/
theorem records_stepWaiting (session : Session) (stimulus : Stimulus) :
    session.Records [] [] (session.stepWaiting stimulus).1 := by
  cases stimulus with
  | release =>
      rw [stepWaiting]
      by_cases hempty : session.queue.pending = []
      · simp only [if_pos hempty]
        exact Records.keep rfl rfl
      · simp only [if_neg hempty]
        exact Records.keep rfl rfl
  | _ => exact Records.keep rfl rfl

-- Only a session that is connected writes, or takes a request off the list.
theorem records_step (session : Session) (stimulus : Stimulus) :
    ∃ retired, session.Records (session.written? stimulus).toList retired
        (session.step stimulus).1 ∧ (stimulus.chunk? = none → retired = []) := by
  by_cases hphase : session.phase = .connected
  · rw [step_of_connected hphase]
    exact records_stepConnected hphase stimulus
  · -- No write ends outside the connected phase.
    have hnone : session.written? stimulus = none := by
      unfold written?
      split
      · rw [if_neg hphase]
      · rfl
    refine ⟨[], ?_, fun _ => rfl⟩
    rw [hnone]
    unfold step
    split
    · exact Records.keep rfl rfl
    · exact records_stepWaiting session _
    · rename_i outcome _
      have hsame : session.Records [] [] { session with phase := .connected } :=
        Records.keep rfl rfl
      cases outcome with
      | ok done => exact hsame.trans (records_proceed _)
      | error failure => exact Records.keep rfl rfl
    · exact records_stepWaiting session _
    · rename_i hconnected
      exact absurd hconnected hphase
    all_goals exact Records.keep rfl rfl

/-- The requests that await a reply are the last of those written, and the
    last request sent is the last of them. Without a read none is taken off
    the list. -/
theorem records_run (stimuli : List Stimulus) :
    ∀ session : Session, ∃ retired,
      session.Records (session.written stimuli) retired (session.run stimuli).1 ∧
        (Stimulus.reads stimuli = [] → retired = []) := by
  induction stimuli with
  | nil =>
      intro session
      exact ⟨[], Records.keep rfl rfl, fun _ => rfl⟩
  | cons stimulus stimuli ih =>
      intro session
      rcases records_step session stimulus with ⟨first, hfirst, hunread⟩
      rcases ih (session.step stimulus).1 with ⟨others, hothers, hunreadLater⟩
      refine ⟨first ++ others, hfirst.trans hothers, fun hnone => ?_⟩
      -- A run without a read takes nothing off the list, and neither does any
      -- part of it.
      rcases hchunk : stimulus.chunk? with _ | chunk
      · rw [Stimulus.reads, List.filterMap_cons_none hchunk] at hnone
        rw [hunread hchunk, hunreadLater hnone]
        rfl
      · rw [Stimulus.reads, List.filterMap_cons_some hchunk] at hnone
        exact absurd hnone (List.cons_ne_nil _ _)

end Session

end RespBus
