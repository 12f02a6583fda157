import RespBus.Proofs.Session.Rest
import RespBus.Proofs.Session.Stages

/-!
# The Wire of a Session

What the peer of a session receives is what the user handed in: every payload
that was accepted, once, in the order of acceptance. It makes no difference
whether a request came before the connection did, what the peer sent in the
meantime, or that a payload is empty.

That is so whenever the session is idle. The balance of the queue says that
what was accepted is on the wire or waits, and a session whose chain is whole
lets nothing wait without writing. So the two things to show are that nothing
waits, and that every write that ended went well, since only those are
recorded; a write that fails is told of as an error, and the session stops.
Every write then got through to its last byte, so there is one wire only, and it
is what was handed over.

A session that nobody holds stops of itself, and not before it has written
everything. Only a close or an error can keep it from that. A session that was
closed or refused before its connection came up has written nothing at all.

## Main definitions

* `Session.AllWritten`: Exactly these requests were written and recorded.

## Theorems

* `Session.settled_eq_written_of_untold`: Without an error every write that
  ended went well.
* `Session.allWritten_of_empty`: With nothing left to write, all is written.
* `Session.allWritten_of_idle`, `Session.allWritten_ahead`,
  `Session.allWritten_of_closed`: So it is when the session is idle, when it
  goes on undisturbed, and when it stopped of itself.
* `Session.writes_of_unconnected`: Without a connection nothing is written.
* `Session.wire_in_order`: The wire is what was accepted, in order.
-/

namespace RespBus

namespace Session

/-- The requests were written one after another, each payload exactly once,
    and nothing else was; and their origins were recorded in the same order. -/
structure AllWritten (session : Session) (stimuli : List Stimulus) (requests : List Request) :
    Prop where
  handed : Effect.handed (session.run stimuli).2 = (requests.map Request.payload).flatten
  wire : ∀ wire, session.OnWire stimuli wire → wire = (requests.map Request.payload).flatten
  writes : Effect.writes (session.run stimuli).2 = requests.map Request.payload
  written : session.written stimuli = requests
  recorded : ∃ retired, requests.map Request.origin = retired ++ (session.run stimuli).1.awaiting
  lastSent : (session.run stimuli).1.lastSent = (requests.map Request.origin).getLast?

/-- What is told at one step is told in the run. -/
theorem mem_contents_run {session : Session} {before after : List Stimulus} {stimulus : Stimulus}
    {content : Except SessionError Bytes}
    (h : content ∈ Effect.contents ((session.run before).1.step stimulus).2) :
    content ∈ Effect.contents (session.run (before ++ stimulus :: after)).2 := by
  rw [run_append, run]
  simp only [Effect.contents_append]
  exact List.mem_append_right _ (List.mem_append_left _ h)

/-- Without an error every write that ended went well. -/
theorem settled_eq_written_of_untold {session : Session} {stimuli : List Stimulus}
    (h : ∀ error, .error error ∉ Effect.contents (session.run stimuli).2) :
    session.settled stimuli = session.written stimuli := by
  refine along_congr stimuli session fun before stimulus after heq => ?_
  cases stimulus with
  | wrote outcome =>
      cases outcome with
      | ok done => rfl
      | error loss =>
          change (session.run before).1.settled? (.wrote (.error loss)) = none
          rw [settled?]
          by_cases hphase : (session.run before).1.phase = .connected
          · rw [if_pos hphase]
            rcases hqueue : (session.run before).1.queue.complete with ⟨_ | request, queue⟩
            · rfl
            · -- The failure of a write would have been told of.
              refine absurd ?_ (h (.transport loss))
              rw [heq]
              refine mem_contents_run ?_
              rw [step_of_connected hphase, stepConnected, hqueue]
              exact List.mem_cons_self
          · rw [if_neg hphase]
  | _ => rfl

variable {hasRuntime : Bool} {config : SessionConfig} {session : Session} {stimuli : List Stimulus}

/-- With nothing left to write and no error told, all is written. -/
theorem allWritten_of_empty (hstart : start hasRuntime config = .ok session)
    (hempty : (session.run stimuli).1.queue.pending = [])
    (huntold : ∀ error, .error error ∉ Effect.contents (session.run stimuli).2) :
    session.AllWritten stimuli (session.accepted stimuli) := by
  have hqueue := queue_of_start hstart
  have hpasses := passes_run stimuli session (by rw [hqueue]; exact Outbound.sound_empty)
  have hsettled := settled_eq_written_of_untold huntold
  rcases records_run stimuli session with ⟨retired, hrecords, _⟩
  -- Nothing waits at the end and no write failed, so all that was accepted is
  -- written.
  have hconserved := hpasses.conserved
  rcases hpasses.begun_append_waiting (by rw [hqueue]) with ⟨begun, hbegun, hwrites⟩
  rw [hqueue, hempty, List.nil_append, List.append_nil, hsettled] at hconserved
  rw [Outbound.waiting, hempty, List.tail_nil, ite_self, List.append_nil] at hbegun
  rcases eq_of_start hstart with ⟨label, address, hsession⟩
  refine ⟨?_, fun wire hwire => ?_, ?_, hconserved.symm, ⟨retired, ?_⟩, ?_⟩
  · rw [Effect.handed_eq_flatten, hwrites, hbegun]
  · rw [hconserved]
    exact hwire.eq_of_written (by rw [hwrites, ← hbegun, hconserved])
  · rw [hwrites, hbegun]
  · rw [hconserved, ← hrecords.awaiting, hsession]
    rfl
  · rw [hconserved, hrecords.lastSent, hsession]
    exact Option.or_none

-- Phases only ascend, so a session that is still on its way was never
-- connected before.
theorem settled_of_unconnected (haccepts : (session.run stimuli).1.accepts = true)
    (hphase : (session.run stimuli).1.phase ≠ .connected) : session.settled stimuli = [] := by
  have hbound := rank_lt_of_unconnected haccepts hphase
  have hnever : session.along settled? stimuli = session.along (fun _ _ => none) stimuli := by
    refine along_congr stimuli session fun before stimulus after heq => ?_
    cases stimulus with
    | wrote outcome =>
        rw [settled?, if_neg]
        intro hconnected
        have hrank := (orderly_run (.wrote outcome :: after) (session.run before).1).ascent.rank_le
        rw [heq, run_append] at hbound
        rw [hconnected] at hrank
        exact absurd hrank (Nat.not_le.2 hbound)
    | _ => rfl
  exact hnever.trans (along_eq_nil stimuli (fun _ _ _ => rfl) session)

/-- A session that has not been connected has written nothing. -/
theorem writes_of_unconnected (hstart : start hasRuntime config = .ok session)
    (haccepts : (session.run stimuli).1.accepts = true)
    (hphase : (session.run stimuli).1.phase ≠ .connected) :
    Effect.writes (session.run stimuli).2 = [] := by
  have hqueue := queue_of_start hstart
  have hpasses := passes_run stimuli session (by rw [hqueue]; exact Outbound.sound_empty)
  have hchained := chained_run hstart haccepts
  rcases hpasses.begun with ⟨begun, hbegun, hwrites⟩
  rw [hqueue, Outbound.writing, Outbound.writing, hchained.idle hphase,
    settled_of_unconnected haccepts hphase] at hbegun
  have hnone : begun = [] := hbegun
  rw [hwrites, hnone]
  rfl

-- A session that is not connected yet stops without writing anything.
theorem step_stopping {stop : Stimulus} (haccepts : session.accepts = true)
    (hphase : session.phase ≠ .connected)
    (hstop : stop = .close ∨
      session.phase = .connecting ∧ ∃ failure, stop = .dialed (.error failure)) :
    (session.step stop).1.phase = .closed ∧ Effect.writes (session.step stop).2 = [] := by
  rcases hstop with rfl | ⟨hconnecting, failure, rfl⟩
  · -- Of the phases that accept requests the two before the connection are
    -- left.
    cases hsome : session.phase with
    | connected => exact absurd hsome hphase
    | disconnected =>
        unfold step
        rw [hsome]
        exact ⟨rfl, rfl⟩
    | connecting =>
        unfold step
        rw [hsome]
        exact ⟨rfl, rfl⟩
    | _ =>
        unfold accepts at haccepts
        rw [hsome] at haccepts
        exact absurd haccepts (by decide)
  · unfold step
    rw [hconnecting]
    exact ⟨rfl, rfl⟩

-- What is still to happen brings no new requests.
theorem accepted_ahead (session after : Session) : session.accepted after.ahead = [] := by
  refine along_eq_nil _ (fun stimulus hmem other => ?_) session
  have hwrites : stimulus ∈ List.replicate after.queue.pending.length (Stimulus.wrote (.ok ())) →
      other.accepted? stimulus = none := by
    intro hwrite
    rw [List.eq_of_mem_replicate hwrite]
    rfl
  -- What is ahead are stimuli of the connection, and none of them sends.
  unfold ahead at hmem
  cases hphase : after.phase with
  | disconnected =>
      rw [hphase] at hmem
      simp only [List.mem_cons] at hmem
      rcases hmem with rfl | rfl | hwrite
      · rfl
      · rfl
      · exact hwrites hwrite
  | connecting =>
      rw [hphase] at hmem
      simp only [List.mem_cons] at hmem
      rcases hmem with rfl | hwrite
      · rfl
      · exact hwrites hwrite
  | connected =>
      rw [hphase] at hmem
      exact hwrites hmem
  | _ =>
      rw [hphase] at hmem
      exact absurd hmem List.not_mem_nil

/-- A connected session without a write under way has written everything:
    whatever waited would be written. -/
theorem allWritten_of_idle (hstart : start hasRuntime config = .ok session)
    (hphase : (session.run stimuli).1.phase = .connected)
    (hidle : (session.run stimuli).1.queue.inFlight = false) :
    session.AllWritten stimuli (session.accepted stimuli) := by
  have haccepts := accepts_of_connected hphase
  have hchained := chained_run hstart haccepts
  refine allWritten_of_empty hstart ?_ (not_told_of_accepts haccepts)
  by_contra hsome
  rw [hchained.busy.2 ⟨hphase, hsome⟩] at hidle
  exact absurd hidle (by decide)

/-- A session that accepts requests writes everything if nothing goes wrong. -/
theorem allWritten_ahead (hstart : start hasRuntime config = .ok session)
    (haccepts : (session.run stimuli).1.accepts = true) :
    session.AllWritten (stimuli ++ (session.run stimuli).1.ahead) (session.accepted stimuli) := by
  have hemptied := run_ahead (chained_run hstart haccepts) haccepts
  -- What is still to happen hands in nothing, so the requests stay the same.
  have haccepted : session.accepted (stimuli ++ (session.run stimuli).1.ahead) =
      session.accepted stimuli := by
    have hnone := accepted_ahead (session.run stimuli).1 (session.run stimuli).1
    rw [accepted] at hnone
    rw [accepted, along_append, hnone, List.append_nil]
    rfl
  rw [← haccepted]
  refine allWritten_of_empty hstart ?_ fun error => ?_
  · rw [run_append]
    exact hemptied.empty
  · rw [run_append]
    simp only [Effect.contents_append, hemptied.silent, List.append_nil]
    exact not_told_of_accepts haccepts error

/-- A session that stopped of itself has written everything. -/
theorem allWritten_of_closed (hstart : start hasRuntime config = .ok session)
    (hopen : .close ∉ stimuli)
    (huntold : ∀ error, .error error ∉ Effect.contents (session.run stimuli).2)
    (hclosed : (session.run stimuli).1.phase = .closed) :
    session.AllWritten stimuli (session.accepted stimuli) := by
  have hchained := chained_of_start hstart
  rcases left_run stimuli session hchained (accepts_of_start hstart) hopen with
    ⟨haccepts, _⟩ | ⟨_, _, hempty⟩ | ⟨error, htold⟩
  · rw [not_accepts_of_closed hclosed] at haccepts
    exact absurd haccepts Bool.false_ne_true
  · exact allWritten_of_empty hstart hempty huntold
  · exact absurd htold (huntold error)

/-- The wire is what was accepted, in order. A session is started, and then
    requests are sent to it, early or late, and anything else happens to it, in
    any order. Whenever it is connected and no write is under way, exactly the
    accepted requests were written, each once, and recorded. It comes to that
    if nothing goes wrong, and then goes on if somebody holds it, or stops. A
    session that stopped without a close and without an error has written
    everything it accepted; one that was closed or refused before its
    connection came up has written nothing, and never will. -/
theorem wire_in_order (hstart : start hasRuntime config = .ok session) (stimuli : List Stimulus) :
    ((session.run stimuli).1.phase = .connected →
        (session.run stimuli).1.queue.inFlight = false →
        session.AllWritten stimuli (session.accepted stimuli)) ∧
      ((session.run stimuli).1.accepts = true →
        session.AllWritten (stimuli ++ (session.run stimuli).1.ahead) (session.accepted stimuli) ∧
          (session.run (stimuli ++ (session.run stimuli).1.ahead)).1.phase =
            if (session.run stimuli).1.held then .connected else .closed) ∧
      (.close ∉ stimuli → (∀ error, .error error ∉ Effect.contents (session.run stimuli).2) →
        (session.run stimuli).1.phase = .closed →
        session.AllWritten stimuli (session.accepted stimuli)) ∧
      ((session.run stimuli).1.accepts = true → (session.run stimuli).1.phase ≠ .connected →
        ∀ stop later,
          (stop = .close ∨ (session.run stimuli).1.phase = .connecting ∧
            ∃ failure, stop = .dialed (.error failure)) →
          Effect.handed (session.run (stimuli ++ stop :: later)).2 = [] ∧
            (session.run (stimuli ++ stop :: later)).1.phase = .closed) := by
  refine ⟨fun hphase hidle => allWritten_of_idle hstart hphase hidle, fun haccepts => ?_,
    fun hopen huntold hclosed => allWritten_of_closed hstart hopen huntold hclosed,
    fun haccepts hphase stop later hstop => ?_⟩
  · refine ⟨allWritten_ahead hstart haccepts, ?_⟩
    rw [run_append]
    exact (run_ahead (chained_run hstart haccepts) haccepts).phase
  · -- Nothing was written before, nothing is written by stopping, and nothing
    -- happens to a closed session.
    rcases step_stopping haccepts hphase hstop with ⟨hclosed, hwrites⟩
    have hbefore := writes_of_unconnected hstart haccepts hphase
    rw [run_append, run]
    simp only [run_closed hclosed, List.append_nil]
    refine ⟨?_, hclosed⟩
    rw [Effect.handed_eq_flatten, Effect.writes_append, hbefore, hwrites]
    rfl

/-- Two requests, the second of them empty. -/
def errands : List Request :=
  [⟨.fetchMenu, Bytes.ofText "GET", none⟩, ⟨.storeMessage, [], some "7"⟩]

/-- The user sends both and lets go of the session while it dials. -/
def abandoned : List Stimulus :=
  errands.map .send ++ [.begin, .release, .dialed (.ok ()), .wrote (.ok ()), .read okReply,
    .wrote (.ok ())]

/-- An abandoned session writes both and stops. Refused, it writes nothing. -/
theorem wire_in_order_abandoned :
    (dialing.run abandoned).1.phase = .closed ∧ dialing.AllWritten abandoned errands ∧
      ∀ later, Effect.handed (dialing.run
        (errands.map .send ++ [.begin] ++ .dialed (.error .refused) :: later)).2 = [] := by
  have hstart : start true { framing := .resp } = .ok dialing := by cbv
  have hopen : .close ∉ abandoned := by
    simp only [abandoned, errands, List.map_cons, List.map_nil, List.cons_append, List.nil_append,
      List.mem_cons, reduceCtorEq, List.not_mem_nil, or_self, not_false_eq_true]
  have huntold : ∀ error, .error error ∉ Effect.contents (dialing.run abandoned).2 := by
    have hcontents : Effect.contents (dialing.run abandoned).2 = [.ok okReply] := by
      decide +kernel
    intro error htold
    rw [hcontents, List.mem_singleton] at htold
    exact absurd htold (by simp only [reduceCtorEq, not_false_eq_true])
  have hclosed : (dialing.run abandoned).1.phase = .closed := by decide +kernel
  have haccepted : dialing.accepted abandoned = errands := by decide +kernel
  have hall := (wire_in_order hstart abandoned).2.2.1 hopen huntold hclosed
  rw [haccepted] at hall
  refine ⟨hclosed, hall, fun later => ?_⟩
  have hphase : (dialing.run (errands.map .send ++ [.begin])).1.phase = .connecting := rfl
  refine ((wire_in_order hstart (errands.map .send ++ [.begin])).2.2.2 rfl ?_ _ later
    (Or.inr ⟨hphase, .refused, rfl⟩)).1
  rw [hphase]
  simp only [ne_eq, reduceCtorEq, not_false_eq_true]

end Session

end RespBus
