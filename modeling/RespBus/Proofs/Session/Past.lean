import RespBus.Proofs.Session.Chain

/-!
# What a Session Says of its Past

A session is asked whether its connection came up. It answers from its phase
alone, and a phase says where the session is, not where it has been. As long as
the session runs this is enough: the phases ascend, so one that has not stopped
has been connected if and only if it is. A session that has stopped always says
that it stopped before it was connected, and that may be wrong.

`CameUp` is what the answer should be about. It is a fact of the run and not of
the state, so it lasts: once a connection came up, it has come up in every
longer run. `cameUp_iff_dialed` finds the stimulus that brings it up, which is a
dial that succeeds while the session dials and nothing else. `connected_run`
sets the answers beside it. All but one of them are right.

## Main definitions

* `Session.CameUp`: The connection came up at some time of a run.

## Theorems

* `Phase.Ascent.rank_of_mem`, `Phase.Ascent.mem_of_ne`: The phases on the way.
* `Session.label_run`: A session keeps its name.
* `Session.cameUp_append`: A connection that came up has come up ever since.
* `Session.connected_mem_phases_step`: What brings a connection up.
* `Session.cameUp_iff_dialed`, `Session.cameUp_iff_connected`: When it came up.
* `Session.connected_run`: The answers of a session, and its past.
-/

namespace RespBus

namespace Phase.Ascent

variable {before after : Phase} {phases : List Phase}

/-- What is entered on an ascent lies behind its start, and its end does not lie
    before it. -/
theorem rank_of_mem (h : Ascent before phases after) {phase : Phase} (hmem : phase ∈ phases) :
    before.rank < phase.rank ∧ phase.rank ≤ after.rank := by
  induction h with
  | stay _ => exact absurd hmem List.not_mem_nil
  | enter later rest ih =>
      rcases List.mem_cons.1 hmem with rfl | hrest
      · exact ⟨later, rest.rank_le⟩
      · exact ⟨Nat.lt_trans later (ih hrest).1, (ih hrest).2⟩

/-- An ascent that leads elsewhere enters the phase it leads to. -/
theorem mem_of_ne (h : Ascent before phases after) (hne : before ≠ after) : after ∈ phases := by
  induction h with
  | stay _ => exact absurd rfl hne
  | @enter _ next after _ _ _ ih =>
      by_cases hlast : next = after
      · rw [hlast]
        exact List.mem_cons_self
      · exact List.mem_cons_of_mem _ (ih hlast)

end Phase.Ascent

namespace Session

section Label

theorem label_startWrite (session : Session) : session.startWrite.1.label = session.label := by
  unfold startWrite
  rcases session.queue.start with ⟨_ | payload, queue⟩ <;> rfl

theorem label_proceed (session : Session) : session.proceed.1.label = session.label := by
  unfold proceed
  split
  · rfl
  · exact label_startWrite session

theorem label_creditAll (frames : List Bytes) :
    ∀ session : Session, (session.creditAll frames).1.label = session.label := by
  induction frames with
  | nil =>
      intro session
      rfl
  | cons frame frames ih =>
      intro session
      exact ih (session.credit frame).1

theorem label_receive (session : Session) (chunk : Bytes) :
    (session.receive chunk).1.label = session.label := by
  unfold receive
  rcases session.framer.push chunk with ⟨fault | frames, framer⟩
  · rfl
  · exact label_creditAll frames { session with framer }

theorem label_stepWaiting (session : Session) (stimulus : Stimulus) :
    (session.stepWaiting stimulus).1.label = session.label := by
  cases stimulus with
  | release =>
      rw [stepWaiting]
      by_cases hempty : session.queue.pending = []
      · simp only [if_pos hempty]
        rfl
      · simp only [if_neg hempty]
  | _ => rfl

theorem label_stepConnected (session : Session) (stimulus : Stimulus) :
    (session.stepConnected stimulus).1.label = session.label := by
  cases stimulus with
  | send request => exact label_startWrite { session with queue := session.queue.enqueue request }
  | wrote outcome =>
      cases outcome with
      | ok done =>
          rw [stepConnected]
          rcases session.queue.complete with ⟨_ | request, queue⟩
          · rfl
          · exact label_proceed ({ session with queue }.record request)
      | error loss =>
          rw [stepConnected]
          rcases session.queue.complete with ⟨_ | request, queue⟩ <;> rfl
  | read chunk => exact label_receive session chunk
  | release => exact label_proceed { session with held := false }
  | _ => rfl

/-- A session keeps its label. -/
theorem label_step (session : Session) (stimulus : Stimulus) :
    (session.step stimulus).1.label = session.label := by
  unfold step
  split
  · rfl
  · exact label_stepWaiting session _
  · rename_i outcome _
    cases outcome with
    | ok done => exact label_proceed { session with phase := .connected }
    | error failure => rfl
  · exact label_stepWaiting session _
  · exact label_stepConnected session _
  all_goals rfl

/-- A session keeps its name. -/
theorem label_run (stimuli : List Stimulus) :
    ∀ session : Session, (session.run stimuli).1.label = session.label := by
  induction stimuli with
  | nil =>
      intro session
      rfl
  | cons stimulus stimuli ih =>
      intro session
      exact (ih (session.step stimulus).1).trans (label_step session stimulus)

end Label

/-- The connection came up at some time of a run. -/
def CameUp (session : Session) (stimuli : List Stimulus) : Prop :=
  .connected ∈ Effect.phases (session.run stimuli).2

instance (session : Session) (stimuli : List Stimulus) : Decidable (session.CameUp stimuli) :=
  inferInstanceAs (Decidable (.connected ∈ Effect.phases (session.run stimuli).2))

/-- A connection that came up has come up ever since. -/
theorem cameUp_append {session : Session} {first later : List Stimulus} :
    session.CameUp (first ++ later) ↔
      session.CameUp first ∨ (session.run first).1.CameUp later := by
  unfold CameUp
  rw [run_append, Effect.phases_append, List.mem_append]

/-- While it waits, a session can only be closed. -/
theorem connected_not_mem_phases_stepWaiting (session : Session) (stimulus : Stimulus) :
    .connected ∉ Effect.phases (session.stepWaiting stimulus).2 := by
  have hnone : Phase.connected ∉ Effect.phases [] := List.not_mem_nil
  have hfinish : Phase.connected ∉ [Phase.closing, Phase.closed] := by decide
  cases stimulus with
  | close => exact hfinish
  | release =>
      rw [stepWaiting]
      by_cases hempty : session.queue.pending = []
      · simp only [if_pos hempty]
        exact hfinish
      · simp only [if_neg hempty]
        exact hnone
  | _ => exact hnone

/-- Only a dial that succeeds brings a connection up, and only while the
    session dials. -/
theorem connected_mem_phases_step {session : Session} {stimulus : Stimulus} :
    .connected ∈ Effect.phases (session.step stimulus).2 ↔
      session.phase = .connecting ∧ stimulus = .dialed (.ok ()) := by
  constructor
  · intro hmem
    -- What has been entered lies ahead of where the session was.
    have hrank := ((orderly_step session stimulus).ascent.rank_of_mem hmem).1
    have hwaiting := connected_not_mem_phases_stepWaiting session stimulus
    have hbegin : Phase.connected ∉ [Phase.connecting] := by decide
    have hfail : Phase.connected ∉ [Phase.closing, Phase.closed] := by decide
    -- Only the two phases before the connection are left.
    cases hphase : session.phase with
    | disconnected =>
        unfold step at hmem
        rw [hphase] at hmem
        cases stimulus with
        | begin => exact absurd hmem hbegin
        | _ => exact absurd hmem hwaiting
    | connecting =>
        unfold step at hmem
        rw [hphase] at hmem
        cases stimulus with
        | dialed outcome =>
            cases outcome with
            | ok done => exact ⟨rfl, rfl⟩
            | error failure => exact absurd hmem hfail
        | _ => exact absurd hmem hwaiting
    | _ =>
        rw [hphase] at hrank
        exact absurd hrank (by decide)
  · rintro ⟨hphase, rfl⟩
    unfold step
    rw [hphase]
    exact List.mem_cons_self

/-- A session comes up in one stimulus just if that is the answer to its dial. -/
theorem cameUp_singleton {session : Session} {stimulus : Stimulus} :
    session.CameUp [stimulus] ↔ session.phase = .connecting ∧ stimulus = .dialed (.ok ()) := by
  rw [← connected_mem_phases_step, CameUp, run]
  simp only [run, List.append_nil]

/-- A connection came up just if a dial succeeded while the session dialed. The
    induction is on the stimuli. -/
theorem cameUp_iff_dialed {stimuli : List Stimulus} :
    ∀ {session : Session}, session.CameUp stimuli ↔
      ∃ before after, stimuli = before ++ .dialed (.ok ()) :: after ∧
        (session.run before).1.phase = .connecting := by
  induction stimuli with
  | nil =>
      intro session
      refine ⟨fun h => absurd h List.not_mem_nil, ?_⟩
      rintro ⟨before, after, heq, _⟩
      exact absurd heq.symm (List.append_ne_nil_of_right_ne_nil _ (List.cons_ne_nil _ _))
  | cons stimulus stimuli ih =>
      intro session
      rw [← List.singleton_append, cameUp_append, cameUp_singleton, ih]
      constructor
      · rintro (⟨hphase, rfl⟩ | ⟨before, after, rfl, hphase⟩)
        · exact ⟨[], stimuli, rfl, hphase⟩
        · exact ⟨stimulus :: before, after, rfl, hphase⟩
      · rintro ⟨before, after, heq, hphase⟩
        -- The answer is the first stimulus, or it is among the others.
        rcases before with _ | ⟨first, before⟩
        · rw [List.nil_append, List.singleton_append, List.cons.injEq] at heq
          exact .inl ⟨hphase, heq.1⟩
        · rw [List.singleton_append, List.cons_append, List.cons.injEq] at heq
          rcases heq with ⟨rfl, rfl⟩
          exact .inr ⟨before, after, rfl, hphase⟩

section Answer

variable {session : Session}

/-- There is no answer yet just if the session may still connect. -/
theorem connected?_eq_none_iff :
    session.connected? = none ↔ session.accepts = true ∧ session.phase ≠ .connected := by
  unfold connected? accepts
  cases session.phase <;>
    simp only [reduceCtorEq, ne_eq, not_true_eq_false, not_false_eq_true, decide_true,
      decide_false, Bool.and_true, Bool.and_false, and_true, and_false]

/-- The answer is good just while the session is connected. -/
theorem connected?_eq_ok_iff : session.connected? = some (.ok ()) ↔ session.phase = .connected := by
  unfold connected?
  cases session.phase <;> simp only [reduceCtorEq, Option.some.injEq]

/-- A session that rests somewhere answers with an error just when it is closed. -/
theorem connected?_eq_error_iff (hphase : session.phase ≠ .closing) {error : SessionError} :
    session.connected? = some (.error error) ↔
      session.phase = .closed ∧ error = .notConnected session.label := by
  unfold connected?
  cases hsome : session.phase with
  | closing => exact absurd hsome hphase
  | closed => simp only [Option.some.injEq, Except.error.injEq, true_and, eq_comm]
  | _ => simp only [reduceCtorEq, Option.some.injEq, false_and]

end Answer

section Started

variable {hasRuntime : Bool} {config : SessionConfig} {session : Session} {stimuli : List Stimulus}

/-- A session that is connected has come up. -/
theorem cameUp_of_connected (hstart : start hasRuntime config = .ok session)
    (hphase : (session.run stimuli).1.phase = .connected) : session.CameUp stimuli := by
  have hascent := (orderly_run stimuli session).ascent
  rw [phase_of_start hstart, hphase] at hascent
  exact hascent.mem_of_ne (by decide)

/-- A session that has not stopped was connected just if it is. -/
theorem cameUp_iff_of_accepts (hstart : start hasRuntime config = .ok session)
    (haccepts : (session.run stimuli).1.accepts = true) :
    session.CameUp stimuli ↔ (session.run stimuli).1.phase = .connected := by
  refine ⟨fun h => ?_, cameUp_of_connected hstart⟩
  by_contra hphase
  have hbound := rank_lt_of_unconnected haccepts hphase
  exact absurd ((orderly_run stimuli session).ascent.rank_of_mem h).2 (Nat.not_le.2 hbound)

/-- A connection came up just if the session was connected after some part of
    the run. -/
theorem cameUp_iff_connected (hstart : start hasRuntime config = .ok session) :
    session.CameUp stimuli ↔
      ∃ before after, stimuli = before ++ after ∧ (session.run before).1.phase = .connected := by
  constructor
  · intro h
    rcases cameUp_iff_dialed.1 h with ⟨before, after, rfl, hphase⟩
    refine ⟨before ++ [.dialed (.ok ())], after, by rw [List.append_assoc]; rfl, ?_⟩
    -- A session that nobody holds has something to write, so it stays.
    have hchained := chained_run hstart (by rw [accepts, hphase]; decide)
    have hstep : (session.run before).1.step (.dialed (.ok ())) =
        (session.run before).1.answerDial (.ok ()) := by
      unfold step
      rw [hphase]
    rw [run_append, run, hstep]
    rcases (goesOn_answerDial hchained).left with ⟨hconnected, _⟩ | ⟨_, hreleased, hempty⟩
    · exact hconnected
    · exact absurd hempty (hchained.needed hreleased)
  · rintro ⟨before, after, rfl, hphase⟩
    exact cameUp_append.2 (.inl (cameUp_of_connected hstart hphase))

/-- A run never ends in the phase in which a session closes. -/
theorem phase_ne_closing (hstart : start hasRuntime config = .ok session) :
    (session.run stimuli).1.phase ≠ .closing := by
  refine (orderly_run stimuli session).rests ?_
  rw [phase_of_start hstart]
  decide

/-- A session has the label it is configured with. -/
theorem label_of_start (hstart : start hasRuntime config = .ok session) :
    session.label = config.label := by
  rw [(valid_of_start hstart).2]

/-- What a session says in a run, and what is so. It says nothing just if it
    runs and was not connected, it says that it is connected just if it runs and
    was, and it says that it stopped before just if it has stopped, connected or
    not. -/
theorem connected_run (hstart : start hasRuntime config = .ok session) (stimuli : List Stimulus) :
    ((session.run stimuli).1.connected? = none ↔
        (session.run stimuli).1.accepts = true ∧ ¬ session.CameUp stimuli) ∧
      ((session.run stimuli).1.connected? = some (.ok ()) ↔
        (session.run stimuli).1.accepts = true ∧ session.CameUp stimuli) ∧
      ∀ error, (session.run stimuli).1.connected? = some (.error error) ↔
        (session.run stimuli).1.phase = .closed ∧ error = .notConnected config.label := by
  refine ⟨?_, ?_, fun error => ?_⟩
  · rw [connected?_eq_none_iff]
    exact and_congr_right fun haccepts => not_congr (cameUp_iff_of_accepts hstart haccepts).symm
  · rw [connected?_eq_ok_iff]
    constructor
    · exact fun hphase => ⟨accepts_of_connected hphase, cameUp_of_connected hstart hphase⟩
    · exact fun h => (cameUp_iff_of_accepts hstart h.1).1 h.2
  · rw [connected?_eq_error_iff (phase_ne_closing hstart), label_run, label_of_start hstart]

end Started

end Session

end RespBus
