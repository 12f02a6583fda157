import RespBus.Proofs.Session.Ledger

/-!
# Conduct of a Session

Whatever happens to a session, and in whatever order, what shows of it to the
outside keeps to three rules. The handler hears of messages, and then of one
error at most, which is the last thing it hears. The phases follow each other
in their one order; some may be left out, none comes back. And a session that
has stopped does nothing: it tells nobody anything, writes nothing, and is the
same afterwards.

The session can stop in many places: a dial that fails, a write that fails, a
read that ends or brings what is no reply, a user who closes it or lets go of
it. `Orderly` states the rules of a single answer, and each place is one lemma
about it. Answers that follow each other are orderly together, because an
error is only told on the way to the last phase, where nothing is told any
more. So the rules hold of runs since they hold of steps.

## Main definitions

* `Phase.rank`: The place of a phase in the order.
* `Phase.Ascent`: Phases entered one after another, each later than the last.
* `Session.Orderly`: An answer that keeps to the rules.

## Theorems

* `Phase.Ascent.rank_le`: An ascent never ends before it began.
* `Session.Orderly.trans`: Answers one after another are orderly together.
* `Session.orderly_step`: The answer to a stimulus is orderly.
* `Session.orderly_run`: A run is orderly.
* `Session.closed_of_close`: A session that was closed stays closed.
* `Session.orderly_life`: The rules, for every run from the start on.
-/

namespace RespBus

namespace Phase

/-- The place of a phase in the order in which a session passes them. -/
def rank : Phase → Nat
  | disconnected => 0
  | connecting => 1
  | connected => 2
  | closing => 3
  | closed => 4

/-- The phases entered on the way from one phase to another, each of them
    later than the one before. -/
inductive Ascent : Phase → List Phase → Phase → Prop where
  | stay (phase : Phase) : Ascent phase [] phase
  | enter {before next after : Phase} {phases : List Phase} (later : before.rank < next.rank)
      (rest : Ascent next phases after) : Ascent before (next :: phases) after

namespace Ascent

variable {before middle after : Phase} {phases others : List Phase}

/-- Ascents are put together. -/
theorem trans (h : Ascent before phases middle) (hlater : Ascent middle others after) :
    Ascent before (phases ++ others) after := by
  induction h with
  | stay phase => exact hlater
  | enter later _ ih => exact enter later (ih hlater)

/-- Whatever phases are entered on the way, the last is not before the first. -/
theorem rank_le (h : Ascent before phases after) : before.rank ≤ after.rank := by
  induction h with
  | stay phase => exact Nat.le_refl _
  | enter later _ ih => omega

theorem eq_of_nil (h : Ascent before [] after) : before = after := by
  cases h
  rfl

end Ascent

end Phase

namespace Session

/-- A session that accepts requests has closing before it. -/
theorem rank_lt_of_accepts {session : Session} (h : session.accepts = true) :
    session.phase.rank < Phase.closing.rank := by
  unfold accepts at h
  cases hphase : session.phase with
  | closing =>
      rw [hphase] at h
      exact absurd h (by decide)
  | closed =>
      rw [hphase] at h
      exact absurd h (by decide)
  | _ => decide

/-- A session that accepts requests without a connection has the connection
    before it. -/
theorem rank_lt_of_unconnected {session : Session} (h : session.accepts = true)
    (hphase : session.phase ≠ .connected) : session.phase.rank < Phase.connected.rank := by
  have hbound := rank_lt_of_accepts h
  cases hsome : session.phase with
  | connected => exact absurd hsome hphase
  | disconnected => decide
  | connecting => decide
  | closing =>
      rw [hsome] at hbound
      exact absurd hbound (by decide)
  | closed =>
      rw [hsome] at hbound
      exact absurd hbound (by decide)

/-- A session starts disconnected. -/
theorem phase_of_start {hasRuntime : Bool} {config : SessionConfig} {session : Session}
    (hstart : start hasRuntime config = .ok session) : session.phase = .disconnected := by
  rcases eq_of_start hstart with ⟨label, address, rfl⟩
  rfl

/-- An answer that keeps to the rules: messages are told first and one error
    at most, which only a session that stops tells; the phases ascend; and a
    session that has stopped neither tells nor writes anything. -/
structure Orderly (before : Phase) (answer : Session × List Effect) : Prop where
  ascent : Phase.Ascent before (Effect.phases answer.2) answer.1.phase
  told : ∃ (messages : List Bytes) (error : Option SessionError),
    Effect.contents answer.2 = messages.map .ok ++ (error.map .error).toList ∧
      (error ≠ none → answer.1.phase = .closed)
  inert : before = .closed → answer.2 = []
  -- `closing` is passed through and never rested in.
  rests : before ≠ .closing → answer.1.phase ≠ .closing

namespace Orderly

variable {before : Phase} {middle after : Session} {effects later : List Effect}

theorem refl (session : Session) : Orderly session.phase (session, []) where
  ascent := .stay _
  told := ⟨[], none, rfl, fun h => absurd rfl h⟩
  inert _ := rfl
  rests h := h

/-- Orderly behaviour is put together: whoever told of an error is closed, and
    does nothing more. -/
theorem trans (h : Orderly before (middle, effects))
    (hlater : Orderly middle.phase (after, later)) : Orderly before (after, effects ++ later) where
  ascent := by
    rw [Effect.phases_append]
    exact h.ascent.trans hlater.ascent
  told := by
    rcases h.told with ⟨messages, _ | error, hcontents, hstops⟩
    · rcases hlater.told with ⟨others, error, hothers, hstops⟩
      refine ⟨messages ++ others, error, ?_, hstops⟩
      simp only [] at hcontents hothers
      rw [Effect.contents_append, hcontents, hothers, List.map_append, Option.map_none,
        Option.toList_none, List.append_nil, List.append_assoc]
    · -- The error was told on the way to the last phase, so nothing follows.
      have hclosed : middle.phase = .closed := hstops (Option.some_ne_none error)
      have hnone : later = [] := hlater.inert hclosed
      have hsame := hlater.ascent
      rw [hnone] at hsame
      refine ⟨messages, some error, ?_, fun _ => hsame.eq_of_nil.symm.trans hclosed⟩
      rw [hnone, List.append_nil]
      exact hcontents
  inert hclosed := by
    have hnone : effects = [] := h.inert hclosed
    have hsame := h.ascent
    rw [hnone] at hsame
    have hothers : later = [] := hlater.inert (hsame.eq_of_nil.symm.trans hclosed)
    -- A closed session says nothing in either part.
    rw [hnone, hothers]
    rfl
  rests hphase := hlater.rests (h.rests hphase)

end Orderly

-- Telling of messages and writing leave the phase as it is.
theorem orderly_of_active {session : Session} {answer : Session × List Effect}
    (haccepts : session.accepts = true) (hphase : answer.1.phase = session.phase)
    (hphases : Effect.phases answer.2 = []) (messages : List Bytes)
    (hcontents : Effect.contents answer.2 = messages.map .ok) : Orderly session.phase answer where
  ascent := by
    rw [hphases, hphase]
    exact .stay _
  told := ⟨messages, none, hcontents.trans (List.append_nil _).symm, fun h => absurd rfl h⟩
  inert hclosed := by
    rw [not_accepts_of_closed hclosed] at haccepts
    exact absurd haccepts Bool.false_ne_true
  rests hbefore := by
    rw [hphase]
    exact hbefore

/-- A session that stops may report an error first. -/
theorem orderly_of_stopping {session after : Session} (haccepts : session.accepts = true)
    (hclosed : after.phase = .closed) (reports : List Effect) (error : Option SessionError)
    (hcontents : Effect.contents reports = (error.map .error).toList)
    (hphases : Effect.phases reports = []) :
    Orderly session.phase (after, reports ++ [.enter .closing, .enter .closed]) where
  ascent := by
    rw [Effect.phases_append, hphases, hclosed]
    exact .enter (rank_lt_of_accepts haccepts) (.enter (by decide) (.stay _))
  told := by
    refine ⟨[], error, ?_, fun _ => hclosed⟩
    rw [Effect.contents_append, hcontents]
    exact List.append_nil _
  inert hbefore := by
    rw [not_accepts_of_closed hbefore] at haccepts
    exact absurd haccepts Bool.false_ne_true
  rests _ := by
    rw [hclosed]
    decide

theorem orderly_finish (session : Session) (h : session.accepts = true) :
    Orderly session.phase session.finish :=
  orderly_of_stopping h rfl [] none rfl rfl

theorem orderly_fail (session : Session) (h : session.accepts = true) (error : SessionError)
    (origin : Option Origin) : Orderly session.phase (session.fail error origin) :=
  orderly_of_stopping h rfl [.report ⟨session.label, .error error, origin⟩] (some error) rfl rfl

theorem orderly_startWrite (session : Session) (h : session.accepts = true) :
    Orderly session.phase session.startWrite := by
  unfold startWrite
  rcases session.queue.start with ⟨_ | payload, queue⟩
  · exact .refl session
  · exact orderly_of_active h rfl rfl [] rfl

/-- To go on is to start a write, or to finish. -/
theorem orderly_proceed (session : Session) (h : session.accepts = true) :
    Orderly session.phase session.proceed := by
  unfold proceed
  by_cases hdone : session.held = false ∧ session.queue.pending = []
  · rw [if_pos hdone]
    exact orderly_finish session h
  · rw [if_neg hdone]
    exact orderly_startWrite session h

theorem phases_creditAll (frames : List Bytes) :
    ∀ session : Session, Effect.phases (session.creditAll frames).2 = [] := by
  induction frames with
  | nil =>
      intro session
      rfl
  | cons frame frames ih =>
      intro session
      exact ih (session.credit frame).1

/-- Of bytes that are read a session tells as messages, or it fails. -/
theorem orderly_receive {session : Session} (h : session.accepts = true) (chunk : Bytes) :
    Orderly session.phase (session.receive chunk) := by
  unfold receive
  rcases session.framer.push chunk with ⟨fault | frames, framer⟩
  · exact orderly_fail { session with framer } h (.framing fault) none
  · rcases contents_creditAll { session with framer } frames with ⟨hcontents, _, hphase⟩
    exact orderly_of_active h hphase (phases_creditAll frames _) frames hcontents

/-- A session without a connection is orderly. -/
theorem orderly_stepWaiting {session : Session} (h : session.accepts = true)
    (stimulus : Stimulus) : Orderly session.phase (session.stepWaiting stimulus) := by
  cases stimulus with
  | send request => exact orderly_of_active h rfl rfl [] rfl
  | close => exact orderly_finish session h
  | release =>
      rw [stepWaiting]
      by_cases hempty : session.queue.pending = []
      · simp only [if_pos hempty]
        exact orderly_finish { session with held := false } h
      · simp only [if_neg hempty]
        exact orderly_of_active h rfl rfl [] rfl
  | _ => exact .refl session

/-- A connected session is orderly. -/
theorem orderly_stepConnected {session : Session} (h : session.accepts = true)
    (stimulus : Stimulus) : Orderly session.phase (session.stepConnected stimulus) := by
  cases stimulus with
  | send request =>
      exact orderly_startWrite { session with queue := session.queue.enqueue request } h
  | wrote outcome =>
      rcases hqueue : session.queue.complete with ⟨_ | request, queue⟩
      · cases outcome <;>
          (rw [stepConnected, hqueue]
           exact .refl session)
      · -- A write that went well is followed by the next one; one that failed
        -- ends the session.
        cases outcome with
        | ok done =>
            rw [stepConnected, hqueue]
            exact orderly_proceed ({ session with queue }.record request) h
        | error loss =>
            rw [stepConnected, hqueue]
            exact orderly_fail { session with queue } h (.transport loss) (some request.origin)
  | read chunk => exact orderly_receive h chunk
  | lost loss => exact orderly_fail session h (.transport loss) none
  | close => exact orderly_finish session h
  | release => exact orderly_proceed { session with held := false } h
  | _ => exact .refl session

/-- The answer to a stimulus is orderly, in whatever phase it finds the
    session. -/
theorem orderly_step (session : Session) (stimulus : Stimulus) :
    Orderly session.phase (session.step stimulus) := by
  rcases session.phase_cases with hstopped | hphase | ⟨haccepts, _⟩
  · rw [step_of_stopped hstopped]
    exact .refl session
  · rw [step_of_connected hphase]
    exact orderly_stepConnected (accepts_of_connected hphase) stimulus
  · have hwaiting := orderly_stepWaiting haccepts stimulus
    unfold step
    split
    · -- To begin is to enter the next phase and nothing else.
      rename_i hdisconnected
      exact ⟨by rw [hdisconnected]; exact .enter (by decide) (.stay _),
        ⟨[], none, rfl, fun h => absurd rfl h⟩,
        fun hclosed => absurd (hdisconnected.symm.trans hclosed) (by decide),
        fun _ => by simp only [ne_eq, reduceCtorEq, not_false_eq_true]⟩
    · exact hwaiting
    · rename_i outcome hconnecting
      cases outcome with
      | ok done =>
          -- The connection is entered first, and what was waiting is written
          -- then.
          have henter : Orderly session.phase
              ({ session with phase := .connected }, [.enter .connected]) :=
            ⟨by rw [hconnecting]; exact .enter (by decide) (.stay _),
              ⟨[], none, rfl, fun h => absurd rfl h⟩,
              fun hclosed => absurd (hconnecting.symm.trans hclosed) (by decide),
              fun _ => by simp only [ne_eq, reduceCtorEq, not_false_eq_true]⟩
          exact henter.trans (orderly_proceed _ (accepts_of_connected rfl))
      | error failure => exact orderly_fail session haccepts _ none
    · exact hwaiting
    · exact orderly_stepConnected haccepts _
    all_goals exact .refl session

/-- A run is orderly. The induction is on the stimuli. -/
theorem orderly_run (stimuli : List Stimulus) :
    ∀ session : Session, Orderly session.phase (session.run stimuli) := by
  induction stimuli with
  | nil =>
      intro session
      exact .refl session
  | cons stimulus stimuli ih =>
      intro session
      exact (orderly_step session stimulus).trans (ih (session.step stimulus).1)

namespace Orderly

variable {before : Phase} {answer : Session × List Effect}

/-- A session that has told of an error is closed. -/
theorem closed_of_error (h : Orderly before answer) {error : SessionError}
    (hmem : .error error ∈ Effect.contents answer.2) : answer.1.phase = .closed := by
  rcases h.told with ⟨messages, last, hcontents, hstops⟩
  refine hstops fun hnone => ?_
  rw [hnone, Option.map_none, Option.toList_none, List.append_nil] at hcontents
  rw [hcontents] at hmem
  rcases List.mem_map.1 hmem with ⟨message, _, hmessage⟩
  exact absurd hmessage (by simp only [reduceCtorEq, not_false_eq_true])

end Orderly

/-- To close a session closes it, in any phase but one it never rests in. -/
theorem closed_step_close {session : Session} (h : session.phase ≠ .closing) :
    (session.step .close).1.phase = .closed := by
  cases hphase : session.phase with
  | closing => exact absurd hphase h
  -- A closed session is left alone, and any other stops.
  | closed =>
      rw [step_of_stopped (not_accepts_of_closed hphase)]
      exact hphase
  | connected =>
      rw [step_of_connected hphase]
      rfl
  | disconnected =>
      unfold step
      rw [hphase]
      rfl
  | connecting =>
      unfold step
      rw [hphase]
      rfl

/-- A session that was closed at any time of a run is closed at its end. -/
theorem closed_of_close (stimuli : List Stimulus) :
    ∀ session : Session, session.phase ≠ .closing → .close ∈ stimuli →
      (session.run stimuli).1.phase = .closed := by
  induction stimuli with
  | nil =>
      intro session _ hmem
      exact absurd hmem List.not_mem_nil
  | cons stimulus stimuli ih =>
      intro session hphase hmem
      rcases List.mem_cons.1 hmem with hfirst | hlater
      · have hclosed := closed_step_close hphase
        rw [run, ← hfirst]
        simp only [run_closed hclosed, hclosed]
      · exact ih _ ((orderly_step session stimulus).rests hphase) hlater

/-- A closed session takes no more requests. -/
theorem offer_of_closed {session : Session} (h : session.phase = .closed) :
    session.offer = .error .closed := by
  rw [offer, not_accepts_of_closed h]
  rfl

/-- The rules of a session's life, for every run from its start on. The
    handler is told of messages and then of one error at most. The phases
    ascend, and no later stimulus leads back to an earlier one. A close and an
    error end in the last phase. Once there, the session refuses requests, and
    whatever happens adds nothing to what it did and leaves it as it is. -/
theorem orderly_life {hasRuntime : Bool} {config : SessionConfig} {session : Session}
    (hstart : start hasRuntime config = .ok session) (stimuli : List Stimulus) :
    (∃ (messages : List Bytes) (error : Option SessionError),
        Effect.contents (session.run stimuli).2 =
          messages.map .ok ++ (error.map .error).toList) ∧
      Phase.Ascent .disconnected (Effect.phases (session.run stimuli).2)
        (session.run stimuli).1.phase ∧
      (∀ later, (session.run stimuli).1.phase.rank ≤
        (session.run (stimuli ++ later)).1.phase.rank) ∧
      (.close ∈ stimuli ∨ (∃ error, .error error ∈ Effect.contents (session.run stimuli).2) →
        (session.run stimuli).1.phase = .closed) ∧
      ((session.run stimuli).1.phase = .closed →
        (session.run stimuli).1.offer = .error .closed ∧
          ∀ later, session.run (stimuli ++ later) = session.run stimuli) := by
  have hphase := phase_of_start hstart
  have horderly := orderly_run stimuli session
  rcases horderly.told with ⟨messages, error, hcontents, _⟩
  refine ⟨⟨messages, error, hcontents⟩, ?_, fun later => ?_, ?_, fun hclosed => ?_⟩
  · rw [← hphase]
    exact horderly.ascent
  · rw [run_append]
    exact (orderly_run later (session.run stimuli).1).ascent.rank_le
  · rintro (hclose | ⟨fault, hfault⟩)
    · -- No session rests in the closing phase, so there is nothing to keep a
      -- call of close from working.
      refine closed_of_close stimuli session ?_ hclose
      rw [hphase]
      simp only [ne_eq, reduceCtorEq, not_false_eq_true]
    · exact horderly.closed_of_error hfault
  · refine ⟨offer_of_closed hclosed, fun later => ?_⟩
    rw [run_append, run_closed hclosed, List.append_nil]

/-- A connection that brings a reply, then what is none, and then its end. -/
def faulty : List Stimulus :=
  [.begin, .dialed (.ok ()), .read okReply, .read noReply, .lost .ended]

/-- The end of the connection is not told of any more. -/
theorem orderly_life_faulty :
    (dialing.run faulty).1.phase = .closed ∧
      Effect.contents (dialing.run faulty).2 =
        [.ok okReply, .error (.framing (.unknownKind 120))] ∧
      ∀ later, dialing.run (faulty ++ later) = dialing.run faulty := by
  have hstart : start true { framing := .resp } = .ok dialing := by cbv
  have hcontents : Effect.contents (dialing.run faulty).2 =
      [.ok okReply, .error (.framing (.unknownKind 120))] := by decide +kernel
  rcases orderly_life hstart faulty with ⟨_, _, _, hstops, hinert⟩
  have hclosed := hstops (Or.inr ⟨.framing (.unknownKind 120), by
    rw [hcontents]
    exact List.mem_cons_of_mem _ List.mem_cons_self⟩)
  exact ⟨hclosed, hcontents, (hinert hclosed).2⟩

end Session

end RespBus
