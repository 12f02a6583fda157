import RespBus.Proofs.Session.Conduct

/-!
# The Chain of Writes

One write is under way at a time, and its end is what starts the next. So the
writes of a session form a chain, and a chain that broke would stay broken: a
request would wait and nothing would ever be written again. What must never
happen is that a connected session has something to write and writes nothing.

`Chained` says that it does not happen. Requests are taken in from two
directions, before the connection is there and after, and the chain is taken
up again in four places: when the connection comes up, when a request comes,
when a write is done, and when the user lets go of the session. In each of
these the session asks its queue for the next write, and `chained_startWrite`
is about that.

An answer leaves the chain whole or else the session stops. `Left` has the
ways in which it can: with nothing to write and nobody holding it, or with an
error. A close is the third, and the only one that takes a request away
silently.

The chain leads to its end. `ahead` has what is still to happen to a session
if nothing goes wrong, and after that nothing is left to write; the session is
then connected if somebody holds it, and has stopped otherwise.

## Main definitions

* `Session.Chained`: Something is being written as long as there is something
  to write.
* `Session.Left`: How an answer leaves a session that is not closed.
* `Session.GoesOn`: An answer that goes on with the chain.
* `Session.Emptied`: An answer after which nothing is left to write.
* `Session.ahead`: What is to happen to a session if nothing goes wrong.

## Theorems

* `Session.chained_startWrite`: Asking for the next write takes up the chain.
* `Session.left_step`: A stimulus leaves the chain whole, or stops the session.
* `Session.left_run`: So does a run.
* `Session.chained_run`: A session that has not stopped is chained.
* `Session.run_writes`, `Session.run_ahead`: The chain leads to its end.
-/

namespace RespBus

namespace Outbound

-- What is there is being written once the queue was asked for the next write.
theorem inFlight_start {queue : Outbound} (h : queue.Sound) :
    queue.start.2.inFlight = true ↔ queue.pending ≠ [] := by
  rcases queue.start_cases with ⟨request, others, rfl, hstart⟩ | ⟨hvain, hstart⟩
  · rw [hstart]
    exact ⟨fun _ => List.cons_ne_nil request others, fun _ => rfl⟩
  · rw [hstart]
    refine ⟨h, fun hsome => ?_⟩
    rcases hvain with hflight | hempty
    · exact hflight
    · exact absurd hempty hsome

/-- A sound queue without requests is the empty one, since nothing can be in
    flight. -/
theorem eq_empty {queue : Outbound} (h : queue.Sound) (hempty : queue.pending = []) :
    queue = {} := by
  have hidle : queue.inFlight = false := by
    rw [← Bool.not_eq_true]
    exact fun hflight => h hflight hempty
  rcases queue with ⟨pending, inFlight⟩
  simp only at hempty hidle
  rw [hempty, hidle]

end Outbound

namespace Session

/-- A write is under way just if the session is connected and has something to
    write; and a session that nobody holds has something to write. -/
structure Chained (session : Session) : Prop where
  busy : session.queue.inFlight = true ↔
    session.phase = .connected ∧ session.queue.pending ≠ []
  needed : session.held = false → session.queue.pending ≠ []

namespace Chained

theorem sound {session : Session} (h : session.Chained) : session.queue.Sound :=
  fun hflight => (h.busy.1 hflight).2

-- The framer and the requests that await a reply have no part in it.
theorem of_eq {session after : Session} (h : session.Chained)
    (hqueue : after.queue = session.queue) (hphase : after.phase = session.phase)
    (hheld : after.held = session.held) : after.Chained where
  busy := by
    rw [hqueue, hphase]
    exact h.busy
  needed := by
    rw [hqueue, hheld]
    exact h.needed

-- Nothing is being written before the connection is there.
theorem idle {session : Session} (h : session.Chained) (hphase : session.phase ≠ .connected) :
    session.queue.inFlight = false := by
  rw [← Bool.not_eq_true]
  exact fun hflight => hphase (h.busy.1 hflight).1

end Chained

theorem queue_of_start {hasRuntime : Bool} {config : SessionConfig} {session : Session}
    (hstart : start hasRuntime config = .ok session) : session.queue = {} := by
  rcases eq_of_start hstart with ⟨label, address, rfl⟩
  rfl

/-- A session starts with the chain intact, for it is held and nothing waits. -/
theorem chained_of_start {hasRuntime : Bool} {config : SessionConfig} {session : Session}
    (hstart : start hasRuntime config = .ok session) : session.Chained := by
  rcases eq_of_start hstart with ⟨label, address, rfl⟩
  refine ⟨⟨fun hflight => absurd hflight Bool.false_ne_true, ?_⟩, fun hreleased => ?_⟩
  · exact fun hsome => absurd rfl hsome.2
  · exact absurd hreleased.symm Bool.false_ne_true

/-- A connected session that asks for the next write is chained. -/
theorem chained_startWrite (session : Session) (hsound : session.queue.Sound)
    (hphase : session.phase = .connected)
    (hneeded : session.held = false → session.queue.pending ≠ []) :
    session.startWrite.1.Chained ∧ session.startWrite.1.phase = .connected ∧
      session.startWrite.1.queue.pending = session.queue.pending ∧
      session.startWrite.1.held = session.held := by
  have hflight := Outbound.inFlight_start hsound
  unfold startWrite
  rcases session.queue.start_cases with ⟨request, others, hqueue, hstart⟩ | ⟨_, hstart⟩
  · have hpending : session.queue.pending = request :: others := by rw [hqueue]
    have hsome := List.cons_ne_nil request others
    rw [hstart]
    exact ⟨⟨⟨fun _ => ⟨hphase, hsome⟩, fun _ => rfl⟩, fun _ => hsome⟩, hphase, hpending.symm, rfl⟩
  · -- Nothing was started, so the queue is as it was.
    rw [hstart] at hflight ⊢
    refine ⟨⟨?_, hneeded⟩, hphase, rfl, rfl⟩
    exact hflight.trans ⟨fun hsome => ⟨hphase, hsome⟩, fun hsome => hsome.2⟩

/-- How an answer leaves a session, unless the user closed it: chained, or
    stopped with nobody to hold it and nothing to write, or stopped with an
    error. -/
inductive Left (answer : Session × List Effect) : Prop where
  | chained (accepts : answer.1.accepts = true) (h : answer.1.Chained)
  | drained (stopped : answer.1.phase = .closed) (released : answer.1.held = false)
      (empty : answer.1.queue.pending = [])
  | failed (error : SessionError) (told : .error error ∈ Effect.contents answer.2)

theorem left_fail (session : Session) (error : SessionError) (origin : Option Origin) :
    Left (session.fail error origin) :=
  .failed error List.mem_cons_self

/-- An answer that goes on with the chain: nothing is taken from the queue and
    nothing told, and the session stops just if it was not held and had nothing
    to write. -/
structure GoesOn (session : Session) (answer : Session × List Effect) : Prop where
  pending : answer.1.queue.pending = session.queue.pending
  held : answer.1.held = session.held
  silent : Effect.contents answer.2 = []
  left : (answer.1.phase = .connected ∧ answer.1.Chained) ∨
    (answer.1.phase = .closed ∧ session.held = false ∧ session.queue.pending = [])

/-- A connected session either begins the next write or, once released and
    drained, closes. -/
theorem goesOn_proceed (session : Session) (hsound : session.queue.Sound)
    (hphase : session.phase = .connected) : session.GoesOn session.proceed := by
  have hsilent := (silent_proceed session).2
  unfold proceed at hsilent ⊢
  -- The test is the one that the session makes itself.
  by_cases hdone : session.held = false ∧ session.queue.pending = []
  · rw [if_pos hdone]
    exact ⟨rfl, rfl, rfl, Or.inr ⟨rfl, hdone⟩⟩
  · rw [if_neg hdone] at hsilent ⊢
    rcases chained_startWrite session hsound hphase fun hreleased hempty =>
      hdone ⟨hreleased, hempty⟩ with ⟨hchained, hconnected, hpending, hheld⟩
    exact ⟨hpending, hheld, hsilent, Or.inl ⟨hconnected, hchained⟩⟩

/-- Both ways of going on are ways to leave a session. -/
theorem GoesOn.left_of {session : Session} {answer : Session × List Effect}
    (h : session.GoesOn answer) : Left answer := by
  rcases h.left with ⟨hconnected, hchained⟩ | ⟨hclosed, hreleased, hempty⟩
  · exact .chained (accepts_of_connected hconnected) hchained
  · exact .drained hclosed (h.held.trans hreleased) (h.pending.trans hempty)

theorem held_creditAll (frames : List Bytes) :
    ∀ session : Session, (session.creditAll frames).1.held = session.held := by
  induction frames with
  | nil =>
      intro session
      rfl
  | cons frame frames ih =>
      intro session
      exact ih (session.credit frame).1

/-- Bytes that are read are reported, or their fault is. -/
theorem left_receive {session : Session} (h : session.Chained)
    (hphase : session.phase = .connected) (chunk : Bytes) : Left (session.receive chunk) := by
  have hqueue := (queue_receive session chunk).1
  unfold receive at hqueue ⊢
  rcases hpush : session.framer.push chunk with ⟨fault | frames, framer⟩
  · exact left_fail { session with framer } (.framing fault) none
  · rw [hpush] at hqueue
    have hsame := (contents_creditAll { session with framer } frames).2.2
    have hheld := held_creditAll frames { session with framer }
    exact .chained (accepts_of_connected (hsame.trans hphase)) (h.of_eq hqueue hsame hheld)

/-- A connected session that is not closed keeps the chain, is drained, or tells
    of an error. -/
theorem left_stepConnected {session : Session} (h : session.Chained)
    (hphase : session.phase = .connected) {stimulus : Stimulus} (hopen : stimulus ≠ .close) :
    Left (session.stepConnected stimulus) := by
  have haccepts := accepts_of_connected hphase
  cases stimulus with
  | send request =>
      have hsome : session.queue.pending ++ [request] ≠ [] :=
        List.append_ne_nil_of_right_ne_nil _ (List.cons_ne_nil request [])
      rcases chained_startWrite { session with queue := session.queue.enqueue request }
        (Outbound.passes_enqueue h.sound request).sound hphase fun _ => hsome with
        ⟨hchained, hconnected, _, _⟩
      exact .chained (accepts_of_connected hconnected) hchained
  -- A completion in vain changes nothing; of a write that went well or failed
  -- the next link is made, or the error is told.
  | wrote outcome =>
      have hcomplete := Outbound.passes_complete h.sound
      rcases hqueue : session.queue.complete with ⟨_ | request, queue⟩
      · cases outcome <;>
          (rw [stepConnected, hqueue]
           exact .chained haccepts h)
      · rw [hqueue] at hcomplete
        cases outcome with
        | ok done =>
            rw [stepConnected, hqueue]
            exact (goesOn_proceed ({ session with queue }.record request) hcomplete.sound
              hphase).left_of
        | error loss =>
            rw [stepConnected, hqueue]
            exact left_fail { session with queue } (.transport loss) (some request.origin)
  | read chunk => exact left_receive h hphase chunk
  | lost loss => exact left_fail session (.transport loss) none
  | close => exact absurd rfl hopen
  | release => exact (goesOn_proceed { session with held := false } h.sound hphase).left_of
  | _ => exact .chained haccepts h

/-- Before the connection is there requests wait, and only the release of an
    empty session ends it. -/
theorem left_stepWaiting {session : Session} (h : session.Chained)
    (haccepts : session.accepts = true) (hphase : session.phase ≠ .connected)
    {stimulus : Stimulus} (hopen : stimulus ≠ .close) : Left (session.stepWaiting stimulus) := by
  have hidle := h.idle hphase
  cases stimulus with
  | send request =>
      -- Nothing is in flight, and a request that waits is reason enough to go
      -- on.
      refine .chained haccepts
        ⟨⟨fun hflight => ?_, fun hsome => absurd hsome.1 hphase⟩, fun _ => ?_⟩
      · exact absurd (hidle.symm.trans hflight) Bool.false_ne_true
      · exact List.append_ne_nil_of_right_ne_nil _ (List.cons_ne_nil request [])
  | close => exact absurd rfl hopen
  | release =>
      rw [stepWaiting]
      by_cases hempty : session.queue.pending = []
      · simp only [if_pos hempty]
        exact .drained rfl rfl hempty
      · simp only [if_neg hempty]
        exact .chained haccepts ⟨h.busy, fun _ => hempty⟩
  | _ => exact .chained haccepts h

/-- To begin to connect leaves the queue as it is. -/
theorem chained_begin {session : Session} (h : session.Chained)
    (hphase : session.phase ≠ .connected) : { session with phase := .connecting }.Chained where
  busy := by
    refine ⟨fun hflight => ?_, fun hsome => ?_⟩
    · exact absurd ((h.idle hphase).symm.trans hflight) Bool.false_ne_true
    · exact absurd hsome.1 (by simp only [reduceCtorEq, not_false_eq_true])
  needed := h.needed

/-- Once the connection is there, what waited is begun. -/
theorem goesOn_answerDial {session : Session} (h : session.Chained) :
    session.GoesOn (session.answerDial (.ok ())) := by
  have hproceed := goesOn_proceed { session with phase := .connected } h.sound rfl
  exact ⟨hproceed.pending, hproceed.held, hproceed.silent, hproceed.left⟩

/-- A stimulus other than a close leaves the chain whole, or stops the session
    with nothing to write or with an error. -/
theorem left_step {session : Session} (h : session.Chained) (haccepts : session.accepts = true)
    {stimulus : Stimulus} (hopen : stimulus ≠ .close) : Left (session.step stimulus) := by
  by_cases hphase : session.phase = .connected
  · rw [step_of_connected hphase]
    exact left_stepConnected h hphase hopen
  · have hwaiting := left_stepWaiting h haccepts hphase hopen
    unfold step
    split
    · -- A session that has not begun begins; one that connects gets an answer
      -- to its dial.
      exact .chained rfl (chained_begin h hphase)
    · exact hwaiting
    · rename_i outcome _
      cases outcome with
      | ok done => exact (goesOn_answerDial h).left_of
      | error failure => exact left_fail session _ none
    · exact hwaiting
    · rename_i hconnected
      exact absurd hconnected hphase
    all_goals
      rename_i hstopped
      unfold accepts at haccepts
      rw [hstopped] at haccepts
      exact absurd haccepts (by decide)

/-- A run without a close leaves the chain whole, or stops the session with
    nothing to write or with an error. The induction is on the stimuli. -/
theorem left_run (stimuli : List Stimulus) :
    ∀ session : Session, session.Chained → session.accepts = true → .close ∉ stimuli →
      Left (session.run stimuli) := by
  induction stimuli with
  | nil =>
      intro session h haccepts _
      exact .chained haccepts h
  | cons stimulus stimuli ih =>
      intro session h haccepts hopen
      have hfirst : stimulus ≠ .close := fun heq => hopen (heq ▸ List.mem_cons_self)
      have hothers : .close ∉ stimuli := fun hmem => hopen (List.mem_cons_of_mem _ hmem)
      -- A session that is drained or has told of an error stays closed, so only
      -- the first case goes on.
      rcases left_step h haccepts hfirst with
        ⟨hlater, hchained⟩ | ⟨hclosed, hreleased, hempty⟩ | ⟨error, htold⟩
      · rcases ih _ hchained hlater hothers with
          ⟨hlast, hall⟩ | ⟨hclosed, hreleased, hempty⟩ | ⟨error, htold⟩
        · exact .chained hlast hall
        · exact .drained hclosed hreleased hempty
        · refine .failed error ?_
          rw [run]
          simp only [Effect.contents_append]
          exact List.mem_append_right _ htold
      · rw [run]
        simp only [run_closed hclosed]
        exact .drained hclosed hreleased hempty
      · refine .failed error ?_
        rw [run]
        simp only [Effect.contents_append]
        exact List.mem_append_left _ htold

/-- A session that still accepts requests has told of no error. -/
theorem not_told_of_accepts {session : Session} {stimuli : List Stimulus}
    (h : (session.run stimuli).1.accepts = true) (error : SessionError) :
    .error error ∉ Effect.contents (session.run stimuli).2 := by
  intro htold
  rw [not_accepts_of_closed ((orderly_run stimuli session).closed_of_error htold)] at h
  exact absurd h Bool.false_ne_true

theorem accepts_of_start {hasRuntime : Bool} {config : SessionConfig} {session : Session}
    (hstart : start hasRuntime config = .ok session) : session.accepts = true := by
  rw [accepts, phase_of_start hstart]
  decide

/-- A session that was started and has not stopped is chained. -/
theorem chained_run {hasRuntime : Bool} {config : SessionConfig} {session : Session}
    {stimuli : List Stimulus} (hstart : start hasRuntime config = .ok session)
    (haccepts : (session.run stimuli).1.accepts = true) : (session.run stimuli).1.Chained := by
  -- A session that was closed would not accept anything any more.
  have hopen : .close ∉ stimuli := by
    intro hmem
    have hphase : session.phase ≠ .closing := by
      rw [phase_of_start hstart]
      simp only [ne_eq, reduceCtorEq, not_false_eq_true]
    rw [not_accepts_of_closed (closed_of_close stimuli session hphase hmem)] at haccepts
    exact absurd haccepts Bool.false_ne_true
  rcases left_run stimuli session (chained_of_start hstart) (accepts_of_start hstart) hopen with
    ⟨_, hchained⟩ | ⟨hclosed, _, _⟩ | ⟨error, htold⟩
  · exact hchained
  · rw [not_accepts_of_closed hclosed] at haccepts
    exact absurd haccepts Bool.false_ne_true
  · exact absurd htold (not_told_of_accepts haccepts error)

/-- A write that is done makes place for the next. -/
theorem goesOn_wrote {session : Session} {request : Request} {others : List Request}
    (h : session.Chained) (hphase : session.phase = .connected)
    (hpending : session.queue.pending = request :: others) :
    ({ session with queue := ⟨others, false⟩ }.record request).GoesOn
      (session.step (.wrote (.ok ()))) := by
  have hflight : session.queue.inFlight = true := by
    refine h.busy.2 ⟨hphase, ?_⟩
    rw [hpending]
    exact List.cons_ne_nil request others
  have hcomplete : session.queue.complete = (some request, ⟨others, false⟩) := by
    rw [Outbound.complete, if_pos hflight, hpending]
    rfl
  rw [step_of_connected hphase, stepConnected, hcomplete]
  exact goesOn_proceed _ (fun hnone => absurd hnone Bool.false_ne_true) hphase

/-- An answer after which nothing is left to write, and with which nothing was
    told: a session that is held goes on, and any other has stopped. -/
structure Emptied (session : Session) (answer : Session × List Effect) : Prop where
  empty : answer.1.queue.pending = []
  silent : Effect.contents answer.2 = []
  held : answer.1.held = session.held
  phase : answer.1.phase = if session.held then .connected else .closed

/-- A connected session comes to the end of its chain after as many writes as
    it has requests. -/
theorem run_writes (count : Nat) :
    ∀ session : Session, session.Chained → session.phase = .connected →
      session.queue.pending.length = count →
      session.Emptied (session.run (List.replicate count (.wrote (.ok ())))) := by
  induction count with
  | zero =>
      intro session h hphase hcount
      have hempty := List.eq_nil_of_length_eq_zero hcount
      have hheld : session.held = true := by
        rw [← Bool.not_eq_false]
        exact fun hreleased => h.needed hreleased hempty
      refine ⟨hempty, rfl, rfl, ?_⟩
      rw [hheld]
      exact hphase
  | succ count ih =>
      intro session h hphase hcount
      rcases hpending : session.queue.pending with _ | ⟨request, others⟩
      · rw [hpending] at hcount
        exact absurd hcount (Nat.succ_ne_zero count).symm
      · have hwrote := goesOn_wrote h hphase hpending
        have hlength : (session.step (.wrote (.ok ()))).1.queue.pending.length = count := by
          rw [hpending, List.length_cons] at hcount
          rw [hwrote.pending]
          exact Nat.succ.inj hcount
        rw [List.replicate_succ, run]
        -- The write that ends begins the next one, unless it was the last of a
        -- released session.
        rcases hwrote.left with ⟨hconnected, hchained⟩ | ⟨hclosed, hreleased, hempty⟩
        · have hlater := ih _ hchained hconnected hlength
          refine ⟨hlater.empty, ?_, hlater.held.trans hwrote.held, ?_⟩
          · simp only [Effect.contents_append, hwrote.silent, hlater.silent, List.append_nil]
          · rw [hlater.phase, hwrote.held]
            rfl
        · -- That was the last write of a session that nobody holds.
          have hreleased : session.held = false := hreleased
          simp only [run_closed hclosed, List.append_nil]
          refine ⟨hwrote.pending.trans hempty, hwrote.silent, hwrote.held, ?_⟩
          rw [hreleased]
          exact hclosed

/-- What is still to happen to a session if nothing goes wrong. -/
def ahead (session : Session) : List Stimulus :=
  let writes := List.replicate session.queue.pending.length (.wrote (.ok ()))
  match session.phase with
  | .disconnected => .begin :: .dialed (.ok ()) :: writes
  | .connecting => .dialed (.ok ()) :: writes
  | .connected => writes
  | .closing => []
  | .closed => []

/-- The answer to the dial and one write for each request empty a session that
    connects. -/
theorem run_dialed (session : Session) (h : session.Chained)
    (hphase : session.phase = .connecting) : session.Emptied (session.run (.dialed (.ok ()) ::
      List.replicate session.queue.pending.length (.wrote (.ok ())))) := by
  have hdial := goesOn_answerDial h
  have hstep : session.step (.dialed (.ok ())) = session.answerDial (.ok ()) := by
    unfold step
    rw [hphase]
  rw [run, hstep]
  rcases hdial.left with ⟨hconnected, hchained⟩ | ⟨_, hreleased, hempty⟩
  · have hwrites := run_writes _ _ hchained hconnected rfl
    rw [hdial.pending] at hwrites
    refine ⟨hwrites.empty, ?_, hwrites.held.trans hdial.held, ?_⟩
    · simp only [Effect.contents_append, hdial.silent, hwrites.silent, List.append_nil]
    · rw [hwrites.phase, hdial.held]
  · exact absurd hempty (h.needed hreleased)

/-- The chain leads to its end, from wherever a session is. -/
theorem run_ahead {session : Session} (h : session.Chained) (haccepts : session.accepts = true) :
    session.Emptied (session.run session.ahead) := by
  unfold ahead
  cases hphase : session.phase with
  | disconnected =>
      have hstep : session.step .begin =
          ({ session with phase := .connecting }, [.enter .connecting]) := by
        unfold step
        rw [hphase]
      have hunconnected : session.phase ≠ .connected := by
        rw [hphase]
        simp only [ne_eq, reduceCtorEq, not_false_eq_true]
      have hdialed := run_dialed { session with phase := .connecting }
        (chained_begin h hunconnected) rfl
      simp only []
      rw [run, hstep]
      exact ⟨hdialed.empty, hdialed.silent, hdialed.held, hdialed.phase⟩
  | connecting => exact run_dialed session h hphase
  | connected => exact run_writes _ session h hphase rfl
  -- The phases in which nothing is accepted are ruled out.
  | closing =>
      unfold accepts at haccepts
      rw [hphase] at haccepts
      exact absurd haccepts (by decide)
  | closed =>
      unfold accepts at haccepts
      rw [hphase] at haccepts
      exact absurd haccepts (by decide)

end Session

end RespBus
