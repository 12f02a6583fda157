import RespBus.Proofs.Session.Chain

/-!
# Sessions at Rest

A session is at rest when nothing happens any more until somebody does
something: it is connected and has nothing left to write, or it has stopped
with nothing left to write. `perform` waits for that, so a session that is at
rest before an action is at rest after it.

Between two rests the balance of the ledger has no terms left over. What was
accepted was written, all of it, and what was written was recorded. For the
requests of one action that is `atRest_perform`. The way there leads along the
chain of writes: requests that are sent leave it whole, and at its end the
session is at rest.

## Main definitions

* `Session.AtRest`: Nothing is left to do.
* `Session.taken`: The requests that a session accepts of an action.

## Theorems

* `Session.atRest_run`: Without new requests a session stays at rest.
* `Session.chained_run_send`: Requests sent together leave the chain whole.
* `Session.Emptied.atRest`: The end of the chain is a rest.
* `Session.atRest_perform`: An action on a session at rest leaves it at rest,
  with the requests taken written and recorded in order.
-/

namespace RespBus

namespace Session

/-- Nothing is observed along a run if no stimulus in it can be observed. -/
theorem along_eq_nil {α : Type} {observe : Session → Stimulus → Option α}
    (stimuli : List Stimulus)
    (h : ∀ stimulus ∈ stimuli, ∀ session, observe session stimulus = none) :
    ∀ session : Session, session.along observe stimuli = [] := by
  induction stimuli with
  | nil =>
      intro session
      rfl
  | cons stimulus stimuli ih =>
      intro session
      rw [along, h stimulus List.mem_cons_self,
        ih fun other hother => h other (List.mem_cons_of_mem _ hother)]
      rfl

-- As long as no write goes wrong, the writes that end are those that go well.
theorem settled_eq_written (stimuli : List Stimulus)
    (h : ∀ stimulus ∈ stimuli, ∀ loss, stimulus ≠ .wrote (.error loss)) (session : Session) :
    session.settled stimuli = session.written stimuli := by
  refine along_congr stimuli session fun before stimulus after heq => ?_
  have hmem : stimulus ∈ stimuli := by
    rw [heq]
    exact List.mem_append_right before List.mem_cons_self
  cases stimulus with
  | wrote outcome =>
      cases outcome with
      | ok done => rfl
      | error loss => exact absurd rfl (h _ hmem loss)
  | _ => rfl

/-- Nothing is left to do. -/
structure AtRest (session : Session) : Prop where
  queue : session.queue = {}
  phase : session.phase = .connected ∨ session.phase = .closed
  held : session.phase = .connected → session.held = true

/-- A connected session at rest has nothing to write, and is held. -/
theorem AtRest.chained {session : Session} (h : session.AtRest)
    (hphase : session.phase = .connected) : session.Chained where
  busy := by
    rw [h.queue]
    exact ⟨fun hflight => absurd hflight Bool.false_ne_true, fun hsome => absurd rfl hsome.2⟩
  needed hreleased := by
    rw [h.held hphase] at hreleased
    exact absurd hreleased.symm Bool.false_ne_true

/-- To be closed with an empty queue is to be at rest. -/
theorem atRest_of_closed {session after : Session} (h : session.AtRest)
    (hqueue : after.queue = session.queue) (hphase : after.phase = .closed) : after.AtRest where
  queue := hqueue.trans h.queue
  phase := Or.inr hphase
  held hconnected := by
    rw [hphase] at hconnected
    exact absurd hconnected (by decide)

/-- Reading bytes leaves a session at rest. -/
theorem atRest_receive {session : Session} (h : session.AtRest) (chunk : Bytes) :
    (session.receive chunk).1.AtRest := by
  have hqueue := (queue_receive session chunk).1
  unfold receive at hqueue ⊢
  rcases hpush : session.framer.push chunk with ⟨fault | frames, framer⟩
  · exact atRest_of_closed h rfl rfl
  · rw [hpush] at hqueue
    have hphase := (contents_creditAll { session with framer } frames).2.2
    have hheld := held_creditAll frames { session with framer }
    refine ⟨hqueue.trans h.queue, ?_, ?_⟩
    · simp only [hphase]
      exact h.phase
    · simp only [hphase, hheld]
      exact h.held

/-- Without a new request a session stays at rest, or stops. -/
theorem atRest_step {session : Session} (h : session.AtRest) {stimulus : Stimulus}
    (hsend : ∀ request, stimulus ≠ .send request) : (session.step stimulus).1.AtRest := by
  rcases h.phase with hphase | hphase
  · rw [step_of_connected hphase]
    cases stimulus with
    | send request => exact absurd rfl (hsend request)
    | wrote outcome =>
        -- There is no write that could have ended.
        have hnone : session.queue.complete = (none, session.queue) := by
          rw [h.queue]
          rfl
        cases outcome <;>
          (rw [stepConnected, hnone]
           exact h)
    | read chunk => exact atRest_receive h chunk
    | release =>
        -- A session that is released at rest is drained already.
        have hdone : session.queue.pending = [] := by rw [h.queue]
        rw [stepConnected, proceed, if_pos ⟨rfl, hdone⟩]
        exact atRest_of_closed h rfl rfl
    | lost loss => exact atRest_of_closed h rfl rfl
    | close => exact atRest_of_closed h rfl rfl
    | _ => exact h
  · rw [step_of_stopped (not_accepts_of_closed hphase)]
    exact h

/-- A session stays at rest until a request is sent. -/
theorem atRest_run (stimuli : List Stimulus)
    (hsend : ∀ stimulus ∈ stimuli, ∀ request, stimulus ≠ .send request) :
    ∀ session : Session, session.AtRest → (session.run stimuli).1.AtRest := by
  induction stimuli with
  | nil =>
      intro session h
      exact h
  | cons stimulus stimuli ih =>
      intro session h
      have hfirst := atRest_step h (hsend stimulus List.mem_cons_self)
      exact ih (fun other hother => hsend other (List.mem_cons_of_mem _ hother)) _ hfirst

/-- Requests that are sent together wait in order, and leave the session
    connected. -/
theorem chained_run_send (requests : List Request) :
    ∀ session : Session, session.Chained → session.phase = .connected →
      (session.run (requests.map .send)).1.Chained ∧
        (session.run (requests.map .send)).1.phase = .connected := by
  induction requests with
  | nil =>
      intro session h hphase
      exact ⟨h, hphase⟩
  | cons request requests ih =>
      intro session h hphase
      have hsome : session.queue.pending ++ [request] ≠ [] :=
        List.append_ne_nil_of_right_ne_nil _ (List.cons_ne_nil request [])
      rcases chained_startWrite { session with queue := session.queue.enqueue request }
        (Outbound.passes_enqueue h.sound request).sound hphase fun _ => hsome with
        ⟨hchained, hconnected, _, _⟩
      rw [List.map_cons, run, step_of_connected hphase, stepConnected]
      exact ih _ hchained hconnected

/-- A session whose queue was emptied is at rest, connected or closed. -/
theorem Emptied.atRest {session : Session} {answer : Session × List Effect}
    (h : session.Emptied answer) (hsound : answer.1.queue.Sound) : answer.1.AtRest where
  queue := Outbound.eq_empty hsound h.empty
  phase := by
    -- An emptied session is connected if it is held, and closed if it is not.
    rw [h.phase]
    cases session.held with
    | true => exact Or.inl rfl
    | false => exact Or.inr rfl
  held hconnected := by
    rw [h.phase] at hconnected
    rw [h.held]
    cases hheld : session.held with
    | true => rfl
    | false =>
        rw [hheld] at hconnected
        exact absurd hconnected (by simp only [Bool.false_eq_true, if_false, reduceCtorEq,
          not_false_eq_true])

/-- The requests that a session accepts of an action. -/
def taken (session : Session) (action : Action) : List Request :=
  session.accepted (action.stimuli session.framer.mode.readSize)

/-- The stimuli that an action comes to, with the writes that follow. -/
def performed (session : Session) (action : Action) : List Stimulus :=
  let stimuli := action.stimuli session.framer.mode.readSize
  stimuli ++ List.replicate (session.run stimuli).1.queue.pending.length (.wrote (.ok ()))

/-- To perform an action is to run its stimuli, and the writes they lead to. -/
theorem perform_eq_run (session : Session) (action : Action) :
    session.perform action = session.run (session.performed action) := by
  rw [perform, performed, run_append]
  rfl

theorem perform_nothing {session : Session} (h : session.queue = {}) :
    session.perform (.send []) = (session, []) := by
  unfold perform flush
  simp only [Action.stimuli, List.map_nil, run, h]
  rfl

/-- No write goes wrong while an action is performed. -/
theorem not_misses_performed (session : Session) (action : Action) :
    ∀ stimulus ∈ session.performed action, ∀ loss, stimulus ≠ .wrote (.error loss) := by
  intro stimulus hstimulus loss heq
  rw [heq, performed, List.mem_append] at hstimulus
  rcases hstimulus with hstimulus | hstimulus
  · cases action with
    | send requests =>
        rcases List.mem_map.1 hstimulus with ⟨request, _, hrequest⟩
        exact absurd hrequest (by simp only [reduceCtorEq, not_false_eq_true])
    | deliver data =>
        rcases List.mem_map.1 hstimulus with ⟨chunk, _, hchunk⟩
        exact absurd hchunk (by simp only [reduceCtorEq, not_false_eq_true])
    | _ => exact absurd (List.mem_singleton.1 hstimulus) (by
        simp only [reduceCtorEq, not_false_eq_true])
  · exact absurd (List.eq_of_mem_replicate hstimulus) (by
      simp only [Stimulus.wrote.injEq, reduceCtorEq, not_false_eq_true])

-- Only an action that sends brings new requests.
theorem not_send_of_mem_stimuli {action : Action} (haction : ∀ requests, action ≠ .send requests)
    (readSize : Nat) :
    ∀ stimulus ∈ action.stimuli readSize, ∀ request, stimulus ≠ .send request := by
  intro stimulus hstimulus request heq
  rw [heq] at hstimulus
  cases action with
  | send requests => exact absurd rfl (haction requests)
  | deliver data =>
      rcases List.mem_map.1 hstimulus with ⟨chunk, _, hchunk⟩
      exact absurd hchunk (by simp only [reduceCtorEq, not_false_eq_true])
  | _ => exact absurd (List.mem_singleton.1 hstimulus) (by
      simp only [reduceCtorEq, not_false_eq_true])

/-- Only requests that are sent can be taken. -/
theorem taken_of_not_send {action : Action} (h : ∀ requests, action ≠ .send requests)
    (session : Session) : session.taken action = [] := by
  refine along_eq_nil _ (fun stimulus hstimulus after => ?_) session
  have hsend := not_send_of_mem_stimuli h _ stimulus hstimulus
  cases stimulus with
  | send request => exact absurd rfl (hsend request)
  | _ => rfl

-- The writes that follow an action hand in nothing.
theorem accepted_performed (session : Session) (action : Action) :
    session.accepted (session.performed action) = session.taken action := by
  have hwrites : ∀ count (after : Session),
      after.along accepted? (List.replicate count (.wrote (.ok ()))) = [] := by
    intro count
    refine along_eq_nil _ fun stimulus hstimulus _ => ?_
    rw [List.eq_of_mem_replicate hstimulus]
    rfl
  rw [accepted, performed, along_append, hwrites, List.append_nil]
  rfl

/-- An action leaves a session at rest: all that it sent is written. -/
theorem atRest_performed {session : Session} (h : session.AtRest) (action : Action) :
    (session.run (session.performed action)).1.AtRest := by
  rw [performed, run_append]
  by_cases hsends : ∃ requests, action = .send requests
  · rcases hsends with ⟨requests, rfl⟩
    rcases h.phase with hphase | hphase
    · -- As many writes follow as there are requests that wait.
      rcases chained_run_send requests session (h.chained hphase) hphase with
        ⟨hchained, hconnected⟩
      have hwrites := run_writes _ _ hchained hconnected rfl
      exact hwrites.atRest (passes_run _ _ hchained.sound).sound
    · have hrun : session.run ((Action.send requests).stimuli
          session.framer.mode.readSize) = (session, []) := run_closed hphase _
      rw [hrun, h.queue]
      exact h
  · have hsend := not_send_of_mem_stimuli (fun requests heq => hsends ⟨requests, heq⟩)
      session.framer.mode.readSize
    have hrest := atRest_run _ hsend session h
    rw [hrest.queue]
    exact hrest

/-- Only a delivery brings bytes. -/
theorem reads_performed {session : Session} {action : Action}
    (h : ∀ data, action ≠ .deliver data) : Stimulus.reads (session.performed action) = [] := by
  refine List.filterMap_eq_nil_iff.2 fun stimulus hstimulus => ?_
  rw [performed, List.mem_append] at hstimulus
  rcases hstimulus with hstimulus | hstimulus
  · cases action with
    | send requests =>
        rcases List.mem_map.1 hstimulus with ⟨request, _, rfl⟩
        rfl
    | deliver data => exact absurd rfl (h data)
    | _ =>
        rw [List.mem_singleton.1 hstimulus]
        rfl
  · rw [List.eq_of_mem_replicate hstimulus]
    rfl

/-- An action on a session at rest leaves it at rest. The requests accepted of
    it are then written, each exactly once, and recorded, in order. -/
theorem atRest_perform {session : Session} (h : session.AtRest) (action : Action) :
    (session.perform action).1.AtRest ∧
      Effect.writes (session.perform action).2 =
        (session.taken action).map Request.payload ∧
      ∃ retired, session.Records (session.taken action) retired (session.perform action).1 ∧
        ((∀ data, action ≠ .deliver data) → retired = []) := by
  have hsound : session.queue.Sound := by
    rw [h.queue]
    exact Outbound.sound_empty
  have hrest := atRest_performed h action
  have hpasses := passes_run (session.performed action) session hsound
  have hwritten := settled_eq_written _ (not_misses_performed session action) session
  rcases records_run (session.performed action) session with ⟨retired, hrecords, hunread⟩
  -- With nothing left on either side, what was accepted is what was written.
  have hconserved := hpasses.conserved
  rcases hpasses.begun with ⟨begun, hbegun, hwrites⟩
  have hidle : ({} : Outbound).writing = [] := rfl
  rw [h.queue, hrest.queue, List.nil_append, List.append_nil] at hconserved
  rw [h.queue, hrest.queue, hidle, List.nil_append, List.append_nil] at hbegun
  have hall : begun = session.taken action := by
    rw [← accepted_performed session action, hconserved]
    exact hbegun
  rw [← hwritten, ← hconserved, accepted_performed session action] at hrecords
  rw [perform_eq_run]
  refine ⟨hrest, by rw [hwrites, hall], retired, hrecords, fun hother => ?_⟩
  exact hunread (reads_performed hother)

end Session

end RespBus
