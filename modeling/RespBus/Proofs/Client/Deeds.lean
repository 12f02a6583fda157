import RespBus.Proofs.Client.Starting
import RespBus.Proofs.Client.Wires
import RespBus.Proofs.Session.Rest

/-!
# What a Client Accomplishes

A deed is what somebody does to a client in one go: a few operations are
called, or something happens to one of the sessions. After it the client
comes to rest. With `stages_run` a wire holds a front part of what was
accepted, however things are timed; a client at rest has nothing left that
waits and nothing that failed, so its wires hold all of it. Without the rest
they need not. A session that is closed drops what it has accepted and not yet
written, and `decode_dismissed` has two operations of which at most one is read.

To one session a deed is one action, and the other sessions do not come into
it. So `accomplished_undertakeAll` is an induction over actions of a session
at rest. A session that has closed accepts nothing, and to call an operation
that belongs to it changes nothing.

## Main definitions

* `Client.Deed`: What is done to a client in one go.
* `Client.undertake`: A deed, until the client is idle.
* `Client.accomplished`: The operations that a session accepts in deeds.
* `Client.Up`: All connections are up and nothing was asked for yet.

## Theorems

* `Client.seen_undertake`: A deed is one action on each of the sessions.
* `Client.accomplished_undertakeAll`: What was accepted is written and
  recorded.
* `Client.up_opened`: A client whose dials succeed is up.
* `Client.call_closed`: A call on a closed session changes nothing.
* `Client.recorded_run`: The origins recorded are those of what was written.
* `Client.decode_wires`: A client puts the intended commands on the intended
  wires.
* `Client.decode_dismissed`: Operations that are accepted and never written.
-/

namespace RespBus

namespace Client

/-- What is done to a client in one go. -/
inductive Deed where
  /-- The user calls operations without waiting in between. -/
  | call (operations : List Operation)
  /-- The user or a peer does something to one session. -/
  | act (role : Role) (action : Action)

namespace Deed

/-- The operations that are called. -/
def operations : Deed → List Operation
  | call operations => operations
  | act _ _ => []

/-- Deeds in which nobody but an operation sends, and every operation can be
    read. -/
structure Facade (names : Namespaces) (deeds : List Deed) : Prop where
  own : ∀ role requests, .act role (.send requests) ∉ deeds
  fits : ∀ deed ∈ deeds, ∀ operation ∈ deed.operations, (operation.intent names).Fits

/-- What a deed comes to for the session of a role. To send no request is to
    do nothing. -/
def action (names : Namespaces) (role : Role) : Deed → Action
  | call operations =>
    .send (operations.filterMap fun operation =>
      if operation.role = role then some (operation.request names) else none)
  | act other action => if other = role then action else .send []

end Deed

/-- The answer to a deed until the client is idle. -/
def undertake (client : Client) : Deed → Client × List (Role × Effect)
  | .call operations =>
    let (after, effects) := client.run (operations.map .call)
    -- Nothing more is sent, but every session writes what waits.
    let (after, later) := after.actAll (.send [])
    (after, effects ++ later)
  | .act role action => client.act role action

/-- The answer to deeds, each until the client is idle. -/
def undertakeAll (client : Client) : List Deed → Client × List (Role × Effect)
  | [] => (client, [])
  | deed :: deeds =>
    let (after, effects) := client.undertake deed
    let (after, later) := after.undertakeAll deeds
    (after, effects ++ later)

/-- The operations meant for the session of a role that are accepted in deeds,
    in order. -/
def accomplished (role : Role) : Client → List Deed → List Operation
  | _, [] => []
  | client, deed :: deeds =>
    client.routed role (deed.operations.map .call) ++
      accomplished role (client.undertake deed).1 deeds

theorem namespaces_undertake (client : Client) (deed : Deed) :
    (client.undertake deed).1.namespaces = client.namespaces := by
  cases deed with
  | call operations =>
      have hall := namespaces_actAll (client.run (operations.map .call)).1 (.send [])
      exact hall.trans (namespaces_run _ client)
  | act role action => exact namespaces_act client role action

/-- The calls of a deed come to a session as one action that sends. -/
theorem stimuli_calls (names : Namespaces) (role : Role) (operations : List Operation) :
    stimuli names role (operations.map .call) =
      (Deed.action names role (.call operations)).stimuli 0 := by
  simp only [stimuli, Deed.action, Action.stimuli, List.filterMap_map, List.map_filterMap]
  congr 1
  funext operation
  simp only [Function.comp_apply, Move.stimulus?]
  by_cases hrole : operation.role = role
  · rw [if_pos hrole, if_pos hrole]
    rfl
  · rw [if_neg hrole, if_neg hrole]
    rfl

/-- A deed is one action on each of the sessions. -/
theorem seen_undertake {client : Client} {role : Role}
    (hqueue : (client.session role).queue = {}) (deed : Deed) :
    seen role (client.undertake deed) =
      (client.session role).perform (deed.action client.namespaces role) := by
  cases deed with
  | call operations =>
      rcases seen_eq_iff.1 (seen_run role (operations.map .call) client) with
        ⟨hsession, heffects⟩
      have hall := seen_actAll (client.run (operations.map .call)).1 role (.send [])
      -- The calls go out first, and then all sessions write what they have.
      rw [stimuli_calls] at hsession heffects
      rw [hsession] at hall
      have hboth : seen role (client.undertake (.call operations)) =
          ((seen role ((client.run (operations.map .call)).1.actAll (.send []))).1,
            effectsOf role (client.run (operations.map .call)).2 ++
              (seen role ((client.run (operations.map .call)).1.actAll (.send []))).2) := by
        rw [undertake, seen, effectsOf_append]
        rfl
      rw [hboth, hall, heffects]
      rfl
  | act other action =>
      rw [undertake, seen_act, Deed.action]
      by_cases hrole : other = role
      · rw [if_pos hrole, if_pos hrole]
      · -- To the other sessions a deed is to send nothing.
        rw [if_neg hrole, if_neg hrole, Session.perform_nothing hqueue]

/-- What a session takes of a deed are the requests for what is routed to it. -/
theorem taken_action {client : Client} {role : Role} {deed : Deed}
    (hown : ∀ requests, deed ≠ .act role (.send requests)) :
    (client.session role).taken (deed.action client.namespaces role) =
      (client.routed role (deed.operations.map .call)).map
        (Operation.request client.namespaces) := by
  cases deed with
  | call operations =>
      have hown : ∀ other request, Move.happen other (.send request) ∉ operations.map .call := by
        intro other request hmem
        rcases List.mem_map.1 hmem with ⟨operation, _, hmove⟩
        exact absurd hmove (by simp only [reduceCtorEq, not_false_eq_true])
      have haccepted := accepted_stimuli role (operations.map .call) hown client
      rw [stimuli_calls] at haccepted
      exact haccepted
  | act other action =>
      rw [Deed.action]
      by_cases hrole : other = role
      · -- An action of another kind takes no requests.
        rw [if_pos hrole]
        refine Session.taken_of_not_send (fun requests heq => ?_) _
        exact hown requests (by rw [hrole, heq])
      · rw [if_neg hrole]
        rfl

/-- Bytes reach a session only if they are delivered to it. -/
theorem eq_act_of_action {names : Namespaces} {role : Role} {deed : Deed} {data : Bytes}
    (h : deed.action names role = .deliver data) : deed = .act role (.deliver data) := by
  cases deed with
  | call operations => exact absurd h (by simp only [Deed.action, reduceCtorEq, not_false_eq_true])
  | act other action =>
      rw [Deed.action] at h
      by_cases hrole : other = role
      · rw [if_pos hrole] at h
        rw [hrole, h]
      · rw [if_neg hrole] at h
        exact absurd h (by simp only [reduceCtorEq, not_false_eq_true])

/-- What was accomplished was called, and so is within the limits. -/
theorem accomplished_fits {names : Namespaces} (role : Role) (deeds : List Deed)
    (h : ∀ deed ∈ deeds, ∀ operation ∈ deed.operations, (operation.intent names).Fits) :
    ∀ client : Client, ∀ operation ∈ client.accomplished role deeds,
      (operation.intent names).Fits := by
  induction deeds with
  | nil =>
      intro client operation hmem
      exact absurd hmem List.not_mem_nil
  | cons deed deeds ih =>
      intro client operation hmem
      rw [accomplished, List.mem_append] at hmem
      rcases hmem with hmem | hmem
      · -- What the first deed accomplishes it has called itself.
        rcases List.mem_map.1 (mem_of_mem_routed _ client hmem).2 with ⟨found, hfound, heq⟩
        rw [Move.call.injEq] at heq
        exact h deed List.mem_cons_self operation (heq ▸ hfound)
      · exact ih (fun other hother => h other (List.mem_cons_of_mem _ hother)) _ operation hmem

/-- A session at rest stays at rest over deeds. Everything accepted is then
    written and recorded, in order. The induction is on the deeds, and each of
    them is an action of the session. -/
theorem accomplished_undertakeAll {names : Namespaces} (role : Role) (deeds : List Deed)
    (hown : ∀ requests, .act role (.send requests) ∉ deeds) :
    ∀ client : Client, client.namespaces = names → (client.session role).AtRest →
      ((client.undertakeAll deeds).1.session role).AtRest ∧
        Effect.writes (effectsOf role (client.undertakeAll deeds).2) =
          ((client.accomplished role deeds).map (Operation.request names)).map
            Request.payload ∧
        ∃ retired, (client.session role).Records
            ((client.accomplished role deeds).map (Operation.request names)) retired
            ((client.undertakeAll deeds).1.session role) ∧
          ((∀ data, .act role (.deliver data) ∉ deeds) → retired = []) := by
  induction deeds with
  | nil =>
      intro client _ h
      exact ⟨h, rfl, [], Session.Records.keep rfl rfl, fun _ => rfl⟩
  | cons deed deeds ih =>
      intro client hnames h
      have hfirst : ∀ requests, deed ≠ .act role (.send requests) := fun requests heq =>
        hown requests (heq ▸ List.mem_cons_self)
      have hothers : ∀ requests, .act role (.send requests) ∉ deeds := fun requests hmem =>
        hown requests (List.mem_cons_of_mem _ hmem)
      rcases seen_eq_iff.1 (seen_undertake h.queue deed) with ⟨hsession, heffects⟩
      -- The induction goes from one rest to the next: the first deed leaves its
      -- session at rest, with all it took written.
      rcases Session.atRest_perform h (deed.action client.namespaces role) with
        ⟨hrest, hwrites, retired, hrecords, hunread⟩
      rw [← hsession] at hrest hrecords
      rw [← heffects] at hwrites
      rw [taken_action hfirst, hnames] at hwrites hrecords
      have hafter : (client.undertake deed).1.namespaces = names :=
        (namespaces_undertake client deed).trans hnames
      rcases ih hothers _ hafter hrest with
        ⟨hlast, hlater, retiredLater, hrecordsLater, hunreadLater⟩
      refine ⟨hlast, ?_, retired ++ retiredLater, ?_, fun hsilent => ?_⟩
      · rw [undertakeAll, accomplished]
        simp only [effectsOf_append, Effect.writes_append, List.map_append]
        rw [hwrites, hlater]
      · rw [accomplished, List.map_append]
        exact hrecords.trans hrecordsLater
      · have hdeed : ∀ data, deed.action client.namespaces role ≠ .deliver data :=
          fun data heq => hsilent data (eq_act_of_action heq ▸ List.mem_cons_self)
        rw [hunread hdeed, hunreadLater fun data hmem => hsilent data (List.mem_cons_of_mem _ hmem)]
        rfl

/-- The connection of each session is up, and nothing was asked for yet. -/
structure Up (client : Client) : Prop where
  phase : ∀ role, (client.session role).phase = .connected
  held : ∀ role, (client.session role).held = true
  queue : ∀ role, (client.session role).queue = {}
  awaiting : ∀ role, (client.session role).awaiting = []
  lastSent : ∀ role, (client.session role).lastSent = none

/-- The sessions of a client that is up are at rest. -/
theorem Up.atRest {client : Client} (h : client.Up) (role : Role) :
    (client.session role).AtRest where
  queue := h.queue role
  phase := Or.inl (h.phase role)
  held _ := h.held role

/-- All sessions dial, and all dials succeed. -/
def opening : List Move :=
  (Role.all.map fun role => .happen role .begin) ++
    Role.all.map fun role => .happen role (.dialed (.ok ()))

/-- A client that was started has the configured names and three new sessions. -/
theorem start_ok {hasRuntime : Bool} {config : ClientConfig} {client : Client}
    {running : List Session} (h : start hasRuntime config = (.ok client, running)) :
    client.namespaces = config.namespaces ∧
      ∀ role, ∃ label address, client.session role =
        { label, address, framer := .start config.framing } := by
  rw [eq_fresh_of_start h]
  refine ⟨rfl, fun role => ?_⟩
  rw [session_fresh]
  exact ⟨_, _, rfl⟩

/-- A client whose dials succeed is up, and works under the names of its
    configuration. -/
theorem up_opened {hasRuntime : Bool} {config : ClientConfig} {client : Client}
    {running : List Session} (h : start hasRuntime config = (.ok client, running)) :
    (client.run opening).1.Up ∧ (client.run opening).1.namespaces = config.namespaces := by
  rcases start_ok h with ⟨hnames, hsessions⟩
  have hopened : ∀ role, ∃ label address, (client.run opening).1.session role =
      { label, address, framer := .start config.framing, phase := .connected } := by
    intro role
    rcases hsessions role with ⟨label, address, hsession⟩
    -- Every session is told to begin and gets its answer.
    have hstimuli : stimuli client.namespaces role opening = [.begin, .dialed (.ok ())] := by
      cases role <;> rfl
    rcases seen_eq_iff.1 (seen_run role opening client) with ⟨hrun, _⟩
    rw [hstimuli, hsession] at hrun
    exact ⟨label, address, hrun⟩
  refine ⟨⟨?_, ?_, ?_, ?_, ?_⟩, (namespaces_run opening client).trans hnames⟩ <;>
    (intro role
     rcases hopened role with ⟨label, address, hsession⟩
     rw [hsession])

/-- A session that has closed takes nothing from the client. -/
theorem call_closed {client : Client} {operation : Operation}
    (h : (client.session operation.role).phase = .closed) :
    client.offer operation = .error .closed ∧
      client.step (.call operation) = (client, []) ∧
      client.perform operation = (client, []) := by
  have hstopped := Session.not_accepts_of_closed h
  have hnothing : client.withSession operation.role (client.session operation.role) = client :=
    withSession_session client operation.role
  refine ⟨?_, ?_, ?_⟩
  · rw [offer, Session.offer, if_neg (by rw [hstopped]; decide)]
  · rw [step, drive, Session.run_closed h]
    simp only [hnothing, List.map_nil]
  · rw [perform, act, Session.perform_eq_run, Session.run_closed h]
    simp only [hnothing, List.map_nil]

/-- The origins that are noted for operations are those they are meant to leave. -/
theorem origins_requests (names : Namespaces) (operations : List Operation) :
    (operations.map (Operation.request names)).map Request.origin =
      (operations.map (Operation.intent names)).map Operation.Intent.origin := by
  rw [List.map_map, List.map_map]
  exact List.map_congr_left fun operation _ => Operation.origin_request _ operation

/-- In a run from the start, the origins of the operations that were written are
    those that are recorded, and the last of them is the last request sent. -/
theorem recorded_run {client : Client} (h : client.Up) {role : Role} {moves : List Move}
    {done : List Operation}
    (hwritten : (client.session role).written (stimuli client.namespaces role moves) =
      done.map (Operation.request client.namespaces)) :
    let origins := (done.map (Operation.intent client.namespaces)).map Operation.Intent.origin
    let session := (client.run moves).1.session role
    (∃ retired, origins = retired ++ session.awaiting ∧
        ((∀ chunk, .happen role (.read chunk) ∉ moves) → retired = [])) ∧
      session.lastSent = origins.getLast? := by
  rcases Session.records_run (stimuli client.namespaces role moves) (client.session role) with
    ⟨retired, hrecords, hunread⟩
  have hawaiting := hrecords.awaiting
  have hlast := hrecords.lastSent
  rw [hwritten, origins_requests, ← (seen_eq_iff.1 (seen_run role moves client)).1]
    at hawaiting hlast
  rw [h.awaiting role, List.nil_append] at hawaiting
  rw [h.lastSent role, Option.or_none] at hlast
  refine ⟨⟨retired, hawaiting, fun hsilent => hunread ?_⟩, hlast⟩
  rw [Stimulus.reads, List.filterMap_eq_nil_iff]
  intro stimulus hmem
  rcases hchunk : stimulus.chunk? with _ | chunk
  · rfl
  · -- A read that reaches the session has happened to it.
    rw [Stimulus.eq_read_of_chunk hchunk] at hmem
    exact absurd (mem_of_mem_stimuli (fun request => by simp only [ne_eq, reduceCtorEq,
      not_false_eq_true]) hmem) (hsilent chunk)

/-- A client puts the intended commands on the intended wires. Whatever
    happens, what a session accepted was written in the order of the calls, but
    for at most one operation whose write did not come to a good end, and but for
    those that were left behind it. Its wire is read as the words of what was
    written. Of the unfinished one a front part may follow; it is read if that is
    all of it, and otherwise it is left over. The origins of what was written are
    those recorded. With nothing left to write and no write that failed, the wire
    is read as all that was accepted, and no byte is left over.

    After deeds it always comes to that, since each of them lets every session
    write what waits. A session accepts what is meant for it until it closes;
    after that, a call is answered so and changes nothing. -/
theorem decode_wires {client : Client} (h : client.Up) (role : Role) :
    (∀ moves, Facade client.namespaces moves →
      let session := (client.run moves).1.session role
      let replies := List.map fun operation => (operation.intent client.namespaces).reply
      (∃ done unfinished left, client.Stages role moves done unfinished left ∧
        (∀ wire, client.OnWire role moves wire →
          ∃ part, part <+: Call.pipeline (unfinished.map (Operation.call client.namespaces)) ∧
            wire = Call.pipeline (done.map (Operation.call client.namespaces)) ++ part ∧
            (part = Call.pipeline (unfinished.map (Operation.call client.namespaces)) →
              Reply.decodeAll wire = (replies (done ++ unfinished), [])) ∧
            (part ≠ Call.pipeline (unfinished.map (Operation.call client.namespaces)) →
              Reply.decodeAll wire = (replies done, part))) ∧
        let origins := (done.map (Operation.intent client.namespaces)).map Operation.Intent.origin
        (∃ retired, origins = retired ++ session.awaiting ∧
          ((∀ chunk, .happen role (.read chunk) ∉ moves) → retired = [])) ∧
        session.lastSent = origins.getLast?) ∧
      client.OnWire role moves (Effect.handed (effectsOf role (client.run moves).2)) ∧
      (session.queue.pending = [] → (∀ loss, .happen role (.wrote (.error loss)) ∉ moves) →
        ∀ wire, client.OnWire role moves wire →
          Reply.decodeAll wire = (replies (client.routed role moves), []))) ∧
    (∀ deeds, Deed.Facade client.namespaces deeds →
      let intents := (client.accomplished role deeds).map (Operation.intent client.namespaces)
      let session := (client.undertakeAll deeds).1.session role
      Reply.decodeAll (Effect.handed (effectsOf role (client.undertakeAll deeds).2)) =
          (intents.map Operation.Intent.reply, []) ∧
        (∃ retired, intents.map Operation.Intent.origin = retired ++ session.awaiting ∧
          ((∀ data, .act role (.deliver data) ∉ deeds) → retired = [])) ∧
        session.lastSent = (intents.map Operation.Intent.origin).getLast? ∧
        ∀ operation, (operation.intent client.namespaces).role = role →
          ((client.undertakeAll deeds).1.offer operation = .ok () ↔ session.phase ≠ .closed)) ∧
    ∀ (after : Client) (operation : Operation),
      (operation.intent after.namespaces).role = role → (after.session role).phase = .closed →
        after.offer operation = .error .closed ∧
          after.step (.call operation) = (after, []) ∧
          after.perform operation = (after, []) := by
  refine ⟨fun moves hmoves => ⟨?_, ?_, fun hempty hunfailed wire hwire => ?_⟩,
    fun deeds hdeeds => ?_, fun after operation hrole hclosed => ?_⟩
  · rcases stages_run (h.queue role) hmoves.own with ⟨done, unfinished, left, hstages⟩
    exact ⟨done, unfinished, left, hstages, fun wire => hstages.decode_wire hmoves,
      recorded_run h hstages.written⟩
  · rw [(seen_eq_iff.1 (seen_run role moves client)).2]
    exact Session.onWire_handed (h.queue role) _
  · rcases stages_run (h.queue role) hmoves.own with ⟨done, unfinished, left, hstages⟩
    -- Nothing waits and nothing failed, so nothing is unfinished and nothing is
    -- left.
    rcases hstages.eq_done hempty hunfailed with ⟨rfl, hall⟩
    rcases hstages.decode_wire hmoves hwire with ⟨part, hpart, _, hread, _⟩
    rw [hread (List.prefix_nil.1 hpart), hall, List.append_nil]
  · rcases accomplished_undertakeAll role deeds (hdeeds.own role) client rfl (h.atRest role) with
      ⟨hrest, hwrites, retired, hrecords, hunread⟩
    have hawaiting := hrecords.awaiting
    have hlast := hrecords.lastSent
    rw [h.awaiting role, List.nil_append, origins_requests] at hawaiting
    rw [h.lastSent role, origins_requests, Option.or_none] at hlast
    refine ⟨?_, ⟨retired, hawaiting, hunread⟩, hlast, fun operation hrole => ?_⟩
    · rw [Effect.handed_eq_flatten, hwrites, pipeline_eq_flatten, List.map_map]
      exact decode_operations (accomplished_fits role deeds hdeeds.fits client)
    · rw [Operation.role_intent] at hrole
      -- At rest a session is connected or closed, and only the former accepts
      -- anything.
      rw [offer_eq_ok_iff, hrole]
      constructor
      · intro haccepts hclosed
        rw [Session.not_accepts_of_closed hclosed] at haccepts
        exact absurd haccepts (by decide)
      · intro hopen
        exact Session.accepts_of_connected (hrest.phase.resolve_right hopen)
  · rw [Operation.role_intent] at hrole
    rw [← hrole] at hclosed
    exact call_closed hclosed

/-- A client under the default names, before its sessions dial. -/
def dialing : Client where
  namespaces := {}
  publisher := { label := "publisher", address := "127.0.0.1:6379", framer := .start default }
  menu := { label := "menu-subscriber", address := "127.0.0.1:6379", framer := .start default }
  notifications :=
    { label := "notifications", address := "127.0.0.1:6379", framer := .start default }

/-- The same client, with its connections up. -/
def opened : Client :=
  (dialing.run opening).1

/-- A message that spells a command, a loss, and a call after it. -/
def interrupted : List Deed :=
  [.call [.storeMessage "7" "*1\r\n$4\r\nPING\r\n", .subscribe "7"],
    .act .publisher (.lose .ended), .call [.ping, .unsubscribe "7"]]

/-- The client of the examples is up. -/
theorem opened_up : opened.Up ∧ opened.namespaces = {} := by
  have hstart : start true {} = (.ok dialing, [dialing.publisher, dialing.menu,
      dialing.notifications]) := by cbv
  exact up_opened hstart

theorem interrupted_facade : Deed.Facade opened.namespaces interrupted where
  own role requests hmem := by
    simp only [interrupted, List.mem_cons, List.not_mem_nil, or_false, reduceCtorEq,
      Deed.act.injEq, and_false] at hmem
  fits deed hdeed operation hoperation := by
    rw [opened_up.2]
    simp only [interrupted, List.mem_cons, List.not_mem_nil, or_false] at hdeed
    rcases hdeed with rfl | rfl | rfl <;>
      simp only [Deed.operations, List.mem_cons, List.not_mem_nil, or_false] at hoperation
    · rcases hoperation with rfl | rfl <;> exact ⟨by decide +kernel, by decide⟩
    · rcases hoperation with rfl | rfl <;> exact ⟨by decide +kernel, by decide⟩

/-- Two operations are called, and the user closes the session before the first of
    them is written. -/
def dismissed : List Move :=
  [.call .fetchMenu, .call .ping, .happen .publisher .close]

theorem dismissed_facade : Facade opened.namespaces dismissed where
  own role request hmem := by
    simp only [dismissed, List.mem_cons, List.not_mem_nil, or_false, reduceCtorEq,
      Move.happen.injEq, and_false] at hmem
  fits operation hoperation := by
    rw [opened_up.2]
    simp only [dismissed, List.mem_cons, List.not_mem_nil, or_false, reduceCtorEq,
      Move.call.injEq] at hoperation
    rcases hoperation with rfl | rfl <;> exact ⟨by decide +kernel, by decide⟩

theorem decode_wires_interrupted :
    opened.Up ∧ Deed.Facade opened.namespaces interrupted ∧
      Reply.decodeAll (Effect.handed (effectsOf .publisher (opened.undertakeAll interrupted).2)) =
        ([.array (["RPUSH", "messages:7", "*1\r\n$4\r\nPING\r\n"].map fun text =>
          .bulk (.ofText text))], []) ∧
      Reply.decodeAll
          (Effect.handed (effectsOf .notifications (opened.undertakeAll interrupted).2)) =
        ([.array (["SUBSCRIBE", "notifications:7"].map fun text => .bulk (.ofText text)),
          .array (["UNSUBSCRIBE", "notifications:7"].map fun text => .bulk (.ofText text))], []) ∧
      (opened.undertakeAll interrupted).1.offer .ping = .error .closed ∧
      Facade opened.namespaces dismissed ∧
      (∃ done unfinished left, opened.Stages .publisher dismissed done unfinished left) ∧
      opened.OnWire .publisher dismissed
        (Effect.handed (effectsOf .publisher (opened.run dismissed).2)) := by
  have hup := opened_up.1
  have hpublisher := (decode_wires hup .publisher).2.1 interrupted interrupted_facade
  have hnotifications := (decode_wires hup .notifications).2.1 interrupted interrupted_facade
  -- The loss closes the publisher only, so what is called after it is refused
  -- there and written elsewhere.
  have hclosed := (decode_wires hup .publisher).2.2 (opened.undertakeAll interrupted).1 .ping rfl
    (by cbv)
  rcases (decode_wires hup .publisher).1 dismissed dismissed_facade with
    ⟨⟨done, unfinished, left, hstages, _⟩, hwire, _⟩
  have hfirst : opened.accomplished .publisher interrupted =
      [.storeMessage "7" "*1\r\n$4\r\nPING\r\n"] := by cbv
  have hsecond : opened.accomplished .notifications interrupted =
      [.subscribe "7", .unsubscribe "7"] := by cbv
  rw [hfirst, opened_up.2] at hpublisher
  rw [hsecond, opened_up.2] at hnotifications
  exact ⟨hup, interrupted_facade, hpublisher.1, hnotifications.1, hclosed.1, dismissed_facade,
    ⟨done, unfinished, left, hstages⟩, hwire⟩

/-- Both operations are accepted while the connection is up, and whatever the peer
    receives before the session has closed, it does not read both. -/
theorem decode_dismissed :
    opened.Up ∧ Facade opened.namespaces dismissed ∧
      opened.routed .publisher dismissed = [.fetchMenu, .ping] ∧
      ((opened.run dismissed).1.session .publisher).phase = .closed ∧
      ∀ wire, opened.OnWire .publisher dismissed wire →
        Reply.decodeAll wire ≠
          ([["GET", "menu:current"], ["PING"]].map fun words =>
            .array (words.map fun text => .bulk (.ofText text)), []) := by
  refine ⟨opened_up.1, dismissed_facade, by cbv, by cbv, fun wire hwire hread => ?_⟩
  rcases stages_run (opened_up.1.queue .publisher) dismissed_facade.own with
    ⟨done, unfinished, left, hstages⟩
  -- Only the first of the two was ever handed over for writing.
  have hhanded : Effect.handed (effectsOf .publisher (opened.run dismissed).2) =
      Call.pipeline [⟨.get, [.ofText "menu:current"]⟩] := by cbv
  have hbegun := Call.pipeline_injective (hstages.handed.symm.trans hhanded)
  have hlength : done.length + unfinished.length = 1 := by
    rw [← List.length_append, ← List.length_map (Operation.call opened.namespaces), hbegun]
    rfl
  rcases hstages.decode_wire dismissed_facade hwire with ⟨part, _, _, hwhole, hcut⟩
  by_cases hpart : part = Call.pipeline (unfinished.map (Operation.call opened.namespaces))
  · have hreplies := congrArg (fun read => read.1.length) ((hwhole hpart).symm.trans hread)
    simp only [List.length_map, List.length_append, List.length_cons, List.length_nil] at hreplies
    omega
  · have hreplies := congrArg (fun read => read.1.length) ((hcut hpart).symm.trans hread)
    simp only [List.length_map, List.length_cons, List.length_nil] at hreplies
    omega

end Client

end RespBus
