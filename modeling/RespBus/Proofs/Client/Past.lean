import RespBus.Proofs.Client.Deeds
import RespBus.Proofs.Session.Past

/-!
# What a Client Says of its Past

A client that is asked whether it is connected asks its sessions one after
another. It waits for each until that is known, and the first that is not
connected answers for all. Meanwhile things go on happening, so the sessions
are not all asked at the same time. `ask` is such a call, with what happens
before each session is found to have an answer; the call that does not have to
wait is the one in which nothing does.

Each answer is the answer of one session in a run of that session alone, and
`Session.connected_run` has what it says. A client is therefore right and wrong
just as its sessions are. It names the first session that it finds stopped,
and the connection of that session may well have come up before.

## Main definitions

* `Client.ask`: A call that asks one session after another.
* `Client.waiting`: A call during which a session is lost.

## Theorems

* `Client.run_append`: A run can be cut at any point.
* `Client.ask_now`: A call that does not wait.
* `Client.ask_append_of_ok`, `Client.ask_append_of_not_ok`: A call cut at any
  session.
* `Client.ask_eq_ok_iff`, `Client.ask_eq_error_iff`: What a call comes to.
* `Client.connected_asked`: The answers of sessions and clients, and their past.
* `Client.connected_denied`: A connection that came up and is denied.
-/

namespace RespBus

namespace Client

theorem run_append (first second : List Move) :
    ∀ client : Client, client.run (first ++ second) =
      (((client.run first).1.run second).1,
        (client.run first).2 ++ ((client.run first).1.run second).2) := by
  induction first with
  | nil =>
      intro client
      rfl
  | cons move moves ih =>
      intro client
      simp only [List.cons_append, run, ih, List.append_assoc]

/-- The answer of a call that asks sessions one after another, each after some
    more moves; nothing while a session has no answer yet. -/
def ask (client : Client) : List (Role × List Move) → Option (Except SessionError Unit)
  | [] => some (.ok ())
  | (role, moves) :: later =>
    let client := (client.run moves).1
    match (client.session role).connected? with
    | some (.ok ()) => client.ask later
    | answer => answer

/-- After a good answer the next session is asked. -/
theorem ask_cons_of_ok {client : Client} {role : Role} {moves : List Move}
    {later : List (Role × List Move)}
    (h : ((client.run moves).1.session role).connected? = some (.ok ())) :
    client.ask ((role, moves) :: later) = (client.run moves).1.ask later := by
  simp only [ask, h]

/-- Any other answer is the answer of all. -/
theorem ask_cons_of_not_ok {client : Client} {role : Role} {moves : List Move}
    {later : List (Role × List Move)}
    (h : ((client.run moves).1.session role).connected? ≠ some (.ok ())) :
    client.ask ((role, moves) :: later) = ((client.run moves).1.session role).connected? := by
  rw [ask]
  split
  · rename_i hok
    exact absurd hok h
  · rfl

/-- A call that does not wait finds all sessions in the same state. -/
theorem ask_now (client : Client) (roles : List Role) :
    client.ask (roles.map fun role => (role, [])) = client.connectedOf? roles := by
  induction roles with
  | nil => rfl
  | cons role roles ih =>
      have hnothing : (client.run []).1 = client := rfl
      rw [List.map_cons, connectedOf?]
      split
      · rename_i hok
        rw [ask_cons_of_ok (by rw [hnothing, hok]), hnothing, ih]
      · rename_i hnot
        rw [ask_cons_of_not_ok (by rw [hnothing]; exact hnot), hnothing]

/-- The session that is asked after some calls and moves. -/
theorem session_run (client : Client) (role : Role) (moves : List Move) :
    (client.run moves).1.session role =
      ((client.session role).run (stimuli client.namespaces role moves)).1 :=
  (seen_eq_iff.1 (seen_run role moves client)).1

/-- A call goes on to more sessions just if those before are connected. -/
theorem ask_append_of_ok {before waits : List (Role × List Move)} :
    ∀ {client : Client}, client.ask before = some (.ok ()) →
      client.ask (before ++ waits) = (client.run (before.flatMap Prod.snd)).1.ask waits := by
  induction before with
  | nil =>
      intro client _
      rfl
  | cons wait before ih =>
      rcases wait with ⟨role, moves⟩
      intro client h
      by_cases hok : ((client.run moves).1.session role).connected? = some (.ok ())
      · rw [ask_cons_of_ok hok] at h
        rw [List.cons_append, ask_cons_of_ok hok, ih h, List.flatMap_cons, run_append]
      · rw [ask_cons_of_not_ok hok] at h
        exact absurd h hok

/-- And otherwise it has its answer from those. -/
theorem ask_append_of_not_ok {before waits : List (Role × List Move)} :
    ∀ {client : Client}, client.ask before ≠ some (.ok ()) →
      client.ask (before ++ waits) = client.ask before := by
  induction before with
  | nil =>
      intro client h
      exact absurd rfl h
  | cons wait before ih =>
      rcases wait with ⟨role, moves⟩
      intro client h
      by_cases hok : ((client.run moves).1.session role).connected? = some (.ok ())
      · rw [ask_cons_of_ok hok] at h ⊢
        rw [List.cons_append, ask_cons_of_ok hok, ih h]
      · rw [List.cons_append, ask_cons_of_not_ok hok, ask_cons_of_not_ok hok]

variable {client : Client} {waits : List (Role × List Move)}

/-- All are connected just if each is, at the time it is asked. -/
theorem ask_eq_ok_iff :
    client.ask waits = some (.ok ()) ↔
      ∀ before role moves after, waits = before ++ (role, moves) :: after →
        ((client.run (before.flatMap Prod.snd ++ moves)).1.session role).connected? =
          some (.ok ()) := by
  constructor
  · rintro h before role moves after rfl
    by_cases hbefore : client.ask before = some (.ok ())
    · rw [ask_append_of_ok hbefore] at h
      rw [run_append]
      -- A session that did not answer well would have given its own answer, and
      -- that is not a good one.
      by_contra hnot
      rw [ask_cons_of_not_ok hnot] at h
      exact hnot h
    · rw [ask_append_of_not_ok hbefore] at h
      exact absurd h hbefore
  · induction waits using List.reverseRecOn with
    | nil => exact fun _ => rfl
    | append_singleton waits wait ih =>
        rcases wait with ⟨role, moves⟩
        intro h
        have hbefore := ih fun before other others after heq =>
          h before other others (after ++ [(role, moves)]) (by rw [heq, List.append_assoc]; rfl)
        have hlast := h waits role moves [] rfl
        rw [run_append] at hlast
        rw [ask_append_of_ok hbefore, ask_cons_of_ok hlast, ask]

/-- An error is the answer of the first session that is not connected when it
    is asked. -/
theorem ask_eq_error_iff {error : SessionError} :
    client.ask waits = some (.error error) ↔
      ∃ before role moves after, waits = before ++ (role, moves) :: after ∧
        client.ask before = some (.ok ()) ∧
        ((client.run (before.flatMap Prod.snd ++ moves)).1.session role).connected? =
          some (.error error) := by
  have hapart : (some (.error error) : Option (Except SessionError Unit)) ≠ some (.ok ()) := by
    simp only [ne_eq, Option.some.injEq, reduceCtorEq, not_false_eq_true]
  constructor
  · induction waits using List.reverseRecOn with
    | nil => exact fun h => absurd h.symm hapart
    | append_singleton waits wait ih =>
        rcases wait with ⟨role, moves⟩
        intro h
        -- The error is that of the last session asked, or it was given before.
        by_cases hbefore : client.ask waits = some (.ok ())
        · rw [ask_append_of_ok hbefore] at h
          refine ⟨waits, role, moves, [], rfl, hbefore, ?_⟩
          rw [run_append]
          rwa [ask_cons_of_not_ok fun hok => ?_] at h
          rw [ask_cons_of_ok hok, ask] at h
          exact hapart h.symm
        · rw [ask_append_of_not_ok hbefore] at h
          rcases ih h with ⟨before, other, others, after, rfl, hothers, herror⟩
          refine ⟨before, other, others, after ++ [(role, moves)], ?_, hothers, herror⟩
          rw [List.append_assoc]
          rfl
  · rintro ⟨before, role, moves, after, rfl, hbefore, herror⟩
    rw [run_append] at herror
    rw [ask_append_of_ok hbefore, ask_cons_of_not_ok (by rw [herror]; exact hapart), herror]

/-- What is said of the past when a session is asked, and when a client is. A
    session says that it stopped before its connection came up just if it has
    stopped, and everything else that it says is so: nothing while it runs and
    no dial has succeeded, and that it is connected while it runs and one has.
    Neither the answer nor the past of a session that has stopped changes any
    more. A client says what the first session says that is not connected when
    it is asked, so it is wrong about the past just if that session is. -/
theorem connected_asked {hasRuntime : Bool} {config : SessionConfig} {session : Session}
    (hstart : Session.start hasRuntime config = .ok session) (stimuli : List Stimulus) :
    let after := (session.run stimuli).1
    (((after.connected? = none ↔ after.accepts = true ∧ ¬ session.CameUp stimuli) ∧
        (after.connected? = some (.ok ()) ↔ after.accepts = true ∧ session.CameUp stimuli) ∧
        ∀ error, after.connected? = some (.error error) ↔
          after.phase = .closed ∧ error = .notConnected config.label) ∧
      (session.CameUp stimuli ↔
        ∃ before later, stimuli = before ++ .dialed (.ok ()) :: later ∧
          (session.run before).1.phase = .connecting) ∧
      (session.CameUp stimuli ↔
        ∃ before later, stimuli = before ++ later ∧
          (session.run before).1.phase = .connected) ∧
      (after.phase = .closed → ∀ later,
        (session.run (stimuli ++ later)).1.connected? = after.connected? ∧
          (session.CameUp (stimuli ++ later) ↔ session.CameUp stimuli))) ∧
    ∀ {hasRuntime : Bool} {config : ClientConfig} {client : Client} {running : List Session},
      start hasRuntime config = (.ok client, running) → ∀ waits,
        (client.ask waits = some (.ok ()) ↔
          ∀ before role moves after, waits = before ++ (role, moves) :: after →
            let stimuli := Client.stimuli config.namespaces role (before.flatMap Prod.snd ++ moves)
            ((client.session role).run stimuli).1.accepts = true ∧
              (client.session role).CameUp stimuli) ∧
        (∀ error, client.ask waits = some (.error error) ↔
          ∃ before role moves after, waits = before ++ (role, moves) :: after ∧
            client.ask before = some (.ok ()) ∧
            ((client.session role).run (Client.stimuli config.namespaces role
              (before.flatMap Prod.snd ++ moves))).1.phase = .closed ∧
            error = .notConnected role.label) ∧
        ∀ moves, (client.run moves).1.ask (Role.all.map fun role => (role, [])) =
          (client.run moves).1.connected? := by
  refine ⟨?_, fun {_ config client _} hclient waits => ?_⟩
  · refine ⟨Session.connected_run hstart stimuli, Session.cameUp_iff_dialed,
      Session.cameUp_iff_connected hstart, fun hclosed later => ?_⟩
    -- A closed session enters no phase any more.
    have hnothing : ¬ (session.run stimuli).1.CameUp later := by
      rw [Session.CameUp, Session.run_closed hclosed]
      exact List.not_mem_nil
    refine ⟨?_, Session.cameUp_append.trans (or_iff_left hnothing)⟩
    rw [Session.run_append, Session.run_closed hclosed]
  · have hnames : client.namespaces = config.namespaces := (start_ok hclient).1
    have hrecalls (role : Role) (moves : List Move) :=
      Session.connected_run (session_of_start hclient role)
        (Client.stimuli config.namespaces role moves)
    refine ⟨?_, fun error => ?_, fun moves => ask_now _ _⟩
    · simp only [ask_eq_ok_iff, session_run, hnames, (hrecalls _ _).2.1]
    · simp only [ask_eq_error_iff, session_run, hnames, (hrecalls _ _).2.2]
      rfl

/-- All dials succeed, and the client asks. The menu session is lost while it
    waits for the first answer. -/
def waiting : List (Role × List Move) :=
  [(.publisher, opening ++ [.happen .menu (.lost .ended)]), (.menu, []), (.notifications, [])]

theorem connected_asked_waiting :
    ¬ Session.dialing.CameUp [.begin, .dialed (.error .refused)] ∧
      (Session.dialing.run [.begin, .dialed (.error .refused)]).1.connected? =
        some (.error (.notConnected "session")) ∧
      dialing.ask waiting = some (.error (.notConnected "menu-subscriber")) := by
  have hsession : Session.start true { framing := .resp } = .ok Session.dialing := by cbv
  have hclient : start true {} = (.ok dialing, [dialing.publisher, dialing.menu,
      dialing.notifications]) := by cbv
  refine ⟨by decide, ?_, ?_⟩
  · exact ((connected_asked hsession _).1.1.2.2 _).2 ⟨rfl, rfl⟩
  · refine (((connected_asked hsession []).2 hclient waiting).2.1 _).2
      ⟨[(.publisher, opening ++ [.happen .menu (.lost .ended)])], .menu, [],
        [(.notifications, [])], rfl, by cbv, by cbv, by cbv⟩

/-- A connection that came up is denied once it is closed, by its session and
    by a client that had all three up. -/
theorem connected_denied :
    (Session.dialing.run [.begin, .dialed (.ok ())]).1.connected? = some (.ok ()) ∧
      Session.dialing.CameUp [.begin, .dialed (.ok ()), .close] ∧
      (Session.dialing.run [.begin, .dialed (.ok ()), .close]).1.connected? =
        some (.error (.notConnected "session")) ∧
      (dialing.run opening).1.connected? = some (.ok ()) ∧
      (dialing.run (opening ++ [.happen .publisher .close])).1.connected? =
        some (.error (.notConnected "publisher")) := by
  refine ⟨by cbv, by decide, by cbv, by cbv, by cbv⟩

end Client

end RespBus
