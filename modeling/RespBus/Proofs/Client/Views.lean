import RespBus.Client.Basic

/-!
# The Sessions of a Client

A client hands everything on and its sessions share nothing. So what a run of
the client means to one of its sessions is a run of that session alone, over
those stimuli that reach it: the moves that happen to it, and the requests of
the operations that go out on it.

`seen` cuts one session and its effects out of the answer of a client. A
statement about the sessions of a client is proved in the answer of one
session to `stimuli`, and nothing has to be said about the other two.

## Main definitions

* `Client.seen`: One session of an answer, with the effects that belong to it.
* `Client.stimuli`: What reaches a session in moves.

## Theorems

* `Client.seen_run`: A run of a client is a run of each of its sessions.
* `Client.seen_act`: An action on one session leaves the others alone.
* `Client.seen_actAll`: An action on all sessions is the same action on each.
-/

namespace RespBus

namespace Client

/-- The session of a role, and the effects that belong to it. -/
def seen (role : Role) (answer : Client × List (Role × Effect)) : Session × List Effect :=
  (answer.1.session role, effectsOf role answer.2)

/-- A view is what has become of one session and what came of it. -/
theorem seen_eq_iff {role : Role} {answer : Client × List (Role × Effect)}
    {result : Session × List Effect} :
    seen role answer = result ↔
      answer.1.session role = result.1 ∧ effectsOf role answer.2 = result.2 :=
  Prod.ext_iff

/-- To replace one session leaves the others. -/
theorem session_withSession (client : Client) (role other : Role) (session : Session) :
    (client.withSession other session).session role =
      if other = role then session else client.session role := by
  cases role <;> cases other <;> rfl

theorem withSession_session (client : Client) (role : Role) :
    client.withSession role (client.session role) = client := by
  cases role <;> rfl

/-- The names belong to no session. -/
theorem namespaces_withSession (client : Client) (role : Role) (session : Session) :
    (client.withSession role session).namespaces = client.namespaces := by
  cases role <;> rfl

theorem effectsOf_append (role : Role) (first second : List (Role × Effect)) :
    effectsOf role (first ++ second) = effectsOf role first ++ effectsOf role second :=
  List.filterMap_append

/-- Effects of one session are no effects of another. -/
theorem effectsOf_tagged (role other : Role) (effects : List Effect) :
    effectsOf role (effects.map fun effect => (other, effect)) =
      if other = role then effects else [] := by
  unfold effectsOf
  rw [List.filterMap_map]
  by_cases hrole : other = role
  · simp only [Function.comp_def, if_pos hrole]
    exact List.filterMap_some
  · simp only [Function.comp_def, if_neg hrole]
    exact List.filterMap_eq_nil_iff.2 fun _ _ => rfl

-- Only the session that is replaced sees a difference.
theorem seen_withSession (client : Client) (role other : Role) (answer : Session × List Effect) :
    seen role (client.withSession other answer.1,
        answer.2.map fun effect => (other, effect)) =
      if other = role then answer else (client.session role, []) := by
  rw [seen, session_withSession, effectsOf_tagged]
  by_cases hrole : other = role
  · rw [if_pos hrole, if_pos hrole, if_pos hrole]
  · rw [if_neg hrole, if_neg hrole, if_neg hrole]

/-- What happens to one session is seen in its view, and in no other. -/
theorem seen_drive (client : Client) (role other : Role) (stimuli : List Stimulus) :
    seen role (client.drive other stimuli) =
      (client.session role).run (if other = role then stimuli else []) := by
  rw [drive, seen_withSession]
  by_cases hrole : other = role
  · rw [if_pos hrole, if_pos hrole, hrole]
  · rw [if_neg hrole, if_neg hrole]
    rfl

/-- An action on one session leaves the others alone. -/
theorem seen_act (client : Client) (role other : Role) (action : Action) :
    seen role (client.act other action) =
      if other = role then (client.session role).perform action
      else (client.session role, []) := by
  rw [act, seen_withSession]
  by_cases hrole : other = role
  · rw [if_pos hrole, if_pos hrole, hrole]
  · rw [if_neg hrole, if_neg hrole]

theorem namespaces_act (client : Client) (role : Role) (action : Action) :
    (client.act role action).1.namespaces = client.namespaces :=
  namespaces_withSession client role _

theorem namespaces_actAll (client : Client) (action : Action) :
    (client.actAll action).1.namespaces = client.namespaces := by
  simp only [actAll, namespaces_act]

/-- An action on all sessions is the same action on each. -/
theorem seen_actAll (client : Client) (role : Role) (action : Action) :
    seen role (client.actAll action) = (client.session role).perform action := by
  have hsession : ∀ (before : Client) (other : Role),
      (before.act other action).1.session role =
        if other = role then ((before.session role).perform action).1
        else before.session role := by
    intro before other
    rw [act, session_withSession]
    by_cases hrole : other = role
    · rw [if_pos hrole, if_pos hrole, hrole]
    · rw [if_neg hrole, if_neg hrole]
  have heffects : ∀ (before : Client) (other : Role),
      effectsOf role (before.act other action).2 =
        if other = role then ((before.session role).perform action).2 else [] := by
    intro before other
    rw [act, effectsOf_tagged]
    by_cases hrole : other = role
    · rw [if_pos hrole, if_pos hrole, hrole]
    · rw [if_neg hrole, if_neg hrole]
  rw [seen, actAll]
  -- Of the three actions one is on the session that is looked at.
  simp only [effectsOf_append, hsession, heffects]
  cases role <;>
    simp only [reduceCtorEq, if_true, if_false, List.nil_append, List.append_nil]

/-- The stimulus that reaches the session of a role in a move. -/
def Move.stimulus? (names : Namespaces) (role : Role) : Move → Option Stimulus
  | .call operation =>
    if operation.role = role then some (.send (operation.request names)) else none
  | .happen other stimulus => if other = role then some stimulus else none

/-- What reaches the session of a role in moves, in order. -/
def stimuli (names : Namespaces) (role : Role) (moves : List Move) : List Stimulus :=
  moves.filterMap (Move.stimulus? names role)

/-- A move is a stimulus of a session, or none. -/
theorem stimuli_cons (names : Namespaces) (role : Role) (move : Move) (moves : List Move) :
    stimuli names role (move :: moves) =
      (move.stimulus? names role).toList ++ stimuli names role moves := by
  unfold stimuli
  rw [List.filterMap_cons]
  cases move.stimulus? names role <;> rfl

/-- What reaches a session and is no request has happened to that session. -/
theorem mem_of_mem_stimuli {names : Namespaces} {role : Role} {moves : List Move}
    {stimulus : Stimulus} (hsend : ∀ request, stimulus ≠ .send request)
    (h : stimulus ∈ stimuli names role moves) : .happen role stimulus ∈ moves := by
  rcases List.mem_filterMap.1 h with ⟨move, hmove, heq⟩
  cases move with
  | call operation =>
      rw [Move.stimulus?, Option.ite_none_right_eq_some, Option.some.injEq] at heq
      exact absurd heq.2.symm (hsend _)
  | happen other found =>
      rw [Move.stimulus?, Option.ite_none_right_eq_some, Option.some.injEq] at heq
      rw [← heq.1, ← heq.2]
      exact hmove

/-- A move does to a session what its stimulus does, and without one it does
    nothing. -/
theorem seen_step (client : Client) (role : Role) (move : Move) :
    seen role (client.step move) =
      (client.session role).run (move.stimulus? client.namespaces role).toList := by
  cases move with
  | call operation =>
      rw [step, seen_drive, Move.stimulus?]
      by_cases hrole : operation.role = role
      · rw [if_pos hrole, if_pos hrole]
        rfl
      · rw [if_neg hrole, if_neg hrole]
        rfl
  | happen other stimulus =>
      rw [step, seen_drive, Move.stimulus?]
      by_cases hrole : other = role
      · rw [if_pos hrole, if_pos hrole]
        rfl
      · rw [if_neg hrole, if_neg hrole]
        rfl

theorem namespaces_step (client : Client) (move : Move) :
    (client.step move).1.namespaces = client.namespaces := by
  cases move with
  | call operation => exact namespaces_withSession client operation.role _
  | happen role stimulus => exact namespaces_withSession client role _

/-- No run changes the names. -/
theorem namespaces_run (moves : List Move) :
    ∀ client : Client, (client.run moves).1.namespaces = client.namespaces := by
  induction moves with
  | nil =>
      intro client
      rfl
  | cons move moves ih =>
      intro client
      exact (ih (client.step move).1).trans (namespaces_step client move)

/-- A run of a client is a run of each of its sessions, over the stimuli that
    reach it. The induction is on the moves. -/
theorem seen_run (role : Role) (moves : List Move) :
    ∀ client : Client, seen role (client.run moves) =
      (client.session role).run (stimuli client.namespaces role moves) := by
  induction moves with
  | nil =>
      intro client
      rfl
  | cons move moves ih =>
      intro client
      rcases seen_eq_iff.1 (seen_step client role move) with ⟨hsession, heffects⟩
      have hlater := ih (client.step move).1
      rw [namespaces_step, hsession] at hlater
      rw [stimuli_cons, Session.run_append, ← hlater, ← heffects, run, seen, effectsOf_append]
      rfl

end Client

end RespBus
