import RespBus.Session.Basic

/-!
# Runs of a Session

A run is a list of stimuli, and its effects are those of the steps one after
another. What a user or a peer does in one go is a run too: sending several
requests, delivering bytes that are read in pieces, or letting every write
that is under way come to its end.

`perform` is such a run followed by the writes, after which the session is
idle: nothing more happens until somebody does something again.

## Main definitions

* `Session.run`: The answer to stimuli one after another.
* `Session.flush`: The writes under way and those waiting behind them.
* `Action`: What a user or a peer does in one go.
* `Action.stimuli`: An action as a list of stimuli.
* `Session.perform`: An action, until the session is idle.

## Theorems

* `Session.run_append`: A run can be cut at any point.
-/

namespace RespBus

/-- What a user or a peer does in one go. -/
inductive Action where
  /-- The session gets to run. -/
  | begin
  /-- The dial is answered. -/
  | answer (outcome : Except DialFailure Unit)
  /-- The user sends requests without waiting in between. -/
  | send (requests : List Request)
  /-- The peer sends bytes, and they arrive together. -/
  | deliver (data : Bytes)
  /-- The connection is lost. -/
  | lose (loss : Loss)
  /-- The user closes the session. -/
  | close
  /-- The user lets go of the session. -/
  | release

/-- An action as a list of stimuli. Delivered bytes are read in pieces of
    `readSize` bytes, the last of which may be shorter. -/
def Action.stimuli (readSize : Nat) : Action → List Stimulus
  | begin => [.begin]
  | answer outcome => [.dialed outcome]
  | send requests => requests.map .send
  | deliver data => (Bytes.pieces readSize data).map .read
  | lose loss => [.lost loss]
  | close => [.close]
  | release => [.release]

namespace Session

/-- The answer to stimuli one after another. -/
def run (session : Session) : List Stimulus → Session × List Effect
  | [] => (session, [])
  | stimulus :: stimuli =>
    let (session, effects) := session.step stimulus
    let (session, later) := session.run stimuli
    (session, effects ++ later)

/-- The end of every write: of the one under way, and of those that wait
    behind it. -/
def flush (session : Session) : Session × List Effect :=
  session.run (List.replicate session.queue.pending.length (.wrote (.ok ())))

/-- The answer to an action until the session is idle again. -/
def perform (session : Session) (action : Action) : Session × List Effect :=
  let (session, effects) := session.run (action.stimuli session.framer.mode.readSize)
  let (session, later) := session.flush
  (session, effects ++ later)

/-- A run goes on where its first part ended. -/
theorem run_append (session : Session) (first second : List Stimulus) :
    session.run (first ++ second) =
      (((session.run first).1.run second).1,
        (session.run first).2 ++ ((session.run first).1.run second).2) := by
  induction first generalizing session with
  | nil => rfl
  | cons stimulus stimuli ih =>
      simp only [List.cons_append, run, ih, List.append_assoc]

end Session

end RespBus
