import RespBus.Client.Operation
import RespBus.Session.Run

/-!
# Clients

A client is three sessions with one peer and the names it works under. It
hands an operation to the session that the operation belongs to and knows
nothing more about it: replies reach the handler from the session that got
them.

Starting a client starts its sessions one after another, and a session that
is started goes on running when a later one cannot be started. That is why
`Client.start` also says which sessions are running after the attempt, and
why it looks at the whole configuration before it starts the first.

The effects of a client are those of its sessions, each with the role of the
session it belongs to.

## Main definitions

* `Client`: Three sessions and the namespaces.
* `Client.start`: A client for a configuration, and the sessions running
  after the attempt.
* `Client.session`: The session of a role.
* `Client.offer`: The answer to an operation.
* `Client.connectedOf?`: Whether the sessions of some roles are connected, once
  that is known.
* `Client.connected?`: The same for all roles.
* `Client.Move`: What can happen to a client.
* `Client.step`: The answer to one move.
* `Client.run`: The answer to moves one after another.
* `Client.perform`: An operation, until the client is idle.
-/

namespace RespBus

/-- Three sessions and the namespaces. -/
structure Client where
  namespaces : Namespaces
  publisher : Session
  menu : Session
  notifications : Session

namespace Client

/-- The session of a role. -/
def session (client : Client) : Role → Session
  | .publisher => client.publisher
  | .menu => client.menu
  | .notifications => client.notifications

/-- The client with the session of a role replaced. -/
def withSession (client : Client) (role : Role) (session : Session) : Client :=
  match role with
  | .publisher => { client with publisher := session }
  | .menu => { client with menu := session }
  | .notifications => { client with notifications := session }

/-- A client for a configuration, and the sessions that are running after
    the attempt. -/
def start (hasRuntime : Bool) (config : ClientConfig) :
    Except StartFailure Client × List Session :=
  let startRole (role : Role) := Session.start hasRuntime (config.session role.label)
  match config.validate with
  | .error setting => (.error (.refused (.config setting)), [])
  | .ok () =>
    -- From here on a failure leaves the earlier sessions running.
    match startRole .publisher with
    | .error failure => (.error failure, [])
    | .ok publisher =>
      match startRole .menu with
      | .error failure => (.error failure, [publisher])
      | .ok menu =>
        match startRole .notifications with
        | .error failure => (.error failure, [publisher, menu])
        | .ok notifications =>
          (.ok { namespaces := config.namespaces, publisher, menu, notifications },
            [publisher, menu, notifications])

/-- The answer to calling an operation. -/
def offer (client : Client) (operation : Operation) : Except SessionError Unit :=
  (client.session operation.role).offer

/-- The answer of the first of these roles whose session is not connected, or
    that all of them are; nothing while that is not known. -/
def connectedOf? (client : Client) : List Role → Option (Except SessionError Unit)
  | [] => some (.ok ())
  | role :: roles =>
    match (client.session role).connected? with
    | some (.ok ()) => client.connectedOf? roles
    -- The first session that is not connected answers for all.
    | answer => answer

/-- The same for all roles. -/
def connected? (client : Client) : Option (Except SessionError Unit) :=
  client.connectedOf? Role.all

/-- What can happen to a client. -/
inductive Move where
  /-- The user calls an operation. -/
  | call (operation : Operation)
  /-- Something happens to one of the sessions. -/
  | happen (role : Role) (stimulus : Stimulus)

/-- Hands stimuli to the session of a role. -/
def drive (client : Client) (role : Role) (stimuli : List Stimulus) :
    Client × List (Role × Effect) :=
  let (session, effects) := (client.session role).run stimuli
  (client.withSession role session, effects.map fun effect => (role, effect))

/-- The answer to one move. -/
def step (client : Client) : Move → Client × List (Role × Effect)
  | .call operation =>
    client.drive operation.role [.send (operation.request client.namespaces)]
  | .happen role stimulus => client.drive role [stimulus]

/-- The answer to moves one after another. -/
def run (client : Client) : List Move → Client × List (Role × Effect)
  | [] => (client, [])
  | move :: moves =>
    let (client, effects) := client.step move
    let (client, later) := client.run moves
    (client, effects ++ later)

/-- An action on the session of a role, until it is idle. -/
def act (client : Client) (role : Role) (action : Action) : Client × List (Role × Effect) :=
  let (session, effects) := (client.session role).perform action
  (client.withSession role session, effects.map fun effect => (role, effect))

/-- The same action on every session in turn. -/
def actAll (client : Client) (action : Action) : Client × List (Role × Effect) :=
  let (client, first) := client.act .publisher action
  let (client, second) := client.act .menu action
  let (client, third) := client.act .notifications action
  (client, first ++ second ++ third)

/-- An operation, until the session it goes out on is idle. -/
def perform (client : Client) (operation : Operation) : Client × List (Role × Effect) :=
  client.act operation.role (.send [operation.request client.namespaces])

/-- The effects that belong to one session. -/
def effectsOf (role : Role) (effects : List (Role × Effect)) : List Effect :=
  effects.filterMap fun effect => if effect.1 = role then some effect.2 else none

end Client

end RespBus
