import RespBus.Config.Basic
import RespBus.Framer
import RespBus.Session.Effect
import RespBus.Session.Outbound
import RespBus.Text.Quoted

/-!
# Sessions

A session owns one connection. It writes requests in the order they were
accepted, one at a time; it cuts what it reads into messages and attributes
each to a request; and the first thing that goes wrong ends it.

The session itself is a transition function. What happens to it is a
stimulus: its user sends, closes or lets go of it, the dial succeeds or
fails, a write is done, a read brings bytes or the end. It answers with its
next state and a list of effects. Nothing in it waits, so every order in
which stimuli can arrive is a list of them, and a statement about sessions
is a statement about such lists.

A message is attributed to the oldest request that awaits a reply; if none
does, to the last one written. A message made of several replies has
answered as many requests, so it takes the others off the list as well, as
far as there are any.

A session that nobody holds any more still writes what was accepted, and
stops once nothing is left to write.

## Main definitions

* `Session`: A connection's state.
* `Stimulus`: What can happen to a session.
* `Session.start`: A session for a configuration, before it dials.
* `Session.accepts`: Whether requests are still accepted.
* `Session.connected?`: Whether the connection came up, once that is known.
* `Session.debugText`: A session as it is shown for inspection.
* `Session.step`: The answer to one stimulus.
-/

namespace RespBus

/-- The state of one connection. -/
structure Session where
  /-- The name the session reports under. -/
  label : String
  /-- The peer, as it is named in errors. -/
  address : String
  phase : Phase := .disconnected
  /-- Whether the user still holds the session. -/
  held : Bool := true
  /-- Requests accepted and not yet written. -/
  queue : Outbound := {}
  /-- Bytes of the unfinished message. -/
  framer : Framer
  /-- Written requests that no message was attributed to, oldest first. -/
  awaiting : List Origin := []
  /-- The last request written. -/
  lastSent : Option Origin := none

/-- What can happen to a session. -/
inductive Stimulus where
  /-- It gets to run and starts to dial. -/
  | begin
  /-- The dial is answered. -/
  | dialed (outcome : Except DialFailure Unit)
  /-- The user sends a request. -/
  | send (request : Request)
  /-- The write under way is done, or has failed. -/
  | wrote (outcome : Except Loss Unit)
  /-- A read brings bytes. -/
  | read (chunk : Bytes)
  /-- A read brings the end of the connection. -/
  | lost (loss : Loss)
  /-- The user closes the session. -/
  | close
  /-- The user lets go of the session. -/
  | release

namespace Session

/-- A session for a configuration, before it dials. The configuration is
    looked at first; a session also needs something to run on, and its
    buffers. -/
def start (hasRuntime : Bool) (config : SessionConfig) : Except StartFailure Session :=
  match config.validate with
  | .error setting => .error (.refused (.config setting))
  | .ok () =>
    if hasRuntime then
      -- Nothing has looked at how much the framing asks for.
      match Framer.create config.framing with
      | .error cause => .error (.panicked cause)
      | .ok framer => .ok { label := config.label, address := config.address, framer }
    else .error (.refused .noRuntime)

/-- Whether requests are still accepted. -/
def accepts (session : Session) : Bool :=
  session.phase ≠ .closing && session.phase ≠ .closed

/-- The answer to sending a request. -/
def offer (session : Session) : Except SessionError Unit :=
  if session.accepts then .ok () else .error .closed

/-- Whether the connection came up, once that is known. Only the present
    phase is looked at. -/
def connected? (session : Session) : Option (Except SessionError Unit) :=
  match session.phase with
  | .disconnected => none
  | .connecting => none
  | .connected => some (.ok ())
  | .closing => some (.error (.notConnected session.label))
  | .closed => some (.error (.notConnected session.label))

/-- The session as it is shown for inspection: its label and its phase. -/
def debugText (session : Session) : String :=
  "Session \x7b label: " ++ quotedText session.label ++ ", phase: " ++ session.phase.name ++
    " \x7d"

/-- Stops for good. -/
def finish (session : Session) : Session × List Effect :=
  ({ session with phase := .closed }, [.enter .closing, .enter .closed])

/-- Reports an error and stops for good. -/
def fail (session : Session) (error : SessionError) (origin : Option Origin) :
    Session × List Effect :=
  let (session, effects) := session.finish
  -- The handler hears of the error before the phase changes.
  (session, .report ⟨session.label, .error error, origin⟩ :: effects)

/-- Starts the next write, unless one is under way or nothing waits. -/
def startWrite (session : Session) : Session × List Effect :=
  match session.queue.start with
  | (some payload, queue) => ({ session with queue }, [.write payload])
  | (none, _) => (session, [])

/-- Goes on writing, or stops if nobody holds the session and nothing is
    left to write. -/
def proceed (session : Session) : Session × List Effect :=
  if session.held = false ∧ session.queue.pending = [] then session.finish
  else session.startWrite

/-- Takes a written request to the list of those that await a reply. -/
def record (session : Session) (request : Request) : Session :=
  { session with
    awaiting := session.awaiting ++ [request.origin], lastSent := some request.origin }

/-- Attributes a message and reports it. -/
def credit (session : Session) (frame : Bytes) : Session × Effect :=
  let replies := session.framer.repliesIn frame
  let origin := session.awaiting.head?.or session.lastSent
  let rest := session.awaiting.tail
  -- The first reply answered the head; the others answer those behind it.
  let merged := min (replies - 1) rest.length
  ({ session with awaiting := rest.drop merged }, .report ⟨session.label, .ok frame, origin⟩)

/-- Attributes and reports messages in order. -/
def creditAll (session : Session) : List Bytes → Session × List Effect
  | [] => (session, [])
  | frame :: frames =>
    let (session, effect) := session.credit frame
    let (session, effects) := session.creditAll frames
    (session, effect :: effects)

/-- Cuts the bytes of a read into messages. Bytes that are no reply end the
    session, and the messages of the same read are lost. -/
def receive (session : Session) (chunk : Bytes) : Session × List Effect :=
  match session.framer.push chunk with
  | (.ok frames, framer) => { session with framer }.creditAll frames
  | (.error fault, framer) => { session with framer }.fail (.framing fault) none

/-- The answer to the dial. -/
def answerDial (session : Session) : Except DialFailure Unit → Session × List Effect
  | .ok () =>
    let (session, effects) := { session with phase := .connected }.proceed
    (session, .enter .connected :: effects)
  | .error failure => session.fail (.connection session.address failure) none

/-- The answer to the user while the session is not connected yet. Sent
    requests wait, and a session that is let go of with nothing to write
    does not wait for the dial. -/
def stepWaiting (session : Session) : Stimulus → Session × List Effect
  | .send request => ({ session with queue := session.queue.enqueue request }, [])
  | .close => session.finish
  | .release =>
    let session := { session with held := false }
    if session.queue.pending = [] then session.finish else (session, [])
  | _ => (session, [])

/-- The answer to a stimulus while the session is connected. -/
def stepConnected (session : Session) : Stimulus → Session × List Effect
  | .send request => { session with queue := session.queue.enqueue request }.startWrite
  | .wrote (.ok ()) =>
    match session.queue.complete with
    | (some request, queue) => ({ session with queue }.record request).proceed
    | (none, _) => (session, [])
  | .wrote (.error loss) =>
    match session.queue.complete with
    | (some request, queue) =>
      -- A request that could not be written was never awaited.
      { session with queue }.fail (.transport loss) (some request.origin)
    | (none, _) => (session, [])
  | .read chunk => session.receive chunk
  | .lost loss => session.fail (.transport loss) none
  | .close => session.finish
  | .release => { session with held := false }.proceed
  | _ => (session, [])

/-- The answer to one stimulus. A session that has stopped no longer
    answers. -/
def step (session : Session) (stimulus : Stimulus) : Session × List Effect :=
  match session.phase, stimulus with
  | .disconnected, .begin => ({ session with phase := .connecting }, [.enter .connecting])
  | .disconnected, _ => session.stepWaiting stimulus
  -- Only a session that dials can be answered.
  | .connecting, .dialed outcome => session.answerDial outcome
  | .connecting, _ => session.stepWaiting stimulus
  | .connected, _ => session.stepConnected stimulus
  -- Nothing brings a stopped session back.
  | .closing, _ => (session, [])
  | .closed, _ => (session, [])

end Session

end RespBus
