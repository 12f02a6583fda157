import RespBus.Request
import RespBus.Session.Error

/-!
# Effects of a Session

What a session does is a list of effects in the order they happen. There are
three kinds: it starts to write a payload, it reports an event to its
handler, and it enters a phase. What was handed over for writing, what the
handler sees and which phases were passed through are three views of one list.

To start a write is not to end it. A write that fails, or that the session does
not wait for because it stops, may have got through in part or not at all. How
far it got is not an effect; whether it went well is a stimulus.

## Main definitions

* `Phase`, `Phase.name`: Where a session is in its life.
* `Event`: A message or an error, as the handler gets it.
* `Effect`: One thing a session does.
* `Effect.handed`: The bytes handed over for writing.
* `Effect.events`: The events reported.
* `Effect.phases`: The phases entered.

## Theorems

* `Effect.handed_append`, `Effect.events_append`, `Effect.phases_append`: The
  views of a longer list are put together from those of its parts.
-/

namespace RespBus

/-- Where a session is in its life. -/
inductive Phase where
  | disconnected
  | connecting
  | connected
  | closing
  | closed
  deriving DecidableEq

/-- The word for a phase. -/
def Phase.name : Phase → String
  | disconnected => "Disconnected"
  | connecting => "Connecting"
  | connected => "Connected"
  | closing => "Closing"
  | closed => "Closed"

/-- A message or an error, as the handler gets it. -/
structure Event where
  /-- The label of the session that reports. -/
  session : String
  /-- The raw bytes of a message, or what went wrong. -/
  content : Except SessionError Bytes
  /-- The request it is attributed to. -/
  origin : Option Origin

/-- One thing a session does. -/
inductive Effect where
  /-- Starts to write a payload. -/
  | write (payload : Bytes)
  /-- Tells the handler. -/
  | report (event : Event)
  /-- Enters a phase. -/
  | enter (phase : Phase)

namespace Effect

/-- The bytes handed over for writing, in order. A payload counts from the
    start of its write, whatever becomes of it. -/
def handed (effects : List Effect) : Bytes :=
  effects.flatMap fun
    | write payload => payload
    | _ => []

/-- The events reported, in order. -/
def events (effects : List Effect) : List Event :=
  effects.filterMap fun
    | report event => some event
    | _ => none

/-- The phases entered, in order. -/
def phases (effects : List Effect) : List Phase :=
  effects.filterMap fun
    | enter phase => some phase
    | _ => none

theorem handed_append (first second : List Effect) :
    handed (first ++ second) = handed first ++ handed second :=
  List.flatMap_append

theorem events_append (first second : List Effect) :
    events (first ++ second) = events first ++ events second :=
  List.filterMap_append

theorem phases_append (first second : List Effect) :
    phases (first ++ second) = phases first ++ phases second :=
  List.filterMap_append

end Effect

end RespBus
