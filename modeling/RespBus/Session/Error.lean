import RespBus.Buffers
import RespBus.Config.Error
import RespBus.Reply.Progress

/-!
# Session Errors

What goes wrong is told either to the handler or to the user. An error that
the handler hears ends the session, and a session reports one at most. An
error that the user gets is the answer to a call and changes nothing.

Both fall apart by where they arise: before a session exists (a refused
configuration, nothing to run it on), while it connects, while it is
connected, and after it has stopped.

An attempt to start a session can also end in a way that is no error. Where a
buffer cannot be had, the attempt is broken off and so is its caller, with
nothing to answer.

## Main definitions

* `DialFailure`: Why no connection came up.
* `Loss`: How an established connection was lost.
* `SessionError`: What a session reports or answers.
* `SessionError.message`: The wording of an error.
* `StartFailure`: How an attempt to start ends if nothing comes of it.
-/

namespace RespBus

/-- Why no connection came up. -/
inductive DialFailure where
  /-- The peer is there and nobody listens. -/
  | refused
  /-- There is no way to the peer. -/
  | unreachable
  /-- Anything else, in the system's words. -/
  | other (text : String)
  deriving DecidableEq

/-- The wording of a failed dial, with the system's number. -/
def DialFailure.message : DialFailure → String
  | refused => "Connection refused (os error 111)"
  | unreachable => "Network is unreachable (os error 101)"
  | other text => text

/-- How an established connection was lost. -/
inductive Loss where
  /-- The peer has nothing more to say. -/
  | ended
  /-- The peer broke the connection off. -/
  | reset
  /-- Anything else, in the system's words. -/
  | other (text : String)
  deriving DecidableEq

/-- The wording of a loss. -/
def Loss.message : Loss → String
  | ended => "connection closed by peer"
  | reset => "Connection reset by peer (os error 104)"
  | other text => text

/-- What a session reports to its handler or answers to its user. -/
inductive SessionError where
  /-- The connection to the peer at `address` did not come up. -/
  | connection (address : String) (failure : DialFailure)
  /-- The connection was lost. -/
  | transport (loss : Loss)
  /-- The peer sent what is no reply. -/
  | framing (fault : Fault)
  /-- The session has stopped. -/
  | closed
  /-- The session stopped before it was connected, as far as can be seen. -/
  | notConnected (session : String)
  /-- There is nothing to run a session on. -/
  | noRuntime
  /-- The configuration was refused. -/
  | config (setting : InvalidSetting)
  deriving DecidableEq

/-- The wording of an error. -/
def SessionError.message : SessionError → String
  | connection address failure => "failed to connect to " ++ address ++ ": " ++ failure.message
  | transport loss => "transport error: " ++ loss.message
  | framing fault => "framing error: " ++ fault.message
  | closed => "session is closed"
  | notConnected session => "session " ++ session ++ " stopped before connecting"
  | noRuntime => "no tokio runtime available to drive the session"
  | config setting => (ConfigError.invalid setting).message

/-- How an attempt to start ends if nothing comes of it. -/
inductive StartFailure where
  /-- The user gets an error. -/
  | refused (error : SessionError)
  /-- A buffer cannot be had. The user gets no answer at all. -/
  | panicked (cause : Unreservable)
  deriving DecidableEq

end RespBus
