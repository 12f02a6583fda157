import RespBus.Namespaces

/-!
# Configuration

A client runs several sessions with one peer. Its configuration names the
peer, the framing that all sessions share, and the namespaces; the
configuration of a single session is derived from it by adding a label.

Both kinds are validated on their own, because a session can be started
without a client. `ClientConfig.validate` looks at the host, the framing and
the namespaces, in that order, and reports the first refusal.

## Main definitions

* `SessionConfig`: Label, peer and framing of one session.
* `SessionConfig.address`: The peer as host and port.
* `ClientConfig`: Peer, framing and namespaces of a client.
* `ClientConfig.session`: The configuration of one of its sessions.
-/

namespace RespBus

/-- Label, peer and framing of one session. -/
structure SessionConfig where
  /-- The name a session reports under. -/
  label : String := "session"
  host : String := "127.0.0.1"
  port : UInt16 := 6379
  framing : Framing := default
  deriving DecidableEq

namespace SessionConfig

/-- The peer as host and port. -/
def address (config : SessionConfig) : String :=
  config.host ++ ":" ++ Decimal.toText config.port.toNat

/-- Refuses an empty host, then a framing that could not work. -/
def validate (config : SessionConfig) : Except InvalidSetting Unit :=
  if config.host = "" then .error .emptyHost else config.framing.validate

end SessionConfig

/-- Peer, framing and namespaces of a client. -/
structure ClientConfig where
  host : String := "127.0.0.1"
  port : UInt16 := 6379
  framing : Framing := default
  namespaces : Namespaces := {}
  deriving DecidableEq

namespace ClientConfig

/-- The configuration of the session with the given label. -/
def session (config : ClientConfig) (label : String) : SessionConfig :=
  { label, host := config.host, port := config.port, framing := config.framing }

/-- Refuses an empty host, then a framing that could not work, then empty
    fixed names. -/
def validate (config : ClientConfig) : Except InvalidSetting Unit :=
  if config.host = "" then .error .emptyHost
  else
    match config.framing.validate with
    | .error setting => .error setting
    | .ok () => config.namespaces.validate

end ClientConfig

end RespBus
