import RespBus.Config.Reader
import RespBus.Watch
import Std.Async.DNS
import Std.Async.Signal
import Std.Async.TCP

/-!
# The Watcher Program

Reads a configuration, connects a client, asks for what it follows and logs
what comes in until it is interrupted. Two environment variables steer it:
`MENUBUS_CONFIG` names a configuration file, and `MENUBUS_USER` a user whose
notifications are followed as well.

Everything that can be decided without touching the outside world is decided
by the library. What is here turns the effects of a session into writes and
log lines, and reads and failures into stimuli. Each session has a thread of
its own and shares nothing with the others.

## Main definitions

* `Program.carryOut`: Turns effects into writes and log lines.
* `Program.serve`: Reads until the session has stopped.
* `Program.follow`: The life of one session.
* `main`: The program.
-/

open Std.Async Std.Net

namespace RespBus

namespace Program

/-- One line of the log. -/
def logEntry (entry : Watch.Entry) : IO Unit :=
  IO.println (entry.level ++ " " ++ entry.event ++ " session=" ++ entry.session ++
    " origin=" ++ Watch.originText entry.origin ++ " " ++ entry.field ++ "=" ++ entry.value)

/-- The system's number of an error, which some of its layers negate. -/
def errorNumber (error : IO.Error) : UInt32 :=
  let number :=
    match error with
    | .noFileOrDirectory _ number _ => number
    | .inappropriateType _ number _ => number
    | .noSuchThing _ number _ => number
    | .resourceVanished number _ => number
    | .otherError number _ => number
    | _ => 0
  if number < 0x80000000 then number else 0 - number

/-- The failure to read a file. -/
def fileFailure (error : IO.Error) : FileFailure :=
  match errorNumber error with
  | 2 => .notFound
  | 20 => .notADirectory
  | 21 => .isADirectory
  | _ => .other error.toString

/-- The failure of a dial. -/
def dialFailure (error : IO.Error) : DialFailure :=
  match errorNumber error with
  | 101 => .unreachable
  | 111 => .refused
  | _ => .other error.toString

/-- The loss of a connection. -/
def lossOf (error : IO.Error) : Loss :=
  match errorNumber error with
  | 104 => .reset
  | _ => .other error.toString

/-- What reading a file brings. -/
def contentsOf (path : String) : IO (Except FileFailure Bytes) := do
  try
    let contents ← IO.FS.readBinFile path
    return .ok contents.data.toList
  catch error => return .error (fileFailure error)

/-- The configuration in the named file, or the default one. -/
def loadConfig : Option String → IO (Except ConfigError ClientConfig)
  | none => return .ok {}
  | some path => return ClientConfig.ofFile path (← contentsOf path)

/-- Connects to the first address of a host. -/
def dial (host : String) (port : UInt16) : IO TCP.Socket.Client := do
  let found ← (DNS.getAddrInfo host (toString port.toNat)).block
  match found[0]? with
  | none => throw (IO.userError "no address found")
  | some address => do
    let target : SocketAddress :=
      match address with
      | .v4 addr => .v4 ⟨addr, port⟩
      | .v6 addr => .v6 ⟨addr, port⟩
    let socket ← TCP.Socket.Client.mk
    (socket.connect target).block
    socket.noDelay
    return socket

/-- Carries out effects in order. A write is answered as soon as it is done,
    and what the session does next comes after the effects already due. -/
partial def carryOut (socket : Option TCP.Socket.Client) (session : Session) :
    List Effect → IO Session
  | [] => return session
  | .enter _ :: effects => carryOut socket session effects
  | .report event :: effects => do
    logEntry (.ofEvent event)
    carryOut socket session effects
  | .write payload :: effects => do
    let outcome : Except Loss Unit ←
      try
        match socket with
        -- Nothing is written before the dial has succeeded.
        | none => pure (.error .ended)
        | some socket => do
          (socket.send ⟨payload.toArray⟩).block
          pure (.ok ())
      catch error => pure (.error (lossOf error))
    let (session, more) := session.step (.wrote outcome)
    carryOut socket session (effects ++ more)

/-- Hands one stimulus to a session and carries out its answer. -/
def handle (socket : Option TCP.Socket.Client) (session : Session) (stimulus : Stimulus) :
    IO Session := do
  let (session, effects) := session.step stimulus
  carryOut socket session effects

/-- Reads until the session has stopped. -/
partial def serve (socket : TCP.Socket.Client) (session : Session) : IO Unit := do
  if session.accepts then
    let stimulus : Stimulus ←
      try
        match ← (socket.recv? (UInt64.ofNat session.framer.mode.readSize)).block with
        | some chunk => pure (.read chunk.data.toList)
        | none => pure (.lost .ended)
      catch error => pure (.lost (lossOf error))
    serve socket (← handle (some socket) session stimulus)

/-- The life of one session, from the dial to its end. -/
def follow (host : String) (port : UInt16) (session : Session) : IO Unit := do
  let dialed : Except DialFailure TCP.Socket.Client ←
    try
      pure (.ok (← dial host port))
    catch error => pure (.error (dialFailure error))
  match dialed with
  | .error failure => discard (handle none session (.dialed (.error failure)))
  | .ok socket => serve socket (← handle (some socket) session (.dialed (.ok ())))

/-- Connects a client and follows it until the program is interrupted. -/
def watch (config : ClientConfig) (user : Option String) : IO UInt32 := do
  match Client.start true config with
  | (.error (.refused error), _) => do
    IO.eprintln ("Error: " ++ error.message)
    return 1
  | (.error (.panicked cause), _) => do
    IO.eprintln cause.message
    return 101
  | (.ok client, _) => do
    -- The requests are accepted before any session has dialed.
    let moves := (Role.all.map fun role => .happen role .begin) ++
      (Watch.operations user).map .call
    let (client, _) := client.run moves
    for role in Role.all do
      discard (IO.asTask (follow config.host config.port (client.session role)) .dedicated)
    -- The sessions go on by themselves until the program is interrupted.
    let interrupt ← Signal.Waiter.mk .sigint false
    discard (← interrupt.wait).block
    return 0

end Program

end RespBus

/-- Watches the menu, and one user if the environment names one. -/
def main : IO UInt32 := do
  let path ← IO.getEnv "MENUBUS_CONFIG"
  match ← RespBus.Program.loadConfig path with
  | .error error => do
    IO.eprintln ("Error: loading config from " ++ path.getD "" ++ "\n\nCaused by:\n    " ++
      error.message)
    return 1
  | .ok config => do
    IO.println ("INFO starting watcher host=" ++ config.host ++ " port=" ++
      toString config.port.toNat)
    RespBus.Program.watch config (← IO.getEnv "MENUBUS_USER")
