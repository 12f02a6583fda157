/-!
# Command Catalog

The closed set of commands a client of the bus can issue. A command is known
by its verb, which is what goes on the wire, and the verbs are written in
upper case. Reading a verb back ignores the case of ASCII letters and of no
others, because that is how peers compare them.

Subscribing turns a connection into one that may carry only further
subscriptions. `changesMode` singles out the commands that enter or leave
that state; who may send them on which connection is decided elsewhere.

## Main definitions

* `Command`: The commands of the catalog.
* `Command.all`: The catalog in its own order.
* `Command.verb`: The word a command is sent as.
* `Command.ofVerb?`: The command a word names, in any ASCII case.
* `Command.changesMode`: Whether a command enters or leaves subscription mode.
-/

namespace RespBus

/-- A command of the catalog. -/
inductive Command where
  | get
  | set
  | incrBy
  | lPop
  | lRange
  | rPush
  | ping
  | publish
  | subscribe
  | unsubscribe
  deriving DecidableEq

namespace Command

/-- The catalog: strings, lists, the liveness probe, then broadcasting. -/
def all : List Command :=
  [get, set, incrBy, lPop, lRange, rPush, ping, publish, subscribe, unsubscribe]

/-- The word a command is sent as. -/
def verb : Command → String
  | get => "GET"
  | set => "SET"
  | incrBy => "INCRBY"
  | lPop => "LPOP"
  | lRange => "LRANGE"
  | rPush => "RPUSH"
  | ping => "PING"
  | publish => "PUBLISH"
  | subscribe => "SUBSCRIBE"
  | unsubscribe => "UNSUBSCRIBE"

/-- The command whose verb is `word` once its ASCII letters are raised to
    upper case. -/
def ofVerb? (word : String) : Option Command :=
  all.find? fun command => command.verb == word.map Char.toUpper

/-- Whether the command puts a connection into subscription mode or takes it
    back out. -/
def changesMode : Command → Bool
  | subscribe => true
  | unsubscribe => true
  | _ => false

theorem verb_injective {a b : Command} (h : a.verb = b.verb) : a = b := by
  revert h
  cases a <;> cases b <;> decide

end Command

end RespBus
