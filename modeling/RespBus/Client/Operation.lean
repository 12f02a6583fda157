import RespBus.Command.Payload
import RespBus.Namespaces
import RespBus.Request

/-!
# Operations

What a client offers to do, in words of menus and messages rather than of
commands. An operation says three things: which command it sends with which
arguments, what the request is for, and on which of the client's sessions it
goes out.

A connection in subscription mode can run nothing but subscriptions, so
those have sessions of their own: one for the menu channel, one for the
channels of entities. Everything else goes out on the publisher.

Operations on an entity carry its id along, so that a reply can be matched
with it. Ids, menus and messages are texts; what is broadcast may be any
bytes.

## Main definitions

* `Role`: The sessions of a client.
* `Operation`: What a client offers to do.
* `Operation.role`: The session an operation goes out on.
* `Operation.command`: The command an operation sends.
* `Operation.arguments`: The arguments of that command.
* `Operation.request`: The request an operation comes to.
-/

namespace RespBus

/-- The sessions of a client. -/
inductive Role where
  /-- Every command that is no subscription. -/
  | publisher
  /-- The subscription to the menu. -/
  | menu
  /-- The subscriptions to entities. -/
  | notifications
  deriving DecidableEq

namespace Role

/-- All sessions, in the order in which they are started and stopped. -/
def all : List Role :=
  [publisher, menu, notifications]

/-- The label under which a session reports. -/
def label : Role → String
  | publisher => "publisher"
  | menu => "menu-subscriber"
  | notifications => "notifications"

end Role

/-- What a client offers to do. -/
inductive Operation where
  /-- Read the menu. -/
  | fetchMenu
  /-- Replace the menu. -/
  | updateMenu (menu : String)
  /-- Take the next pending message of an entity. -/
  | retrieveMessage (id : String)
  /-- List the pending messages of an entity without taking them. -/
  | listMessages (id : String)
  /-- Add a message to those of an entity. -/
  | storeMessage (id message : String)
  /-- Announce a menu update. -/
  | publishMenu (payload : Bytes)
  /-- Broadcast on the channel of an entity. -/
  | notify (id : String) (payload : Bytes)
  /-- Follow the menu. -/
  | subscribeMenu
  /-- Follow an entity. -/
  | subscribe (id : String)
  /-- Stop following an entity. -/
  | unsubscribe (id : String)
  /-- Ask whether the peer is alive. -/
  | ping
  /-- Send any command of the catalog. -/
  | execute (command : Command) (args : List String)

namespace Operation

/-- The session an operation goes out on. -/
def role : Operation → Role
  | subscribeMenu => .menu
  | subscribe _ => .notifications
  | unsubscribe _ => .notifications
  | _ => .publisher

/-- The command an operation sends. -/
def command : Operation → Command
  | fetchMenu => .get
  | updateMenu _ => .set
  | retrieveMessage _ => .lPop
  | listMessages _ => .lRange
  | storeMessage _ _ => .rPush
  | publishMenu _ => .publish
  | notify _ _ => .publish
  | subscribeMenu => .subscribe
  | subscribe _ => .subscribe
  | unsubscribe _ => .unsubscribe
  | ping => .ping
  | execute command _ => command

/-- The arguments of the command. -/
def arguments (names : Namespaces) : Operation → List Bytes
  | fetchMenu => [.ofText names.menuKey]
  | updateMenu menu => [.ofText names.menuKey, .ofText menu]
  | retrieveMessage id => [.ofText (names.messageKey id)]
  | listMessages id => [.ofText (names.messageKey id), .ofText "0", .ofText "-1"]
  | storeMessage id message => [.ofText (names.messageKey id), .ofText message]
  | publishMenu payload => [.ofText names.menuChannel, payload]
  | notify id payload => [.ofText (names.notificationChannel id), payload]
  | subscribeMenu => [.ofText names.menuChannel]
  | subscribe id => [.ofText (names.notificationChannel id)]
  | unsubscribe id => [.ofText (names.notificationChannel id)]
  | ping => []
  | execute _ args => args.map .ofText

/-- What the request is for. -/
def purpose : Operation → Purpose
  | fetchMenu => .fetchMenu
  | updateMenu _ => .updateMenu
  | retrieveMessage _ => .retrieveMessage
  | listMessages _ => .retrieveMessage
  | storeMessage _ _ => .storeMessage
  | publishMenu _ => .publish
  | notify _ _ => .publish
  | subscribeMenu => .subscribe
  | subscribe _ => .subscribe
  | unsubscribe _ => .unsubscribe
  | ping => .generic
  | execute _ _ => .generic

/-- The entity an operation is about, if it is about one. -/
def correlation : Operation → Option String
  | retrieveMessage id => some id
  | listMessages id => some id
  | storeMessage id _ => some id
  | notify id _ => some id
  | subscribe id => some id
  | unsubscribe id => some id
  | _ => none

/-- The request an operation comes to. -/
def request (names : Namespaces) (operation : Operation) : Request where
  purpose := operation.purpose
  payload := operation.command.payload (operation.arguments names)
  correlation := operation.correlation

end Operation

end RespBus
