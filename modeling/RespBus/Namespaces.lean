import RespBus.Framing

/-!
# Namespaces

The names under which a client stores and broadcasts: one key and one
channel for the menu, and a prefix each for the message queues and the
notification channels of entities. An entity's name is the prefix followed
by the entity's id, with nothing put between them.

The two fixed names may not be empty. The prefixes may, since an id alone is
a perfectly good name.

## Main definitions

* `Namespaces`: Key and channel names.
* `Namespaces.messageKey`: The key of an entity's message queue.
* `Namespaces.notificationChannel`: An entity's notification channel.
* `Namespaces.validate`: The refusal of empty fixed names.
-/

namespace RespBus

/-- Key and channel names. -/
structure Namespaces where
  /-- The channel that announces menu updates. -/
  menuChannel : String := "menu:updates"
  /-- The key that holds the current menu. -/
  menuKey : String := "menu:current"
  /-- What the keys of message queues start with. -/
  messagePrefix : String := "messages:"
  /-- What the notification channels start with. -/
  notificationPrefix : String := "notifications:"
  deriving DecidableEq

namespace Namespaces

/-- The key of an entity's message queue. -/
def messageKey (names : Namespaces) (id : String) : String :=
  names.messagePrefix ++ id

/-- An entity's notification channel. -/
def notificationChannel (names : Namespaces) (id : String) : String :=
  names.notificationPrefix ++ id

/-- Refuses an empty fixed name, the channel before the key. -/
def validate (names : Namespaces) : Except InvalidSetting Unit :=
  if names.menuChannel = "" then .error .emptyMenuChannel
  else if names.menuKey = "" then .error .emptyMenuKey
  else .ok ()

end Namespaces

end RespBus
