import RespBus.Client.Basic
import RespBus.Reply.Description

/-!
# Watching

A watcher follows the menu, and one user's notifications if it is told of a
user. It asks for what it follows once, at the start, and from then on only
keeps a log: one entry for each message and for each session that fails.

A message is logged by the description of its first reply. Where the message
does not start with a complete reply, its bytes are logged as they are.

## Main definitions

* `Watch.operations`: What a watcher asks for at the start.
* `Watch.Entry`: An entry of the log.
* `Watch.Entry.ofEvent`: The entry for an event.
* `Watch.Entry.level`, `Watch.Entry.event`, `Watch.Entry.field`,
  `Watch.Entry.value`: What stands in the entry.
-/

namespace RespBus

namespace Watch

/-- What a watcher asks for at the start. -/
def operations (user : Option String) : List Operation :=
  [.subscribeMenu, .fetchMenu] ++
    match user with
    | none => []
    | some id => [.subscribe id, .retrieveMessage id]

/-- An entry of the log. -/
inductive Entry where
  /-- A message that starts with a complete reply. -/
  | reply (session : String) (origin : Option Purpose) (reply : Reply)
  /-- Any other message. -/
  | raw (session : String) (origin : Option Purpose) (data : Bytes)
  /-- A session that failed. -/
  | failure (session : String) (origin : Option Purpose) (error : SessionError)

/-- The word for a purpose. -/
def purposeText : Purpose → String
  | .fetchMenu => "FetchMenu"
  | .retrieveMessage => "RetrieveMessage"
  | .updateMenu => "UpdateMenu"
  | .subscribe => "Subscribe"
  | .unsubscribe => "Unsubscribe"
  | .storeMessage => "StoreMessage"
  | .publish => "Publish"
  | .generic => "Generic"

/-- The word for a purpose that may be missing. -/
def originText : Option Purpose → String
  | none => "None"
  | some purpose => "Some(" ++ purposeText purpose ++ ")"

namespace Entry

/-- The entry for an event. -/
def ofEvent (event : Event) : Entry :=
  let origin := event.origin.map Origin.purpose
  match event.content with
  | .error error => failure event.session origin error
  | .ok frame =>
    match Reply.decode frame with
    -- What follows the first reply of a message is not looked at.
    | .complete (found, _) => reply event.session origin found
    | _ => raw event.session origin frame

/-- How serious the entry is. -/
def level : Entry → String
  | failure _ _ _ => "ERROR"
  | _ => "INFO"

/-- What the entry reports. -/
def event : Entry → String
  | failure _ _ _ => "session failed"
  | _ => "message"

/-- The session the entry is about. -/
def session : Entry → String
  | reply session _ _ => session
  | raw session _ _ => session
  | failure session _ _ => session

/-- The purpose of the request the entry is attributed to. -/
def origin : Entry → Option Purpose
  | reply _ origin _ => origin
  | raw _ origin _ => origin
  | failure _ origin _ => origin

/-- The name under which the entry's value stands. -/
def field : Entry → String
  | reply _ _ _ => "reply"
  | raw _ _ _ => "raw"
  | failure _ _ _ => "error"

/-- The value the entry shows. -/
def value : Entry → String
  | reply _ _ found => found.describe
  | raw _ _ data => data.toTextLossy
  | failure _ _ error => error.message

end Entry

end Watch

end RespBus
