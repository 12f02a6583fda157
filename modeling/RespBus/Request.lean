import RespBus.Bytes

/-!
# Requests

A request is one payload together with the reason it was issued. The
payload is written and forgotten; the reason, its `Origin`, is kept so that
a later reply can be attributed to it.

## Main definitions

* `Purpose`: Why a request is issued.
* `Origin`: A purpose with the caller's own label.
* `Request`: A payload with its purpose.
* `Request.origin`: What outlives the payload.
-/

namespace RespBus

/-- Why a request is issued. -/
inductive Purpose where
  /-- Read the current menu. -/
  | fetchMenu
  /-- Take or list the pending messages of an entity. -/
  | retrieveMessage
  /-- Replace the stored menu. -/
  | updateMenu
  /-- Join a channel. -/
  | subscribe
  /-- Leave a channel. -/
  | unsubscribe
  /-- Append to the messages of an entity. -/
  | storeMessage
  /-- Broadcast on a channel. -/
  | publish
  /-- Anything else. -/
  | generic
  deriving DecidableEq

/-- What is left of a request once its payload is written. -/
structure Origin where
  purpose : Purpose
  /-- The caller's own label, such as an entity's id; never interpreted. -/
  correlation : Option String
  deriving DecidableEq

/-- A payload ready to be written, tagged with its purpose. -/
structure Request where
  purpose : Purpose
  payload : Bytes
  correlation : Option String := none
  deriving DecidableEq

/-- The part of a request that outlives its payload. -/
def Request.origin (request : Request) : Origin :=
  ⟨request.purpose, request.correlation⟩

end RespBus
