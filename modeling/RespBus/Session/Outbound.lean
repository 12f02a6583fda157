import RespBus.Request

/-!
# The Outbound Queue

Requests that were accepted wait in order of acceptance, and at most one of
them is being written. The one being written stays at the front of the queue
until its write is done; new requests go to the back. So whatever is accepted
in the meantime, the request whose write completes is the one whose payload
was handed out.

`start` and `complete` answer nothing when there is nothing to do, and the
queue is then as it was.

## Main definitions

* `Outbound`: Accepted requests, the front one possibly being written.
* `Outbound.enqueue`: One more request at the back.
* `Outbound.start`: The payload to write now, if any.
* `Outbound.complete`: The request whose write is done, if any.
-/

namespace RespBus

/-- Accepted requests in order. While `inFlight` holds, the front one is
    being written. -/
structure Outbound where
  pending : List Request := []
  inFlight : Bool := false

namespace Outbound

/-- One more request at the back. -/
def enqueue (queue : Outbound) (request : Request) : Outbound :=
  { queue with pending := queue.pending ++ [request] }

/-- The payload of the front request, unless a write is under way already. -/
def start (queue : Outbound) : Option Bytes × Outbound :=
  if queue.inFlight then (none, queue)
  else
    match queue.pending with
    | [] => (none, queue)
    | request :: _ => (some request.payload, { queue with inFlight := true })

/-- The front request, if its write was under way and is now done. -/
def complete (queue : Outbound) : Option Request × Outbound :=
  if queue.inFlight then (queue.pending.head?, ⟨queue.pending.tail, false⟩) else (none, queue)

end Outbound

end RespBus
