import RespBus.Proofs.Session.Ledger

/-!
# Starts and Completions by Turns

The queue of a session is called in any order: requests are handed in, writes
are started, and writes are completed. Most calls are in vain, as a session
asks for the next write whenever something has happened. Leaving those out, and
what was handed in, a run of calls is a list of turns.

The turns of a fresh queue go in pairs. The first of a pair hands out the
payload of a request and the second gives the request back, and only the last
pair can be unfinished. That is an equation between the turns and the requests
given back (`turns_eq`), and it holds of every queue if the write that is under
way at first is counted as begun. A request given back is the front one of the
queue. It was the front one when its write began as well, since what is handed
in goes to the back; in the equation both are `writing`, which handing in does
not change.

That the requests given back are those handed in, in order, is the balance of
the ledger, over calls instead of stimuli.

## Main definitions

* `Outbound.Call`: A call on a queue.
* `Outbound.Turn`: What a call gave that was not in vain.
* `Outbound.Turn.pair`: The two turns of a request.
* `Outbound.turns`: The turns of a run of calls.

## Theorems

* `Outbound.passes_call`, `Outbound.passes_calls`: Calls keep the balance.
* `Outbound.turns_call`, `Outbound.turns_eq`: Turns go in pairs.
* `Outbound.length_writing`: The flag says whether a write is under way.
* `Outbound.one_write_at_a_time`: All that holds after calls on a fresh queue.
-/

namespace RespBus

namespace Outbound

/-- A call on a queue. -/
inductive Call where
  /-- A request is handed in. -/
  | enqueue (request : Request)
  /-- The next write is asked for. -/
  | start
  /-- The write under way is done. -/
  | complete

/-- What a call gave that was not in vain. -/
inductive Turn where
  /-- A payload to be written. -/
  | began (payload : Bytes)
  /-- The request whose write is done. -/
  | ended (request : Request)

namespace Turn

/-- The turn with which the write of a request begins. -/
def first (request : Request) : Turn :=
  .began request.payload

/-- The two turns of a request: its payload, and then the request itself. -/
def pair (request : Request) : List Turn :=
  [first request, .ended request]

/-- The payloads handed out, in order. -/
def payloads (turns : List Turn) : List Bytes :=
  turns.filterMap fun
    | began payload => some payload
    | ended _ => none

/-- The requests given back, in order. -/
def requests (turns : List Turn) : List Request :=
  turns.filterMap fun
    | began _ => none
    | ended request => some request

theorem payloads_append (earlier later : List Turn) :
    payloads (earlier ++ later) = payloads earlier ++ payloads later :=
  List.filterMap_append

theorem requests_append (earlier later : List Turn) :
    requests (earlier ++ later) = requests earlier ++ requests later :=
  List.filterMap_append

end Turn

namespace Call

/-- The request that a call hands in. -/
def request? : Call → Option Request
  | enqueue request => some request
  | _ => none

/-- The queue after a call. -/
def after (queue : Outbound) : Call → Outbound
  | enqueue request => queue.enqueue request
  | start => queue.start.2
  | complete => queue.complete.2

/-- The turn that a call makes, unless it is in vain. -/
def turn? (queue : Outbound) : Call → Option Turn
  | enqueue _ => none
  | start => queue.start.1.map .began
  | complete => queue.complete.1.map .ended

end Call

/-- The turns of a run of calls, in order. -/
def turns (queue : Outbound) : List Call → List Turn
  | [] => []
  | call :: calls => (call.turn? queue).toList ++ (call.after queue).turns calls

/-- What calls make of a fresh queue. -/
def ofCalls (calls : List Call) : Outbound :=
  calls.foldl Call.after {}

variable {queue : Outbound}

/-- A call on a queue passes what it hands in and the turn that it makes. -/
theorem passes_call (h : queue.Sound) (call : Call) :
    queue.Passes call.request?.toList (Turn.requests (call.turn? queue).toList)
      (Turn.payloads (call.turn? queue).toList) (call.after queue) := by
  cases call with
  | enqueue request => exact passes_enqueue h request
  | start =>
      have hpasses := passes_start h
      rw [Call.turn?, Call.after]
      rcases queue.start_cases with ⟨request, others, rfl, hstart⟩ | ⟨_, hstart⟩
      · rw [hstart] at hpasses ⊢
        exact hpasses
      · rw [hstart] at hpasses ⊢
        exact hpasses
  | complete =>
      have hpasses := passes_complete h
      rw [Call.turn?, Call.after]
      rcases complete_cases h with ⟨request, others, rfl, hcomplete⟩ | ⟨_, hcomplete⟩
      · rw [hcomplete] at hpasses ⊢
        exact hpasses
      · rw [hcomplete] at hpasses ⊢
        exact hpasses

/-- Calls keep the balance of a queue. -/
theorem passes_calls (calls : List Call) :
    ∀ {queue : Outbound}, queue.Sound →
      queue.Passes (calls.filterMap Call.request?) (Turn.requests (queue.turns calls))
        (Turn.payloads (queue.turns calls)) (calls.foldl Call.after queue) := by
  induction calls with
  | nil =>
      intro queue h
      exact Passes.refl h
  | cons call calls ih =>
      intro queue h
      have hcall := passes_call h call
      have hrequests : (call :: calls).filterMap Call.request? =
          call.request?.toList ++ calls.filterMap Call.request? := by
        rw [List.filterMap_cons]
        cases call.request? <;> rfl
      -- What passes in the first call and what passes in the others come one
      -- after the other.
      rw [hrequests, turns, Turn.requests_append, Turn.payloads_append]
      exact hcall.trans (ih hcall.sound)

-- A call leaves the request that is being written alone, or it makes the turn
-- that begins or ends its write.
theorem turns_call (h : queue.Sound) (call : Call) :
    queue.writing.map Turn.first ++ (call.turn? queue).toList =
      (Turn.requests (call.turn? queue).toList).flatMap Turn.pair ++
        (call.after queue).writing.map Turn.first := by
  cases call with
  | enqueue request =>
      rw [Call.after, writing_enqueue h]
      exact List.append_nil _
  | start =>
      rw [Call.turn?, Call.after]
      rcases queue.start_cases with ⟨request, others, rfl, hstart⟩ | ⟨_, hstart⟩
      · -- No write was under way, and now that of the front request is.
        rw [hstart]
        rfl
      · rw [hstart]
        exact List.append_nil _
  | complete =>
      rw [Call.turn?, Call.after]
      rcases complete_cases h with ⟨request, others, rfl, hcomplete⟩ | ⟨_, hcomplete⟩
      · -- The request given back is the one whose write was under way.
        rw [hcomplete]
        rfl
      · rw [hcomplete]
        exact List.append_nil _

/-- Turns go in pairs. The first pair may have begun before the run, and the
    last may be unfinished at its end. -/
theorem turns_eq (calls : List Call) :
    ∀ {queue : Outbound}, queue.Sound →
      queue.writing.map Turn.first ++ queue.turns calls =
        (Turn.requests (queue.turns calls)).flatMap Turn.pair ++
          (calls.foldl Call.after queue).writing.map Turn.first := by
  induction calls with
  | nil =>
      intro queue _
      exact List.append_nil _
  | cons call calls ih =>
      intro queue h
      rw [turns, Turn.requests_append, List.flatMap_append, ← List.append_assoc, turns_call h call,
        List.append_assoc, ih (passes_call h call).sound, List.append_assoc, List.foldl_cons]

/-- One request is being written, or none is. -/
theorem length_writing (h : queue.Sound) : queue.writing.length = queue.inFlight.toNat := by
  unfold writing
  by_cases hflight : queue.inFlight = true
  · have hsome := List.length_pos_iff.2 (h hflight)
    rw [if_pos hflight, hflight, List.length_take, Bool.toNat_true]
    omega
  · rw [if_neg hflight, Bool.eq_false_iff.2 hflight]
    rfl

/-- A start that gives no payload changes nothing. -/
theorem start_of_none (h : queue.start.1 = none) : queue.start.2 = queue := by
  rcases queue.start_cases with ⟨request, others, _, hstart⟩ | ⟨_, hstart⟩
  · rw [hstart] at h
    exact absurd h (Option.some_ne_none request.payload)
  · rw [hstart]

-- Without a request at the front the flag would be taken down for nothing.
theorem complete_of_none (hsound : queue.Sound) (h : queue.complete.1 = none) :
    queue.complete.2 = queue := by
  rcases complete_cases hsound with ⟨request, others, _, hcomplete⟩ | ⟨_, hcomplete⟩
  · rw [hcomplete] at h
    exact absurd h (Option.some_ne_none request)
  · rw [hcomplete]

/-- After any calls on a fresh queue, the requests given back and those pending
    are the ones handed in, in order. Starts and completions took turns, and each
    completion gave back the request whose payload the start before it had handed
    out. Only the last start can be without its completion; the flag says so, and
    the request is at the front then. A start or a completion that gives nothing
    changes nothing. -/
theorem one_write_at_a_time (calls : List Call) :
    Turn.requests (turns {} calls) ++ (ofCalls calls).pending =
        calls.filterMap Call.request? ∧
      turns {} calls = (Turn.requests (turns {} calls)).flatMap Turn.pair ++
        (ofCalls calls).writing.map Turn.first ∧
      (Turn.payloads (turns {} calls)).length =
        (Turn.requests (turns {} calls)).length + (ofCalls calls).inFlight.toNat ∧
      ((ofCalls calls).inFlight = true → (ofCalls calls).pending ≠ []) ∧
      ((ofCalls calls).start.1 = none → (ofCalls calls).start.2 = ofCalls calls) ∧
      ((ofCalls calls).complete.1 = none → (ofCalls calls).complete.2 = ofCalls calls) := by
  have hpasses := passes_calls calls sound_empty
  have hturns := turns_eq calls sound_empty
  have hlength := length_writing hpasses.sound
  -- As many writes began as were ended or are under way.
  rcases hpasses.begun with ⟨begun, hbegun, hpayloads⟩
  have hcounts := congrArg List.length hbegun
  rw [List.length_append, List.length_append, hlength] at hcounts
  refine ⟨hpasses.conserved.symm, hturns, ?_, hpasses.sound, start_of_none,
    complete_of_none hpasses.sound⟩
  rw [hpayloads, List.length_map]
  exact (Nat.zero_add _).symm.trans hcounts

/-- A request handed in and started, an empty one handed in meanwhile, a start in
    vain, and then the completion and the next start. -/
def crowdedCalls : List Call :=
  [.enqueue ⟨.generic, [97], none⟩, .start, .enqueue ⟨.generic, [], none⟩, .start, .complete,
    .start]

-- The run without its last call ends where a completion would be in vain.
theorem one_write_at_a_time_crowded :
    turns {} crowdedCalls =
        [.began [97], .ended ⟨.generic, [97], none⟩, .began []] ∧
      (ofCalls crowdedCalls).inFlight = true ∧ (ofCalls crowdedCalls).pending ≠ [] ∧
      (ofCalls crowdedCalls).start.1 = none ∧
      (ofCalls crowdedCalls).start.2 = ofCalls crowdedCalls ∧
      (ofCalls crowdedCalls.dropLast).complete.1 = none ∧
      (ofCalls crowdedCalls.dropLast).complete.2 = ofCalls crowdedCalls.dropLast := by
  rcases one_write_at_a_time crowdedCalls with ⟨_, hturns, _, hpending, hstart, _⟩
  rcases one_write_at_a_time crowdedCalls.dropLast with ⟨_, _, _, _, _, hcomplete⟩
  exact ⟨hturns, rfl, hpending rfl, rfl, hstart rfl, rfl, hcomplete rfl⟩

end Outbound

end RespBus
