import RespBus.Proofs.Client.Views
import RespBus.Proofs.Command.Pipeline
import RespBus.Proofs.Session.Stages

/-!
# The Wires of a Client

What a client puts on its three connections is what its operations are meant
to put there. `Operation.intent` says what each is meant to do, in the words
the peer sees: on which session it goes out, which words it consists of, and
what is noted of it for the reply. No part of it is read off the bytes.

In any run at all, the operations that a session accepted are those that were
written, then at most one whose write did not come to a good end, then those
that were left, in the order of the calls. What is on the wire is the pipeline
of the first, and a front part of the one after them. So no id and no message
makes up for a command, and the peer reads whole commands up to where the wire
breaks off.

## Main definitions

* `Operation.Intent`: What an operation is meant to put on a wire.
* `Operation.intent`: What each operation is meant to do.
* `Client.Facade`: Moves in which only operations send.
* `Client.routed`: The operations that a session accepts in moves.
* `Client.OnWire`: The bytes that a client can have put on a wire.
* `Client.Stages`: The operations that were accepted, by how far they have come.

## Theorems

* `Operation.intent_eq`: An operation sends the command it is meant to send.
* `Client.accepted_stimuli`: A session accepts the operations routed to it.
* `Client.stages_run`: How far the operations come that a session accepts.
* `Client.decode_operations`: A pipeline of operations is read as their words.
* `Client.Stages.decodeAll_part`: Of a write that broke off nothing is read.
* `Client.Stages.decode_wire`: What is read from a wire.
* `Client.Stages.eq_done`: With nothing left and no failure, all is written.
-/

namespace RespBus

namespace Operation

/-- What an operation is meant to put on a wire. -/
structure Intent where
  role : Role
  /-- The verb and the arguments, as the peer reads them. -/
  words : List Bytes
  /-- What is noted for the reply. -/
  origin : Origin

namespace Intent

/-- The array of bulk strings that the words are read as. -/
def reply (intent : Intent) : Reply :=
  .array (intent.words.map .bulk)

/-- The bounds within which the words can be read. Only a command that is
    passed through has more than three arguments, and the bound on their
    number is that of a signed 64-bit count. -/
structure Fits (intent : Intent) : Prop where
  words : ∀ word ∈ intent.words, word.length ≤ maxBulkLength
  count : intent.words.length ≤ Decimal.limit

end Intent

/-- What each operation is meant to do under given names. -/
def intent (names : Namespaces) : Operation → Intent
  | fetchMenu =>
    ⟨.publisher, ["GET", names.menuKey].map .ofText, ⟨.fetchMenu, none⟩⟩
  | updateMenu menu =>
    ⟨.publisher, ["SET", names.menuKey, menu].map .ofText, ⟨.updateMenu, none⟩⟩
  | retrieveMessage id =>
    ⟨.publisher, ["LPOP", names.messagePrefix ++ id].map .ofText, ⟨.retrieveMessage, some id⟩⟩
  | listMessages id =>
    ⟨.publisher, ["LRANGE", names.messagePrefix ++ id, "0", "-1"].map .ofText,
      ⟨.retrieveMessage, some id⟩⟩
  | storeMessage id message =>
    ⟨.publisher, ["RPUSH", names.messagePrefix ++ id, message].map .ofText,
      ⟨.storeMessage, some id⟩⟩
  | publishMenu payload =>
    ⟨.publisher, ["PUBLISH", names.menuChannel].map .ofText ++ [payload], ⟨.publish, none⟩⟩
  | notify id payload =>
    ⟨.publisher, ["PUBLISH", names.notificationPrefix ++ id].map .ofText ++ [payload],
      ⟨.publish, some id⟩⟩
  | ping => ⟨.publisher, ["PING"].map .ofText, ⟨.generic, none⟩⟩
  | execute command args =>
    ⟨.publisher, (command.verb :: args).map .ofText, ⟨.generic, none⟩⟩
  | subscribeMenu =>
    ⟨.menu, ["SUBSCRIBE", names.menuChannel].map .ofText, ⟨.subscribe, none⟩⟩
  | subscribe id =>
    ⟨.notifications, ["SUBSCRIBE", names.notificationPrefix ++ id].map .ofText,
      ⟨.subscribe, some id⟩⟩
  | unsubscribe id =>
    ⟨.notifications, ["UNSUBSCRIBE", names.notificationPrefix ++ id].map .ofText,
      ⟨.unsubscribe, some id⟩⟩

/-- The command an operation sends, with its arguments. -/
def call (names : Namespaces) (operation : Operation) : Call :=
  ⟨operation.command, operation.arguments names⟩

/-- What is meant by an operation is what is done for it: its session, its words
    and its origin. -/
theorem intent_eq (names : Namespaces) (operation : Operation) :
    operation.intent names =
      ⟨operation.role, (operation.call names).words, (operation.request names).origin⟩ := by
  cases operation <;> rfl

/-- What is sent for an operation reads as what is meant by it. -/
theorem reply_call (names : Namespaces) (operation : Operation) :
    (operation.call names).reply = (operation.intent names).reply := by
  rw [intent_eq]
  rfl

theorem role_intent (names : Namespaces) (operation : Operation) :
    (operation.intent names).role = operation.role := by
  rw [intent_eq]

theorem origin_request (names : Namespaces) (operation : Operation) :
    (operation.request names).origin = (operation.intent names).origin := by
  rw [intent_eq]

/-- An operation within the limits makes a call within the limits, the verb
    being one word of the count. -/
theorem Intent.Fits.call {names : Namespaces} {operation : Operation}
    (h : (operation.intent names).Fits) : (operation.call names).Fits := by
  rw [intent_eq] at h
  exact ⟨fun arg harg => h.words arg (List.mem_cons_of_mem _ harg), h.count⟩

end Operation

namespace Client

/-- Moves in which nobody but an operation sends, and every operation can be
    read. -/
structure Facade (names : Namespaces) (moves : List Move) : Prop where
  own : ∀ role request, .happen role (.send request) ∉ moves
  fits : ∀ operation, .call operation ∈ moves → (operation.intent names).Fits

/-- The operations meant for the session of a role that are accepted in moves,
    in order. -/
def routed (role : Role) : Client → List Move → List Operation
  | _, [] => []
  | client, .call operation :: moves =>
    let later := routed role (client.step (.call operation)).1 moves
    if (operation.intent client.namespaces).role = role ∧ client.offer operation = .ok () then
      operation :: later
    else later
  | client, .happen other stimulus :: moves =>
    routed role (client.step (.happen other stimulus)).1 moves

/-- An operation is taken just if its session still accepts requests. -/
theorem offer_eq_ok_iff (client : Client) (operation : Operation) :
    client.offer operation = .ok () ↔ (client.session operation.role).accepts = true := by
  unfold offer Session.offer
  by_cases haccepts : (client.session operation.role).accepts = true
  · rw [if_pos haccepts]
    exact ⟨fun _ => haccepts, fun _ => rfl⟩
  · rw [if_neg haccepts]
    exact ⟨fun h => absurd h (by simp only [reduceCtorEq, not_false_eq_true]),
      fun h => absurd h haccepts⟩

-- Only what is called is ever accepted.
theorem mem_of_mem_routed {role : Role} {operation : Operation} (moves : List Move) :
    ∀ client : Client, operation ∈ client.routed role moves →
      operation.role = role ∧ .call operation ∈ moves := by
  induction moves with
  | nil =>
      intro client h
      exact absurd h List.not_mem_nil
  | cons move moves ih =>
      intro client h
      -- What is routed later was among the other moves.
      have hlater : ∀ after : Client, operation ∈ after.routed role moves →
          operation.role = role ∧ .call operation ∈ move :: moves := by
        intro after hmem
        rcases ih after hmem with ⟨hrole, hcall⟩
        exact ⟨hrole, List.mem_cons_of_mem _ hcall⟩
      cases move with
      | happen other stimulus => exact hlater _ h
      | call found =>
          rw [routed] at h
          by_cases htaken : (found.intent client.namespaces).role = role ∧
              client.offer found = .ok ()
          · simp only [if_pos htaken] at h
            rcases List.mem_cons.1 h with rfl | hmem
            · exact ⟨by rw [← htaken.1, Operation.role_intent], List.mem_cons_self⟩
            · exact hlater _ hmem
          · simp only [if_neg htaken] at h
            exact hlater _ h

/-- What a session accepts of the stimuli that reach it are the requests of
    the operations routed to it. The induction is on the moves. -/
theorem accepted_stimuli (role : Role) (moves : List Move)
    (hown : ∀ other request, Move.happen other (.send request) ∉ moves) :
    ∀ client : Client,
      (client.session role).accepted (stimuli client.namespaces role moves) =
        (client.routed role moves).map (Operation.request client.namespaces) := by
  induction moves with
  | nil =>
      intro client
      rfl
  | cons move moves ih =>
      intro client
      -- The session after the move is the one the other stimuli meet.
      rcases seen_eq_iff.1 (seen_step client role move) with ⟨hsession, _⟩
      have hlater := ih (fun other request hmem =>
        hown other request (List.mem_cons_of_mem _ hmem)) (client.step move).1
      rw [namespaces_step, hsession] at hlater
      rw [stimuli_cons, Session.accepted, Session.along_append]
      change _ ++ Session.accepted _ (stimuli client.namespaces role moves) = _
      rw [hlater]
      cases move with
      | call operation =>
          rw [routed, Move.stimulus?]
          simp only [offer_eq_ok_iff, Operation.role_intent]
          by_cases hrole : operation.role = role
          · rw [if_pos hrole]
            simp only [Option.toList_some, Session.along, Session.accepted?, hrole, true_and]
            by_cases haccepts : (client.session role).accepts = true
            · rw [if_pos haccepts, if_pos haccepts]
              rfl
            · rw [if_neg haccepts, if_neg haccepts]
              rfl
          · rw [if_neg hrole, if_neg fun h => hrole h.1]
            rfl
      -- Nothing else that happens hands in a request.
      | happen other stimulus =>
          rw [routed, Move.stimulus?]
          by_cases hrole : other = role
          · rw [if_pos hrole]
            cases stimulus with
            | send request => exact absurd List.mem_cons_self (hown other request)
            | _ => rfl
          · rw [if_neg hrole]
            rfl

/-- The bytes that a client can have put on the wire of a role in moves. -/
def OnWire (client : Client) (role : Role) (moves : List Move) (wire : Bytes) : Prop :=
  (client.session role).OnWire (stimuli client.namespaces role moves) wire

/-- The operations that a session accepted in moves, by how far they have come:
    those that were written, unfinished ones whose write began and did not end
    well, and those that were left. -/
structure Stages (client : Client) (role : Role) (moves : List Move)
    (done unfinished left : List Operation) : Prop where
  routed : client.routed role moves = done ++ unfinished ++ left
  single : unfinished.length ≤ 1
  written : (client.session role).written (stimuli client.namespaces role moves) =
    done.map (Operation.request client.namespaces)
  handed : Effect.handed (effectsOf role (client.run moves).2) =
    Call.pipeline ((done ++ unfinished).map (Operation.call client.namespaces))
  waiting : ((client.run moves).1.session role).queue.waiting =
    left.map (Operation.request client.namespaces)
  /-- Unless a write failed, what is unfinished is still being written. -/
  writing : (∀ loss, .happen role (.wrote (.error loss)) ∉ moves) →
    ((client.run moves).1.session role).queue.writing =
      unfinished.map (Operation.request client.namespaces)

/-- The payloads of operations are a pipeline of their calls. -/
theorem pipeline_eq_flatten (names : Namespaces) (operations : List Operation) :
    ((operations.map (Operation.request names)).map Request.payload).flatten =
      Call.pipeline (operations.map (Operation.call names)) := by
  rw [Call.pipeline, List.flatMap_def, List.map_map, List.map_map]
  rfl

/-- Whatever happens, the operations that a session accepted are written in the
    order of the calls, one after another, and those that are left were called
    last. -/
theorem stages_run {client : Client} {role : Role} (hqueue : (client.session role).queue = {})
    {moves : List Move} (hown : ∀ other request, .happen other (.send request) ∉ moves) :
    ∃ done unfinished left, client.Stages role moves done unfinished left := by
  rcases seen_eq_iff.1 (seen_run role moves client) with ⟨hsession, heffects⟩
  rcases Session.stages_run hqueue (stimuli client.namespaces role moves) with
    ⟨requests, hstages⟩
  have haccepted := hstages.accepted
  rw [accepted_stimuli role moves hown] at haccepted
  -- The requests fall into stages, and so do the operations they come from.
  rcases List.map_eq_append_iff.1 haccepted with ⟨begun, left, hrouted, hbegun, hleft⟩
  rcases List.map_eq_append_iff.1 hbegun with ⟨done, unfinished, rfl, hdone, hunfinished⟩
  refine ⟨done, unfinished, left, hrouted, ?_, hdone.symm, ?_, by rw [hsession, hleft], ?_⟩
  · have hsingle := hstages.single
    rwa [← hunfinished, List.length_map] at hsingle
  · rw [heffects, Effect.handed_eq_flatten, hstages.writes, ← hdone, ← hunfinished,
      ← List.map_append, pipeline_eq_flatten]
  · intro hunfailed
    rw [hsession, hunfinished]
    refine (hstages.writing fun loss hmem => hunfailed loss ?_).symm
    exact mem_of_mem_stimuli (fun request => by simp only [ne_eq, reduceCtorEq,
      not_false_eq_true]) hmem

/-- Operations within the limits make calls within the limits. -/
theorem fits_calls {names : Namespaces} {operations : List Operation}
    (h : ∀ operation ∈ operations, (operation.intent names).Fits) :
    ∀ call ∈ operations.map (Operation.call names), call.Fits := by
  intro call hcall
  rcases List.mem_map.1 hcall with ⟨operation, hoperation, rfl⟩
  exact (h operation hoperation).call

/-- The calls of operations within the limits, one after another, are decoded to
    what was meant. -/
theorem decode_operations {names : Namespaces} {operations : List Operation}
    (h : ∀ operation ∈ operations, (operation.intent names).Fits) :
    Reply.decodeAll (Call.pipeline (operations.map (Operation.call names))) =
      (operations.map fun operation => (operation.intent names).reply, []) := by
  have hall := Call.decodeAll_pipeline [] _ (fits_calls h)
  rw [List.append_nil, Reply.decodeAll_nil, List.append_nil, List.map_map] at hall
  rw [hall]
  simp only [Function.comp_def, Operation.reply_call]

namespace Stages

variable {client : Client} {role : Role} {moves : List Move}
variable {done unfinished left : List Operation} {wire : Bytes}

/-- Whatever is written or handed over was called, and so is within the limits. -/
theorem fits (h : client.Stages role moves done unfinished left)
    (hmoves : Facade client.namespaces moves) :
    ∀ operation ∈ done ++ unfinished, (operation.intent client.namespaces).Fits := by
  intro operation hoperation
  have hmem : operation ∈ client.routed role moves := by
    rw [h.routed]
    exact List.mem_append_left left hoperation
  exact hmoves.fits operation (mem_of_mem_routed moves client hmem).2

/-- What is on a wire is what was written, and behind it a front part of what was
    begun. -/
theorem wire_eq (h : client.Stages role moves done unfinished left)
    (hwire : client.OnWire role moves wire) :
    ∃ part, part <+: Call.pipeline (unfinished.map (Operation.call client.namespaces)) ∧
      wire = Call.pipeline (done.map (Operation.call client.namespaces)) ++ part := by
  have hdone : (((client.session role).written (stimuli client.namespaces role moves)).map
      Request.payload).flatten = Call.pipeline (done.map (Operation.call client.namespaces)) := by
    rw [h.written, pipeline_eq_flatten]
  have hhanded := h.handed
  rw [(seen_eq_iff.1 (seen_run role moves client)).2, List.map_append, Call.pipeline,
    List.flatMap_append, ← Call.pipeline, ← Call.pipeline, ← hdone] at hhanded
  rw [← hdone]
  exact Session.OnWire.eq_append hwire hhanded

/-- Of a write that did not come to a good end nothing is read, unless it got
    through as a whole. -/
theorem decodeAll_part (h : client.Stages role moves done unfinished left)
    (hmoves : Facade client.namespaces moves) {part : Bytes}
    (hpart : part <+: Call.pipeline (unfinished.map (Operation.call client.namespaces)))
    (hne : part ≠ Call.pipeline (unfinished.map (Operation.call client.namespaces))) :
    Reply.decodeAll part = ([], part) := by
  rcases hunfinished : unfinished with _ | ⟨operation, others⟩
  · -- A front part of nothing is all of it.
    rw [hunfinished] at hpart hne
    exact absurd (List.prefix_nil.1 hpart) hne
  · have hsingle := h.single
    rw [hunfinished, List.length_cons] at hsingle
    have hnone : others = [] := List.length_eq_zero_iff.1 (by omega)
    have hpayload : Call.pipeline (unfinished.map (Operation.call client.namespaces)) =
        (operation.call client.namespaces).payload := by
      rw [hunfinished, hnone]
      exact List.append_nil _
    rw [hpayload] at hpart hne
    refine Call.decodeAll_cut (h.fits hmoves operation ?_).call hpart hne
    rw [hunfinished]
    exact List.mem_append_right done List.mem_cons_self

/-- A wire is read as the commands that were written and the unfinished one if it
    got through as a whole. If it did not, its bytes are what is left over. -/
theorem decode_wire (h : client.Stages role moves done unfinished left)
    (hmoves : Facade client.namespaces moves) (hwire : client.OnWire role moves wire) :
    ∃ part, part <+: Call.pipeline (unfinished.map (Operation.call client.namespaces)) ∧
      wire = Call.pipeline (done.map (Operation.call client.namespaces)) ++ part ∧
      (part = Call.pipeline (unfinished.map (Operation.call client.namespaces)) →
        Reply.decodeAll wire = ((done ++ unfinished).map fun operation =>
          (operation.intent client.namespaces).reply, [])) ∧
      (part ≠ Call.pipeline (unfinished.map (Operation.call client.namespaces)) →
        Reply.decodeAll wire =
          (done.map fun operation => (operation.intent client.namespaces).reply, part)) := by
  have hfits := h.fits hmoves
  rcases h.wire_eq hwire with ⟨part, hpart, hwhole⟩
  refine ⟨part, hpart, hwhole, fun heq => ?_, fun hne => ?_⟩
  · rw [hwhole, heq, Call.pipeline, Call.pipeline, ← List.flatMap_append, ← List.map_append]
    exact decode_operations hfits
  · have hdone := fits_calls fun operation hoperation =>
      hfits operation (List.mem_append_left unfinished hoperation)
    rw [hwhole, Call.decodeAll_pipeline part _ hdone, h.decodeAll_part hmoves hpart hne,
      List.append_nil, List.map_map]
    simp only [Function.comp_def, Operation.reply_call]

/-- With nothing left to write and no write that failed, all that was accepted is
    written. -/
theorem eq_done (h : client.Stages role moves done unfinished left)
    (hempty : ((client.run moves).1.session role).queue.pending = [])
    (hunfailed : ∀ loss, .happen role (.wrote (.error loss)) ∉ moves) :
    unfinished = [] ∧ client.routed role moves = done := by
  have hwhole := ((client.run moves).1.session role).queue.writing_append_waiting
  rw [h.writing hunfailed, h.waiting, hempty, List.append_eq_nil_iff, List.map_eq_nil_iff,
    List.map_eq_nil_iff] at hwhole
  refine ⟨hwhole.1, ?_⟩
  rw [h.routed, hwhole.1, hwhole.2, List.append_nil, List.append_nil]

end Stages

end Client

end RespBus
