import RespBus.Proofs.Client.Deeds

/-!
# Isolation of the Sessions

Subscribing puts a connection into a mode in which nothing but subscriptions
can be sent over it. That is why a client has sessions for subscriptions and a
publisher for all other commands, and the operations with a name of their own
keep to that: those on the publisher never change the mode, and those on the
other two sessions do nothing else.

One operation does not keep to it. Executing sends any command of the catalog
on the publisher, the two that change the mode included. So the publisher is
as isolated as the user of that operation makes it. `isolated_run` says that
nothing else gets a command that changes the mode onto the publisher's wire,
however the operations, their arguments and what happens to the sessions are
chosen. A wire is a pipeline in one way only, so it is meaningful to speak of
the calls on it.

## Theorems

* `Operation.changesMode_of_role`: Subscriptions are all that leaves the
  publisher alone.
* `Operation.executes_of_changesMode`: Only executing changes the mode of the
  publisher.
* `Client.isolated_run`: Which wires carry commands that change the mode.
* `Client.subscribed_publisher`: A subscription on the publisher's wire.
-/

namespace RespBus

namespace Operation

/-- Whatever goes to another session than the publisher changes the mode of its
    connection. -/
theorem changesMode_of_role {operation : Operation} (h : operation.role ≠ .publisher) :
    operation.command.changesMode = true := by
  cases operation with
  | subscribeMenu => rfl
  | subscribe id => rfl
  | unsubscribe id => rfl
  | _ => exact absurd rfl h

-- Every other operation on the publisher has a command of its own.
theorem executes_of_changesMode {operation : Operation} (h : operation.role = .publisher)
    (hchanges : operation.command.changesMode = true) :
    ∃ args, operation = .execute operation.command args := by
  cases operation with
  | execute command args => exact ⟨args, rfl⟩
  | subscribeMenu => exact absurd h (by decide)
  | subscribe id => exact absurd h (by simp only [role, reduceCtorEq, not_false_eq_true])
  | unsubscribe id => exact absurd h (by simp only [role, reduceCtorEq, not_false_eq_true])
  | _ => exact absurd hchanges (by simp only [command, Command.changesMode, Bool.false_eq_true,
      not_false_eq_true])

end Operation

namespace Client

/-- Which wires carry commands that change the mode. Every wire is a front part of
    a pipeline, namely of what was handed over, and that is one of a single list
    of calls. On the sessions for subscriptions all of them change the mode. On
    the publisher one that does was executed, in just these words. -/
theorem isolated_run {client : Client} {role : Role} (hqueue : (client.session role).queue = {})
    {moves : List Move} (hown : ∀ other request, .happen other (.send request) ∉ moves) :
    ∃ calls, Effect.handed (effectsOf role (client.run moves).2) = Call.pipeline calls ∧
      (∀ wire, client.OnWire role moves wire → wire <+: Call.pipeline calls) ∧
      (∀ others, Effect.handed (effectsOf role (client.run moves).2) = Call.pipeline others →
        others = calls) ∧
      (role ≠ .publisher → ∀ call ∈ calls, call.command.changesMode = true) ∧
      (role = .publisher → ∀ call ∈ calls, call.command.changesMode = true →
        ∃ args, .call (.execute call.command args) ∈ moves ∧ call.args = args.map .ofText) := by
  rcases stages_run hqueue hown with ⟨done, unfinished, left, hstages⟩
  have hhanded := hstages.handed
  -- Every call that was handed over goes back to a move that the session was
  -- meant for.
  have hcalled : ∀ call ∈ (done ++ unfinished).map (Operation.call client.namespaces),
      ∃ operation, operation.role = role ∧ .call operation ∈ moves ∧
        call = operation.call client.namespaces := by
    intro call hcall
    rcases List.mem_map.1 hcall with ⟨operation, hbegun, rfl⟩
    have hmem : operation ∈ client.routed role moves := by
      rw [hstages.routed]
      exact List.mem_append_left left hbegun
    rcases mem_of_mem_routed moves client hmem with ⟨hrole, hmove⟩
    exact ⟨operation, hrole, hmove, rfl⟩
  refine ⟨(done ++ unfinished).map (Operation.call client.namespaces), hhanded,
    fun wire hwire => ?_, fun others hothers => ?_, fun hrole call hcall => ?_,
    fun hrole call hcall hchanges => ?_⟩
  · rw [← hhanded, (seen_eq_iff.1 (seen_run role moves client)).2]
    exact hwire.handed
  · exact Call.pipeline_injective (hothers.symm.trans hhanded)
  · rcases hcalled call hcall with ⟨operation, hfound, _, rfl⟩
    exact Operation.changesMode_of_role (by rw [hfound]; exact hrole)
  · rcases hcalled call hcall with ⟨operation, hfound, hmove, rfl⟩
    rcases Operation.executes_of_changesMode (hfound.trans hrole) hchanges with ⟨args, heq⟩
    refine ⟨args, ?_, ?_⟩
    · rw [Operation.call, ← heq]
      exact hmove
    · rw [heq]
      rfl

/-- A subscription in each of the two ways there are. -/
def subscriptions : List Move :=
  [.call (.execute .subscribe ["news"]), .call (.subscribe "7"), .call .ping]

theorem isolated_run_subscriptions :
    (opened.session .publisher).queue = {} ∧
      (∀ other request, .happen other (.send request) ∉ subscriptions) ∧
      ∃ calls, Effect.handed (effectsOf .publisher (opened.run subscriptions).2) =
          Call.pipeline calls ∧
        ∀ call ∈ calls, call.command.changesMode = true →
          ∃ args, .call (.execute call.command args) ∈ subscriptions ∧
            call.args = args.map .ofText := by
  have hqueue := opened_up.1.queue .publisher
  have hown : ∀ other request, .happen other (.send request) ∉ subscriptions := by
    intro other request hmem
    simp only [subscriptions, List.mem_cons, List.not_mem_nil, or_false, reduceCtorEq] at hmem
  rcases isolated_run hqueue hown with ⟨calls, hhanded, _, _, _, hpublisher⟩
  exact ⟨hqueue, hown, calls, hhanded, hpublisher rfl⟩

/-- A command that changes the mode goes out on the publisher. -/
theorem subscribed_publisher :
    opened.Up ∧
      Effect.handed (effectsOf .publisher (opened.perform (.execute .subscribe ["news"])).2) =
        Call.pipeline [⟨.subscribe, [.ofText "news"]⟩] ∧
      Command.subscribe.changesMode = true := by
  refine ⟨opened_up.1, ?_, rfl⟩
  cbv

end Client

end RespBus
