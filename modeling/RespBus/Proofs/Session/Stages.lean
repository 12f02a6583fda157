import RespBus.Proofs.Session.Ledger

/-!
# What Is on the Wire

Handing a payload over for writing is not the same as having written it. A
write that ended well got through to its last byte. One that failed, or that the
session did not wait for because it stopped, got through up to some byte, and
nothing in the session tells up to which. So there is no one wire of a run. There
are all those that agree with it, and `OnWire` says which these are: the payloads
of the writes that went well stand in front, and whatever else is there is a
front part of what was handed over.

That leaves little open. The requests that were accepted fall into three
stages: those that were written, those that were begun without being written,
and those that wait or were dropped while they did. In the middle there is one
at most (`stages_run`), because only one write is under way at a time and a
write that fails is the last. A wire is therefore all the payloads of the first
stage and a front part of a single one behind them.

## Main definitions

* `Session.OnWire`: The bytes that a session can have put on its wire.
* `Session.Stages`: What was accepted, by how far it has come.

## Theorems

* `Session.settled_run`: Of the writes that end at most the last goes badly.
* `Session.stages_run`: How far the requests come that a session accepts.
* `Session.OnWire.eq_append`: A wire is what was written, and a front part of
  what was begun.
* `Session.OnWire.eq_of_written`: With everything written there is one wire.
-/

namespace RespBus

namespace Session

/-- The bytes that a session can have put on its wire in a run. -/
structure OnWire (session : Session) (stimuli : List Stimulus) (wire : Bytes) : Prop where
  /-- Every write that went well got through to its last byte. -/
  written : ((session.written stimuli).map Request.payload).flatten <+: wire
  /-- Nothing else is there than what was handed over, in this order. -/
  handed : wire <+: Effect.handed (session.run stimuli).2

/-- What a session accepted, by how far it has come: requests that were written,
    unfinished ones whose write began and did not end well, and those whose
    write never began. -/
structure Stages (session : Session) (stimuli : List Stimulus) (unfinished : List Request) :
    Prop where
  single : unfinished.length ≤ 1
  accepted : session.accepted stimuli =
    session.written stimuli ++ unfinished ++ (session.run stimuli).1.queue.waiting
  writes : Effect.writes (session.run stimuli).2 =
    (session.written stimuli ++ unfinished).map Request.payload
  /-- Unless a write failed, what is unfinished is still being written. -/
  writing : (∀ loss, .wrote (.error loss) ∉ stimuli) →
    unfinished = (session.run stimuli).1.queue.writing

/-- At most the request at the front is being written. -/
theorem length_writing_le (queue : Outbound) : queue.writing.length ≤ 1 := by
  unfold Outbound.writing
  split
  · exact List.length_take_le 1 queue.pending
  · exact Nat.zero_le 1

/-- A closed session sees nothing any more that it would see only while it is
    open. -/
theorem along_of_closed {α : Type} {observe : Session → Stimulus → Option α} {session : Session}
    (hclosed : session.phase = .closed) (hnone : ∀ stimulus, observe session stimulus = none)
    (stimuli : List Stimulus) : session.along observe stimuli = [] := by
  induction stimuli with
  | nil => rfl
  | cons stimulus stimuli ih =>
      rw [along, hnone stimulus, step_of_stopped (not_accepts_of_closed hclosed)]
      exact ih

theorem settled_of_closed {session : Session} (hclosed : session.phase = .closed)
    (stimuli : List Stimulus) : session.settled stimuli = [] ∧ session.written stimuli = [] := by
  have hphase : session.phase ≠ .connected := by
    rw [hclosed]
    simp only [ne_eq, reduceCtorEq, not_false_eq_true]
  refine ⟨along_of_closed hclosed (fun stimulus => ?_) stimuli,
    along_of_closed hclosed (fun stimulus => ?_) stimuli⟩
  · unfold settled?
    split
    · rw [if_neg hphase]
    · rfl
  · unfold written?
    split
    · rw [if_neg hphase]
    · rfl

/-- A write that ends goes well, or it fails and the session stops with no other
    write begun. -/
theorem settled_step (session : Session) (stimulus : Stimulus) :
    session.settled? stimulus = session.written? stimulus ∨
      (∃ loss, stimulus = .wrote (.error loss)) ∧ session.written? stimulus = none ∧
        (session.step stimulus).1.phase = .closed ∧
        (session.step stimulus).1.queue.writing = [] := by
  cases stimulus with
  | wrote outcome =>
      cases outcome with
      | ok done => exact .inl rfl
      | error loss =>
          by_cases hphase : session.phase = .connected
          · rcases hqueue : session.queue.complete with ⟨_ | request, queue⟩
            · refine .inl ?_
              rw [settled?, if_pos hphase, hqueue]
              rfl
            · refine .inr ⟨⟨loss, rfl⟩, rfl, ?_⟩
              rw [step_of_connected hphase, stepConnected, hqueue]
              refine ⟨rfl, ?_⟩
              -- A queue that gave a request back has no write under way.
              have hidle : queue.inFlight = false := by
                unfold Outbound.complete at hqueue
                split at hqueue <;> simp only [Prod.mk.injEq, reduceCtorEq, false_and] at hqueue
                rw [← hqueue.2]
              change queue.writing = []
              rw [Outbound.writing, hidle]
              rfl
          · refine .inl ?_
            rw [settled?, if_neg hphase]
            rfl
  | _ => exact .inl rfl

/-- Of the writes that end in a run at most the last goes badly, and then no
    other is under way. The induction is on the stimuli; once a write has failed
    the session is closed and the rest of the run changes nothing. -/
theorem settled_run (stimuli : List Stimulus) :
    ∀ session : Session, ∃ failed, session.settled stimuli = session.written stimuli ++ failed ∧
      (failed ++ (session.run stimuli).1.queue.writing).length ≤ 1 ∧
      ((∀ loss, .wrote (.error loss) ∉ stimuli) → failed = []) := by
  induction stimuli with
  | nil =>
      intro session
      exact ⟨[], rfl, length_writing_le session.queue, fun _ => rfl⟩
  | cons stimulus stimuli ih =>
      intro session
      rw [settled, written, along, along]
      rcases session.settled_step stimulus with heq | ⟨⟨loss, rfl⟩, hnone, hclosed, hidle⟩
      · rcases ih (session.step stimulus).1 with ⟨failed, hsettled, hsingle, hwell⟩
        rw [settled, written] at hsettled
        refine ⟨failed, by rw [heq, hsettled, List.append_assoc], hsingle, fun hunfailed => ?_⟩
        exact hwell fun loss hmem => hunfailed loss (List.mem_cons_of_mem _ hmem)
      · -- A write that failed closed the session, so it is the last that is
        -- settled.
        rcases settled_of_closed hclosed stimuli with ⟨hsettled, hwritten⟩
        rw [settled] at hsettled
        rw [written] at hwritten
        have hlast : (session.run (.wrote (.error loss) :: stimuli)).1 =
            (session.step (.wrote (.error loss))).1 := by
          change ((session.step (.wrote (.error loss))).1.run stimuli).1 = _
          rw [run_closed hclosed]
        rw [hsettled, hwritten, hnone, hlast, hidle, List.append_nil]
        refine ⟨(session.settled? (.wrote (.error loss))).toList, rfl, ?_, fun hunfailed => ?_⟩
        · rw [List.append_nil]
          cases session.settled? (.wrote (.error loss)) with
          | none => exact Nat.zero_le 1
          | some request => exact Nat.le_refl 1
        · exact absurd List.mem_cons_self (hunfailed loss)

/-- How far the requests come that a session accepts. What was accepted first has
    come at least as far as what was accepted later, and of a single request
    more has happened than waiting without its having been written. -/
theorem stages_run {session : Session} (hqueue : session.queue = {}) (stimuli : List Stimulus) :
    ∃ unfinished, session.Stages stimuli unfinished := by
  have hpasses := passes_run stimuli session (by rw [hqueue]; exact Outbound.sound_empty)
  rcases settled_run stimuli session with ⟨failed, hsettled, hsingle, hwell⟩
  rcases hpasses.begun with ⟨begun, hbegun, hwrites⟩
  have hconserved := hpasses.conserved
  rw [hqueue] at hbegun hconserved
  refine ⟨failed ++ (session.run stimuli).1.queue.writing, hsingle, ?_, ?_, fun hunfailed => ?_⟩
  · have haccepted : session.accepted stimuli =
        session.settled stimuli ++ (session.run stimuli).1.queue.pending := hconserved
    rw [haccepted, hsettled, ← Outbound.writing_append_waiting]
    simp only [List.append_assoc]
  · have hwhole : begun = session.settled stimuli ++ (session.run stimuli).1.queue.writing := hbegun
    rw [hwrites, hwhole, hsettled, List.append_assoc]
  · rw [hwell hunfailed, List.nil_append]

/-- All that was handed over can be on the wire. -/
theorem onWire_handed {session : Session} (hqueue : session.queue = {}) (stimuli : List Stimulus) :
    session.OnWire stimuli (Effect.handed (session.run stimuli).2) := by
  rcases stages_run hqueue stimuli with ⟨unfinished, hstages⟩
  refine ⟨?_, List.prefix_refl _⟩
  rw [Effect.handed_eq_flatten, hstages.writes, List.map_append, List.flatten_append]
  exact List.prefix_append _ _

namespace OnWire

variable {session : Session} {stimuli : List Stimulus} {wire begun : Bytes}

/-- A wire is what was written, and behind it a front part of what else was
    handed over. -/
theorem eq_append (h : session.OnWire stimuli wire)
    (hhanded : Effect.handed (session.run stimuli).2 =
      ((session.written stimuli).map Request.payload).flatten ++ begun) :
    ∃ part, part <+: begun ∧
      wire = ((session.written stimuli).map Request.payload).flatten ++ part := by
  rcases h.written with ⟨part, hpart⟩
  have hwire := h.handed
  rw [← hpart, hhanded, List.prefix_append_right_inj] at hwire
  exact ⟨part, hwire, hpart.symm⟩

/-- If everything that was handed over was written, that is what is on the
    wire. -/
theorem eq_of_written (h : session.OnWire stimuli wire)
    (hwritten : Effect.writes (session.run stimuli).2 =
      (session.written stimuli).map Request.payload) :
    wire = ((session.written stimuli).map Request.payload).flatten := by
  have hhanded : Effect.handed (session.run stimuli).2 =
      ((session.written stimuli).map Request.payload).flatten ++ [] := by
    rw [Effect.handed_eq_flatten, hwritten, List.append_nil]
  rcases h.eq_append hhanded with ⟨part, hpart, heq⟩
  rw [heq, List.prefix_nil.1 hpart, List.append_nil]

end OnWire

end Session

end RespBus
