import RespBus.Client.Basic
import RespBus.Proofs.Buffers

/-!
# Starting a Client

A client starts its sessions one after another, and what is started is not
stopped again. So an attempt that fails on the second or third session would
leave the ones before it running, with nobody to hold them. It does not come to
that, for a reason that lies in the configuration: what a session asks of its
part has been asked of the whole before the first session is started.

The two are validated by definitions of their own, and nothing in the text of
one refers to the other. `validate_eq` is what ties them together. The whole is
refused for what its sessions are refused for, and only then for its names. The
label has no part in it, so all sessions are refused alike. The other two things
that a session wants are something to run on and its buffers. They are there
for all sessions or for none, since all of them cut messages in the same mode.

`start_eq` then leaves four outcomes. Two of them are errors, and no session
runs after them. The fourth is neither an error nor a client: the chunks are too
large for the buffers of the first session, and the attempt is broken off there.
Nothing has been started by then, but the user is told of nothing.
`start_outcomes` says of every configuration which of these it comes to.

## Main definitions

* `Session.fresh`: A session that has not begun to dial.
* `Client.fresh`: A client whose sessions have not begun to dial.
* `ClientConfig.huge`: A configuration with chunks that are too large.

## Theorems

* `ClientConfig.validate_eq`: The whole is refused for its parts, in order.
* `Session.start_eq`: Everything that starting a session comes to.
* `Client.start_eq`: Everything that starting a client comes to.
* `Client.start_eq_ok_iff`, `Client.start_eq_refused_iff`,
  `Client.start_eq_panicked_iff`: When it comes to a client, to an error, and to
  neither.
* `Client.session_of_start`: A client that is started has started its sessions.
* `Client.start_outcomes`: Which configurations start all sessions, which are
  refused, and which break the attempt off.
* `Client.start_huge`: An attempt that is broken off.
-/

namespace RespBus

namespace ClientConfig

/-- A configuration is refused for the part that its sessions have of it, and
    otherwise for its names. -/
theorem validate_eq (config : ClientConfig) (label : String) :
    config.validate =
      match (config.session label).validate with
      | .error setting => .error setting
      | .ok () => config.namespaces.validate := by
  unfold validate SessionConfig.validate session
  by_cases hhost : config.host = ""
  · simp only [if_pos hhost]
  · cases config.framing.validate <;> simp only [if_neg hhost]

/-- A configuration is valid just if it is valid for a session and its names
    are. -/
theorem validate_eq_ok_iff (config : ClientConfig) (label : String) :
    config.validate = .ok () ↔
      (config.session label).validate = .ok () ∧ config.namespaces.validate = .ok () := by
  rw [config.validate_eq label]
  rcases (config.session label).validate with setting | done
  · simp only [reduceCtorEq, false_and]
  · simp only [true_and]

/-- The fault of a configuration is that of a session, or if there is none that
    of the names. -/
theorem validate_eq_error_iff (config : ClientConfig) (label : String)
    (setting : InvalidSetting) :
    config.validate = .error setting ↔
      (config.session label).validate = .error setting ∨
        (config.session label).validate = .ok () ∧
          config.namespaces.validate = .error setting := by
  rw [config.validate_eq label]
  rcases (config.session label).validate with refused | done
  · simp only [reduceCtorEq, false_and, or_false]
  · simp only [reduceCtorEq, true_and, false_or]

/-- A configuration with chunks of `2 ^ 60` bytes, the smallest that are too
    large. -/
def huge : ClientConfig :=
  { framing := .shortRead 1152921504606846976 }

end ClientConfig

/-- The session of a configuration before it begins to dial. -/
def Session.fresh (config : SessionConfig) : Session :=
  { label := config.label, address := config.address, framer := .start config.framing }

/-- A session is refused for its configuration, and otherwise if it has nothing
    to run on. Without room for its buffers the attempt is broken off. -/
theorem Session.start_eq (hasRuntime : Bool) (config : SessionConfig) :
    start hasRuntime config =
      match config.validate with
      | .error setting => .error (.refused (.config setting))
      | .ok () =>
        if hasRuntime then
          match config.framing.reserve with
          | .error cause => .error (.panicked cause)
          | .ok () => .ok (fresh config)
        else .error (.refused .noRuntime) := by
  unfold start Framer.create
  cases config.framing.reserve <;> rfl

namespace Client

/-- The client of a configuration before its sessions begin to dial. -/
def fresh (config : ClientConfig) : Client where
  namespaces := config.namespaces
  publisher := .fresh (config.session Role.publisher.label)
  menu := .fresh (config.session Role.menu.label)
  notifications := .fresh (config.session Role.notifications.label)

/-- A fresh client has a fresh session in every role. -/
theorem session_fresh (config : ClientConfig) (role : Role) :
    (fresh config).session role = .fresh (config.session role.label) := by
  cases role <;> rfl

/-- Either the configuration is refused, or there is nothing to run on, or the
    attempt is broken off, or all sessions are started. -/
theorem start_eq (hasRuntime : Bool) (config : ClientConfig) :
    start hasRuntime config =
      match config.validate with
      | .error setting => (.error (.refused (.config setting)), [])
      | .ok () =>
        if hasRuntime then
          match config.framing.reserve with
          | .error cause => (.error (.panicked cause), [])
          | .ok () => (.ok (fresh config), Role.all.map (fresh config).session)
        else (.error (.refused .noRuntime), []) := by
  rcases hvalid : config.validate with setting | done
  · simp only [start, hvalid]
  · -- What was asked of the whole is what each session asks again, and the
    -- mode that each session cuts messages in is that of the whole.
    have hsession : ∀ role : Role, Session.start hasRuntime (config.session role.label) =
        if hasRuntime then
          match config.framing.reserve with
          | .error cause => .error (.panicked cause)
          | .ok () => .ok ((fresh config).session role)
        else .error (.refused .noRuntime) := by
      intro role
      have hrole := ((config.validate_eq_ok_iff role.label).1 hvalid).1
      rw [Session.start_eq, hrole, session_fresh]
      rfl
    cases hasRuntime with
    | false =>
        simp only [Bool.false_eq_true, if_false] at hsession ⊢
        simp only [start, hvalid, hsession]
    | true =>
        simp only [if_true] at hsession ⊢
        rcases hreserve : config.framing.reserve with cause | reserved
        · simp only [start, hvalid, hsession, hreserve]
        · simp only [start, hvalid, hsession, hreserve]
          rfl

/-- A client that has been started is the one its configuration describes, and
    nothing stood in the way. -/
theorem start_eq_ok_iff {hasRuntime : Bool} {config : ClientConfig} {client : Client}
    {running : List Session} :
    start hasRuntime config = (.ok client, running) ↔
      (config.validate = .ok () ∧ hasRuntime = true ∧ config.framing.reserve = .ok ()) ∧
        client = fresh config ∧ running = Role.all.map (fresh config).session := by
  rw [start_eq]
  rcases config.validate with setting | done
  · simp only [Prod.mk.injEq, reduceCtorEq, false_and]
  · cases hasRuntime with
    | false => simp only [Bool.false_eq_true, if_false, Prod.mk.injEq, reduceCtorEq, false_and,
        and_false]
    -- With a runtime the buffers decide.
    | true =>
        rcases config.framing.reserve with cause | reserved
        · simp only [if_true, Prod.mk.injEq, reduceCtorEq, false_and, and_false]
        · simp only [if_true, Prod.mk.injEq, Except.ok.injEq, true_and]
          exact and_congr eq_comm eq_comm

/-- A start is refused for a setting that is at fault, or else for want of a
    runtime. -/
theorem start_eq_refused_iff {hasRuntime : Bool} {config : ClientConfig} {error : SessionError}
    {running : List Session} :
    start hasRuntime config = (.error (.refused error), running) ↔
      running = [] ∧ ((∃ setting, config.validate = .error setting ∧ error = .config setting) ∨
        config.validate = .ok () ∧ hasRuntime = false ∧ error = .noRuntime) := by
  rw [start_eq]
  rcases config.validate with setting | done
  · simp only [Prod.mk.injEq, Except.error.injEq, StartFailure.refused.injEq, exists_eq_left',
      reduceCtorEq, false_and, or_false]
    exact and_comm.trans (and_congr eq_comm eq_comm)
  · cases hasRuntime with
    | false =>
        simp only [Bool.false_eq_true, if_false, Prod.mk.injEq, Except.error.injEq,
          StartFailure.refused.injEq, reduceCtorEq, false_and, exists_false, true_and, false_or]
        exact and_comm.trans (and_congr eq_comm eq_comm)
    -- Once there is a runtime only the buffers can fail, and they do not
    -- refuse.
    | true =>
        rcases config.framing.reserve with cause | reserved <;>
          simp only [if_true, Prod.mk.injEq, Except.error.injEq, reduceCtorEq, false_and,
            exists_false, and_false, or_self]

/-- A start panics just if it is not refused and the buffers cannot be reserved. -/
theorem start_eq_panicked_iff {hasRuntime : Bool} {config : ClientConfig} {cause : Unreservable}
    {running : List Session} :
    start hasRuntime config = (.error (.panicked cause), running) ↔
      running = [] ∧ config.validate = .ok () ∧ hasRuntime = true ∧
        config.framing.reserve = .error cause := by
  rw [start_eq]
  rcases config.validate with setting | done
  · simp only [Prod.mk.injEq, Except.error.injEq, reduceCtorEq, false_and, and_false]
  · cases hasRuntime with
    | false => simp only [Bool.false_eq_true, if_false, Prod.mk.injEq, Except.error.injEq,
        reduceCtorEq, false_and, and_false]
    | true =>
        -- Only what comes last can panic.
        rcases config.framing.reserve with found | reserved
        · simp only [if_true, Prod.mk.injEq, Except.error.injEq, StartFailure.panicked.injEq,
            true_and]
          exact and_comm.trans (and_congr_left' eq_comm)
        · simp only [if_true, Prod.mk.injEq, reduceCtorEq, false_and, and_false]

/-- There is only one client a configuration can start. -/
theorem eq_fresh_of_start {hasRuntime : Bool} {config : ClientConfig} {client : Client}
    {running : List Session} (h : start hasRuntime config = (.ok client, running)) :
    client = fresh config :=
  (start_eq_ok_iff.1 h).2.1

/-- The sessions of a client that has been started have been started. -/
theorem session_of_start {hasRuntime : Bool} {config : ClientConfig} {client : Client}
    {running : List Session} (h : start hasRuntime config = (.ok client, running)) (role : Role) :
    Session.start hasRuntime (config.session role.label) = .ok (client.session role) := by
  rcases start_eq_ok_iff.1 h with ⟨⟨hvalid, rfl, hreserve⟩, rfl, _⟩
  have hrole := ((config.validate_eq_ok_iff role.label).1 hvalid).1
  have hmode : (config.session role.label).framing.reserve = .ok () := hreserve
  rw [Session.start_eq, hrole, hmode, session_fresh]
  rfl

/-- Which configurations start all sessions, which are refused, and which break
    the attempt off. An error is given for a configuration that is not valid,
    and otherwise if there is nothing to run on, and no session runs after it.
    All sessions are started, each as its own configuration has it, for the
    others whose chunks are no more than an eighth of the largest buffer. Where
    they are more, the attempt is broken off with no session running and no
    error given. There is no other outcome, so an attempt never fails after one
    session or two have been started. And a configuration is valid if and only
    if the part that a session has of it is, whatever its label, and the names
    are; where it is refused, it is for what that part is refused for, and for
    the names only if that part is valid. -/
theorem start_outcomes (hasRuntime : Bool) (config : ClientConfig) :
    (∀ error, start hasRuntime config = (.error (.refused error), []) ↔
      (∃ setting, config.validate = .error setting ∧ error = .config setting) ∨
        config.validate = .ok () ∧ hasRuntime = false ∧ error = .noRuntime) ∧
    ((∃ client, start hasRuntime config = (.ok client, Role.all.map client.session) ∧
        ∀ role, Session.start hasRuntime (config.session role.label) =
          .ok (client.session role)) ↔
      config.validate = .ok () ∧ hasRuntime = true ∧
        ∀ size, config.framing = .shortRead size → size ≤ maxBuffer / 8) ∧
    ((∃ cause, start hasRuntime config = (.error (.panicked cause), [])) ↔
      config.validate = .ok () ∧ hasRuntime = true ∧
        ∃ size, config.framing = .shortRead size ∧ maxBuffer / 8 < size) ∧
    ((start hasRuntime config).2 = [] ∨
      ∃ client, start hasRuntime config = (.ok client, Role.all.map client.session)) ∧
    ∀ label,
      (config.validate = .ok () ↔
        (config.session label).validate = .ok () ∧ config.namespaces.validate = .ok ()) ∧
      ∀ setting, config.validate = .error setting ↔
        (config.session label).validate = .error setting ∨
          (config.session label).validate = .ok () ∧
            config.namespaces.validate = .error setting := by
  refine ⟨fun error => ?_, ⟨?_, ?_⟩, ?_, ?_,
    fun label => ⟨config.validate_eq_ok_iff label, config.validate_eq_error_iff label⟩⟩
  · rw [start_eq_refused_iff]
    exact and_iff_right rfl
  · rintro ⟨client, hstart, _⟩
    rcases (start_eq_ok_iff.1 hstart).1 with ⟨hvalid, hruntime, hreserve⟩
    exact ⟨hvalid, hruntime, Framing.reserve_eq_ok_iff.1 hreserve⟩
  · rintro ⟨hvalid, rfl, hsizes⟩
    have hstart : start true config = (.ok (fresh config), Role.all.map (fresh config).session) :=
      start_eq_ok_iff.2 ⟨⟨hvalid, rfl, Framing.reserve_eq_ok_iff.2 hsizes⟩, rfl, rfl⟩
    exact ⟨_, hstart, session_of_start hstart⟩
  · simp only [start_eq_panicked_iff, true_and, exists_and_left, Framing.reserve_eq_error_iff]
  · rcases hstart : start hasRuntime config with ⟨failure | client, running⟩
    · -- Of the two ways to fail neither leaves anything running.
      cases failure with
      | refused error => exact .inl (start_eq_refused_iff.1 hstart).1
      | panicked cause => exact .inl (start_eq_panicked_iff.1 hstart).1
    · rcases (start_eq_ok_iff.1 hstart).2 with ⟨rfl, rfl⟩
      exact .inr ⟨_, rfl⟩

/-- A configuration that is wrong in every way is refused for its host. -/
example : start false { host := "", framing := .shortRead 0, namespaces := { menuKey := "" } } =
    (.error (.refused (.config .emptyHost)), []) := rfl

/-- A valid configuration with something to run on, and neither an error nor a
    client comes of it. -/
theorem start_huge :
    ClientConfig.huge.validate = .ok () ∧
      start true .huge = (.error (.panicked .tooLarge), []) ∧
      ¬((∃ error, start true .huge = (.error (.refused error), [])) ∨
        ∃ client, start true .huge = (.ok client, Role.all.map client.session)) := by
  have hpanicked : start true .huge = (.error (.panicked .tooLarge), []) :=
    start_eq_panicked_iff.2 ⟨rfl, rfl, rfl, rfl⟩
  refine ⟨rfl, hpanicked, ?_⟩
  rw [hpanicked]
  simp only [Prod.mk.injEq, Except.error.injEq, reduceCtorEq, false_and, exists_false, or_self,
    not_false_eq_true]

end Client

end RespBus
