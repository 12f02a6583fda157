import RespBus.Proofs.Session.Attribution

/-!
# The Journal of a Session

Which request a message is attributed to depends on what was written by then
and on which messages came before. Both are in the journal of a run: the
requests written and the messages attributed, in the order in which that
happened. One read can complete several messages, so an entry has the state in
which its message found the session, and not the state before the read.

Nothing is asked of the peer here. It may answer what nobody asked, or send
bytes that are no reply at all, in either framing mode. What holds then is the
balance of the books: the requests that messages took off the list, one message
after another, and those still on it, are all that was written, in order. So
each request is taken once at most, and the list is the end of what was
written. `Books` states that of a state and the entries before it, and it holds
of every state that a message finds as well as of the one at the end.

A message takes as many requests as it has replies, as far as there are any
(`credit_eq`). It has one at least; without that the first reply could not be
told apart from the others.

## Main definitions

* `Entry`: A request written, or a message attributed.
* `Entry.requests`, `Entry.retired`, `Entry.effects`: The requests written, the
  origins taken off the list, and the reports made.
* `Session.journal`: The entries of a run.
* `Session.Books`: The balance of a state and the entries before it.
* `Entry.Kept`: The books are balanced whenever a message is attributed.
* `Session.Keeps`: The entries of an answer, and that they keep the books.
* `Session.Credits`: What a message is attributed to and takes off the list.

## Theorems

* `Session.credit_eq`: What a message takes off the list.
* `Session.books_credited`: Messages of one read keep the books.
* `Session.keeps_step`, `Session.keeps_run`: So do stimuli, and runs.
* `Session.attribution_balanced`: Attribution in every reachable state.
-/

namespace RespBus

/-- A message counts for at least one reply. -/
theorem Framer.one_le_repliesIn (framer : Framer) (frame : Bytes) :
    1 ≤ framer.repliesIn frame := by
  unfold repliesIn
  split
  · exact Nat.le_max_right _ _
  · exact Nat.le_refl 1

/-- What bears on the attribution of messages. -/
inductive Entry where
  /-- A request was written. -/
  | wrote (request : Request)
  /-- A message found the session in this state and was attributed. -/
  | attributed (found : Session) (frame : Bytes)

namespace Entry

/-- The requests written, in order. -/
def requests (entries : List Entry) : List Request :=
  entries.filterMap fun
    | wrote request => some request
    | attributed _ _ => none

/-- The origins that messages took off the list, message by message. -/
def retired (entries : List Entry) : List Origin :=
  entries.flatMap fun
    | wrote _ => []
    | attributed found frame => found.awaiting.take (found.framer.repliesIn frame)

/-- The reports of the messages. -/
def effects (entries : List Entry) : List Effect :=
  entries.filterMap fun
    | wrote _ => none
    | attributed found frame => some (found.credit frame).2

theorem requests_append (first second : List Entry) :
    requests (first ++ second) = requests first ++ requests second :=
  List.filterMap_append

theorem retired_append (first second : List Entry) :
    retired (first ++ second) = retired first ++ retired second :=
  List.flatMap_append

theorem effects_append (first second : List Entry) :
    effects (first ++ second) = effects first ++ effects second :=
  List.filterMap_append

end Entry

namespace Session

/-- A message is attributed to the oldest request on the list, or else to the
    last one written, and takes as many requests off the list as it has
    replies. -/
theorem credit_eq (session : Session) (frame : Bytes) :
    session.credit frame =
      ({ session with awaiting := session.awaiting.drop (session.framer.repliesIn frame) },
        .report ⟨session.label, .ok frame, session.awaiting.head?.or session.lastSent⟩) := by
  have hpos := session.framer.one_le_repliesIn frame
  have hdrop : session.awaiting.tail.drop
        (min (session.framer.repliesIn frame - 1) session.awaiting.tail.length) =
      session.awaiting.drop (session.framer.repliesIn frame) := by
    rw [← List.drop_one, List.drop_drop]
    rcases Nat.le_total (session.framer.repliesIn frame - 1) (session.awaiting.drop 1).length with
      hle | hle
    · rw [Nat.min_eq_left hle, Nat.add_sub_cancel' hpos]
    · -- Fewer requests are left than the message has replies.
      rw [Nat.min_eq_right hle]
      rw [List.length_drop] at hle ⊢
      rw [List.drop_eq_nil_of_le (by omega), List.drop_eq_nil_of_le (by omega)]
  simp only [credit, hdrop]

/-- The entries of messages that are attributed one after another. -/
def credited (session : Session) : List Bytes → List Entry
  | [] => []
  | frame :: frames => .attributed session frame :: (session.credit frame).1.credited frames

/-- The entries of a stimulus. -/
def entries (session : Session) : Stimulus → List Entry
  | .read chunk =>
    if session.phase = .connected then
      match session.framer.push chunk with
      | (.ok frames, framer) => { session with framer }.credited frames
      -- The messages of a read that fails are lost.
      | (.error _, _) => []
    else []
  | stimulus => (session.written? stimulus).toList.map .wrote

/-- The entries of a run, in order. -/
def journal : Session → List Stimulus → List Entry
  | _, [] => []
  | session, stimulus :: stimuli =>
    session.entries stimulus ++ (session.step stimulus).1.journal stimuli

/-- The balance of a state and the entries before it: the origins taken off the
    list and those still on it are those of the requests written. -/
structure Books (session : Session) (entries : List Entry) : Prop where
  balance : Entry.retired entries ++ session.awaiting =
    (Entry.requests entries).map Request.origin
  lastSent : session.lastSent = ((Entry.requests entries).map Request.origin).getLast?

end Session

/-- After `earlier` entries the books are balanced whenever a message is
    attributed. -/
def Entry.Kept (earlier entries : List Entry) : Prop :=
  ∀ before found frame after, entries = before ++ .attributed found frame :: after →
    found.Books (earlier ++ before)

namespace Entry

theorem kept_nil (earlier : List Entry) : Kept earlier [] := by
  intro before found frame after heq
  exact absurd heq.symm (List.append_ne_nil_of_right_ne_nil _ (List.cons_ne_nil _ _))

/-- Entries about writes are not about messages. -/
theorem kept_wrote (earlier : List Entry) (requests : List Request) :
    Kept earlier (requests.map .wrote) := by
  intro before found frame after heq
  have hmem : Entry.attributed found frame ∈ requests.map Entry.wrote := by
    rw [heq]
    exact List.mem_append_right before List.mem_cons_self
  rcases List.mem_map.1 hmem with ⟨request, _, hrequest⟩
  exact absurd hrequest (by simp only [reduceCtorEq, not_false_eq_true])

/-- The one message of a new entry was judged by the session as it was. -/
theorem kept_attributed {earlier : List Entry} {session : Session} (h : session.Books earlier)
    (frame : Bytes) : Kept earlier [.attributed session frame] := by
  intro before found other after heq
  rcases before with _ | ⟨entry, before⟩
  · rw [List.nil_append, List.cons.injEq, attributed.injEq] at heq
    rw [← heq.1.1, List.append_nil]
    exact h
  · rw [List.cons_append, List.cons.injEq] at heq
    exact absurd heq.2.symm (List.append_ne_nil_of_right_ne_nil _ (List.cons_ne_nil _ _))

/-- What is kept over one part of a journal and over the next is kept over both. -/
theorem Kept.append {earlier first second : List Entry} (h : Kept earlier first)
    (hlater : Kept (earlier ++ first) second) : Kept earlier (first ++ second) := by
  intro before found frame after heq
  -- The entry stands in the second part, or in the first, or right where they
  -- meet.
  rcases List.append_eq_append_iff.1 heq with ⟨others, rfl, hsecond⟩ | ⟨others, hfirst, hrest⟩
  · rw [← List.append_assoc]
    exact hlater others found frame after hsecond
  · rcases others with _ | ⟨entry, others⟩
    · rw [List.append_nil] at hfirst
      rw [← hfirst]
      have hbooks := hlater [] found frame after hrest.symm
      rw [List.append_nil] at hbooks
      exact hbooks
    · rw [List.cons_append, List.cons.injEq] at hrest
      refine h before found frame others ?_
      rw [hfirst, hrest.1]

end Entry

namespace Session

/-- The books are kept in two fields only. -/
theorem Books.of_eq {session after : Session} {entries : List Entry} (h : session.Books entries)
    (hawaiting : after.awaiting = session.awaiting) (hlast : after.lastSent = session.lastSent) :
    after.Books entries where
  balance := by rw [hawaiting, h.balance]
  lastSent := by rw [hlast, h.lastSent]

/-- A message that is told of is entered with the requests it takes off the
    list. -/
theorem Books.credit {session : Session} {entries : List Entry} (h : session.Books entries)
    (frame : Bytes) : (session.credit frame).1.Books (entries ++ [.attributed session frame]) where
  balance := by
    have htaken : Entry.retired [.attributed session frame] =
        session.awaiting.take (session.framer.repliesIn frame) := List.append_nil _
    have hnone : Entry.requests [.attributed session frame] = [] := rfl
    rw [credit_eq, Entry.retired_append, htaken, Entry.requests_append, hnone, List.append_nil,
      List.append_assoc, List.take_append_drop, h.balance]
  lastSent := by
    have hnone : Entry.requests [.attributed session frame] = [] := rfl
    rw [credit_eq, Entry.requests_append, hnone, List.append_nil]
    exact h.lastSent

/-- Messages that are attributed one after another keep the books. -/
theorem books_credited (frames : List Bytes) :
    ∀ (session : Session) (earlier : List Entry), session.Books earlier →
      (session.creditAll frames).1.Books (earlier ++ session.credited frames) ∧
        Entry.Kept earlier (session.credited frames) := by
  induction frames with
  | nil =>
      intro session earlier h
      refine ⟨?_, Entry.kept_nil earlier⟩
      rw [credited, List.append_nil]
      exact h
  | cons frame frames ih =>
      intro session earlier h
      rcases ih _ _ (h.credit frame) with ⟨hbooks, hkept⟩
      rw [List.append_assoc] at hbooks
      exact ⟨hbooks, (Entry.kept_attributed h frame).append hkept⟩

-- Messages write nothing, and their reports are those of their entries.
theorem requests_credited (frames : List Bytes) :
    ∀ session : Session, Entry.requests (session.credited frames) = [] ∧
      Entry.effects (session.credited frames) = (session.creditAll frames).2 := by
  induction frames with
  | nil =>
      intro session
      exact ⟨rfl, rfl⟩
  | cons frame frames ih =>
      intro session
      rcases ih (session.credit frame).1 with ⟨hrequests, heffects⟩
      exact ⟨hrequests, congrArg (List.cons (session.credit frame).2) heffects⟩

theorem requests_wrote (requests : List Request) :
    Entry.requests (requests.map .wrote) = requests := by
  induction requests with
  | nil => rfl
  | cons request requests ih => exact congrArg (List.cons request) ih

theorem effects_wrote (requests : List Request) : Entry.effects (requests.map .wrote) = [] := by
  induction requests with
  | nil => rfl
  | cons request requests ih => exact ih

theorem retired_wrote (requests : List Request) : Entry.retired (requests.map .wrote) = [] := by
  induction requests with
  | nil => rfl
  | cons request requests ih => exact ih

/-- Requests that are written are entered in the order of their writes. -/
theorem Books.wrote {session after : Session} {earlier : List Entry} (h : session.Books earlier)
    {requests : List Request} (hrecords : session.Records requests [] after) :
    after.Books (earlier ++ requests.map .wrote) where
  balance := by
    have hawaiting := hrecords.awaiting
    rw [List.nil_append] at hawaiting
    rw [Entry.retired_append, retired_wrote, List.append_nil, ← hawaiting, ← List.append_assoc,
      h.balance, Entry.requests_append, requests_wrote, List.map_append]
  lastSent := by
    rw [hrecords.lastSent, h.lastSent, Entry.requests_append, requests_wrote, List.map_append,
      List.getLast?_append]

/-- What the entries of a stimulus are, and that they keep the books. -/
structure Keeps (session : Session) (earlier : List Entry) (answer : Session × List Effect)
    (entries : List Entry) (written : List Request) : Prop where
  books : answer.1.Books (earlier ++ entries)
  kept : Entry.Kept earlier entries
  requests : Entry.requests entries = written
  messages : Effect.messages answer.2 = Effect.messages (Entry.effects entries)

/-- A read enters the messages it completes, and nothing of a fault. -/
theorem keeps_read {session : Session} {earlier : List Entry} (h : session.Books earlier)
    (chunk : Bytes) :
    session.Keeps earlier (session.step (.read chunk)) (session.entries (.read chunk)) [] := by
  by_cases hphase : session.phase = .connected
  · rw [step_of_connected hphase, stepConnected, receive, entries, if_pos hphase]
    rcases session.framer.push chunk with ⟨fault | frames, framer⟩
    · -- The fault closes the session, and neither the list nor the last request
      -- changes.
      refine ⟨?_, Entry.kept_nil earlier, rfl, rfl⟩
      rw [List.append_nil]
      exact h.of_eq rfl rfl
    · have hsame : { session with framer }.Books earlier := h.of_eq rfl rfl
      rcases books_credited frames _ _ hsame with ⟨hbooks, hkept⟩
      rcases requests_credited frames { session with framer } with ⟨hrequests, heffects⟩
      exact ⟨hbooks, hkept, hrequests, by rw [heffects]⟩
  · rw [step_read_of_not_connected hphase, entries, if_neg hphase]
    refine ⟨?_, Entry.kept_nil earlier, rfl, rfl⟩
    rw [List.append_nil]
    exact h

/-- A stimulus keeps the books. -/
theorem keeps_step {session : Session} {earlier : List Entry} (h : session.Books earlier)
    (stimulus : Stimulus) :
    session.Keeps earlier (session.step stimulus) (session.entries stimulus)
      (session.written? stimulus).toList := by
  rcases hchunk : stimulus.chunk? with _ | chunk
  · have hentries : session.entries stimulus = (session.written? stimulus).toList.map .wrote := by
      cases stimulus with
      | read chunk => exact absurd hchunk (Stimulus.chunk_read_ne_none chunk)
      | _ => rfl
    -- Without bytes there is no message, so only a write can be entered.
    have hreceived : session.received? stimulus = none := by
      cases stimulus with
      | read chunk => exact absurd hchunk (Stimulus.chunk_read_ne_none chunk)
      | _ => rfl
    rcases records_step session stimulus with ⟨retired, hrecords, hunread⟩
    rw [hunread hchunk] at hrecords
    rw [hentries]
    refine ⟨h.wrote hrecords, Entry.kept_wrote earlier _, requests_wrote _, ?_⟩
    rw [effects_wrote, (quiet_step hreceived).1]
    rfl
  · rw [Stimulus.eq_read_of_chunk hchunk]
    exact keeps_read h chunk

/-- A run keeps the books. The induction is on the stimuli, with the entries of
    the stimuli before them. -/
theorem keeps_run (stimuli : List Stimulus) :
    ∀ (session : Session) (earlier : List Entry), session.Books earlier →
      session.Keeps earlier (session.run stimuli) (session.journal stimuli)
        (session.written stimuli) := by
  induction stimuli with
  | nil =>
      intro session earlier h
      refine ⟨?_, Entry.kept_nil earlier, rfl, rfl⟩
      rw [journal, List.append_nil]
      exact h
  | cons stimulus stimuli ih =>
      intro session earlier h
      have hfirst := keeps_step h stimulus
      -- The books of the first step are what the others go on with.
      have hlater := ih (session.step stimulus).1 _ hfirst.books
      rw [run, journal, written, along]
      refine ⟨?_, hfirst.kept.append hlater.kept, ?_, ?_⟩
      · rw [← List.append_assoc]
        exact hlater.books
      · rw [Entry.requests_append, hfirst.requests, hlater.requests]
        rfl
      · simp only [Effect.messages_append, Entry.effects_append, hfirst.messages, hlater.messages]

/-- The books of a started session are empty. -/
theorem books_of_start {hasRuntime : Bool} {config : SessionConfig} {session : Session}
    (hstart : start hasRuntime config = .ok session) : session.Books [] := by
  rcases eq_of_start hstart with ⟨label, address, rfl⟩
  exact ⟨rfl, rfl⟩

/-- The requests that await a reply are the last ones written. -/
theorem Books.suffix {session : Session} {entries : List Entry} (h : session.Books entries) :
    session.awaiting <:+ (Entry.requests entries).map Request.origin :=
  ⟨Entry.retired entries, h.balance⟩

/-- What a message is attributed to, and what it takes off the list, when
    requests with these origins were written by then. -/
structure Credits (found : Session) (frame : Bytes) (written : List Origin)
    (origin : Option Origin) : Prop where
  reported : (found.credit frame).2 = .report ⟨found.label, .ok frame, origin⟩
  unasked : origin = none ↔ written = []
  oldest : found.awaiting ≠ [] → origin = found.awaiting.head?
  latest : found.awaiting = [] → origin = written.getLast?
  removed : (found.credit frame).1.awaiting =
    found.awaiting.drop (min (found.framer.repliesIn frame) found.awaiting.length)
  -- The first reply stands for the request at the head, and the others for
  -- requests behind it that are there.
  counted : 1 ≤ found.framer.repliesIn frame
  within : min (found.framer.repliesIn frame - 1) found.awaiting.tail.length ≤
    found.awaiting.tail.length

/-- A message has the oldest request that awaits a reply as its origin, or else
    the last one written. -/
theorem Books.credits {found : Session} {entries : List Entry} (h : found.Books entries)
    (frame : Bytes) :
    ∃ origin, found.Credits frame ((Entry.requests entries).map Request.origin) origin := by
  refine ⟨found.awaiting.head?.or found.lastSent, ?_, ?_, fun hsome => ?_, fun hnone => ?_, ?_,
    found.framer.one_le_repliesIn frame, Nat.min_le_right _ _⟩
  · rw [credit_eq]
  · -- There is no origin only if nothing was ever written.
    rw [Option.or_eq_none_iff, List.head?_eq_none_iff, h.lastSent, List.getLast?_eq_none_iff]
    refine ⟨fun hboth => hboth.2, fun hnone => ⟨?_, hnone⟩⟩
    have hsuffix := h.suffix
    rw [hnone] at hsuffix
    exact List.suffix_nil.1 hsuffix
  · rcases hawaiting : found.awaiting with _ | ⟨oldest, others⟩
    · exact absurd hawaiting hsome
    · rfl
  · rw [hnone, h.lastSent]
    rfl
  · rw [credit_eq]
    rcases Nat.le_total (found.framer.repliesIn frame) found.awaiting.length with hle | hle
    · rw [Nat.min_eq_left hle]
    · rw [Nat.min_eq_right hle, List.drop_eq_nil_of_le hle, List.drop_length]

/-- Attribution in every reachable state. In whatever framing mode a session
    was started, and whatever was sent to it and delivered, the requests that
    await a reply are the last of those written, and the last one sent is the
    last of them. The messages of the run are those of its journal. Each of
    them finds the books balanced: what earlier messages took off the list, one
    after another, and what is still on it, is all that was written by then, in
    order. It is attributed to nobody just if nothing was written, to the
    oldest request on the list if there is one, and otherwise to the one last
    written; and it takes as many requests off the list as it has replies, as
    far as there are any. -/
theorem attribution_balanced {hasRuntime : Bool} {config : SessionConfig} {session : Session}
    (hstart : start hasRuntime config = .ok session) (stimuli : List Stimulus) :
    ((session.run stimuli).1.awaiting <:+ (session.written stimuli).map Request.origin ∧
        (session.run stimuli).1.lastSent =
          ((session.written stimuli).map Request.origin).getLast? ∧
        Entry.retired (session.journal stimuli) ++ (session.run stimuli).1.awaiting =
          (session.written stimuli).map Request.origin) ∧
      Entry.requests (session.journal stimuli) = session.written stimuli ∧
      Effect.messages (session.run stimuli).2 =
        Effect.messages (Entry.effects (session.journal stimuli)) ∧
      ∀ before found frame after,
        session.journal stimuli = before ++ .attributed found frame :: after →
        found.awaiting <:+ (Entry.requests before).map Request.origin ∧
          Entry.retired before ++ found.awaiting = (Entry.requests before).map Request.origin ∧
          ∃ origin, found.Credits frame ((Entry.requests before).map Request.origin) origin := by
  have hkeeps := keeps_run stimuli session [] (books_of_start hstart)
  have hbooks := hkeeps.books
  rw [List.nil_append] at hbooks
  rw [← hkeeps.requests]
  refine ⟨⟨hbooks.suffix, hbooks.lastSent, hbooks.balance⟩, rfl, hkeeps.messages,
    fun before found frame after heq => ?_⟩
  -- The session that judged a message had its books in order at that point.
  have hfound := hkeeps.kept before found frame after heq
  rw [List.nil_append] at hfound
  exact ⟨hfound.suffix, hfound.balance, hfound.credits frame⟩

/-- A session under short-read framing, before it dials. -/
def listening : Session :=
  { label := "session", address := "127.0.0.1:6379", framer := .start (.shortRead 3) }

/-- A message comes before anything was asked, and two come for one request. -/
def unasked : List Stimulus :=
  [.begin, .dialed (.ok ()), .read (Bytes.ofText ":1"), .send ⟨.fetchMenu, [], none⟩,
    .wrote (.ok ()), .read (Bytes.ofText ":2"), .read (Bytes.ofText ":3")]

/-- The first is attributed to nobody, the others to the one request. -/
theorem attribution_balanced_unasked :
    Effect.messages (listening.run unasked).2 =
        [(Bytes.ofText ":1", none), (Bytes.ofText ":2", some ⟨.fetchMenu, none⟩),
          (Bytes.ofText ":3", some ⟨.fetchMenu, none⟩)] ∧
      ∃ found after,
        listening.journal unasked = [] ++ .attributed found (Bytes.ofText ":1") :: after ∧
          ∃ origin, found.Credits (Bytes.ofText ":1") [] origin := by
  have hstart : start true { framing := .shortRead 3 } = .ok listening := by cbv
  have hmessage := (attribution_balanced hstart unasked).2.2.2
  refine ⟨by decide +kernel, _, _, rfl, ?_⟩
  exact (hmessage [] _ _ _ rfl).2.2

end Session

end RespBus
