import RespBus.Proofs.Client.Starting
import RespBus.Proofs.Config.Partial
import RespBus.Proofs.Config.RoundTrip

/-!
# The Buffers of a Configuration

A configuration that is not refused should be one that a session can start
with. Its chunk size is bounded from below when it is validated, and from above
only by what a word can hold. So there is room for sizes of which eight chunks
are more than a buffer may have, or more than can be counted.

`Framing.reserve_shortRead` says where the limits are, and `accepted_iff` that
nothing stands between them and a document: the sizes of the configurations that
are accepted are all the sizes from two up to the largest word.
`buffers_of_accepted` puts these together. What is promised holds up to
`maxBuffer / 8`, and fails for every accepted size above it: a client starts
just up to there, and above the attempt is broken off.

## Main definitions

* `ClientConfig.uncounted`: A configuration with chunks whose buffer cannot be
  counted.

## Theorems

* `Framing.fitsWord_of_ofJson?`: The chunks that are read are counted in words.
* `ClientConfig.accepted_iff`: Which configurations are accepted.
* `ClientConfig.buffers_of_accepted`: Which of these a session can start with.
* `ClientConfig.accepted_unreservable`: Two with which none can.
-/

namespace RespBus

open Json (Value only? orDefault)

/-- A chunk size that is read is a word. -/
theorem lt_of_chunkSize? {value : Value} {chunkSize : Nat} (h : chunkSize? value = some chunkSize) :
    chunkSize < Nat.pow 2 64 := by
  unfold chunkSize? Value.naturalBelow? at h
  split at h
  · split at h
    · rw [Option.ite_none_right_eq_some, Option.some.injEq] at h
      rw [← h.2]
      exact h.1
    · exact absurd h.symm (Option.some_ne_none chunkSize)
  · exact absurd h.symm (Option.some_ne_none chunkSize)

/-- The chunks of a framing that is read are counted in words. -/
theorem Framing.fitsWord_of_ofJson? {levels : Nat} {value : Value} {framing : Framing}
    (h : ofJson? levels value = some framing) : framing.FitsWord := by
  have hchunk : ∀ {size : Value}, (chunkSize? size).map shortRead = some framing →
      framing.FitsWord := by
    intro size hsize
    rcases Option.map_eq_some_iff.1 hsize with ⟨chunkSize, hread, rfl⟩
    exact lt_of_chunkSize? hread
  have hresp : some resp = some framing → framing.FitsWord := by
    intro h
    rw [← Option.some.inj h]
    trivial
  have hnone : none = some framing → framing.FitsWord := fun h =>
    absurd h.symm (Option.some_ne_none framing)
  -- Whatever form the framing is listed in, it ends in one of the three.
  unfold ofJson? at h
  by_cases hstored : value.isStorable levels = true
  · rw [if_pos hstored] at h
    split at h
    · simp only [Option.bind_eq_bind, Option.bind_eq_some_iff] at h
      rcases h with ⟨_, _, mode, _, h⟩
      by_cases hmode : mode = "resp"
      · rw [if_pos hmode] at h
        exact hresp h
      · rw [if_neg hmode] at h
        by_cases hshort : mode = "short_read"
        · rw [if_pos hshort, Option.bind_eq_some_iff] at h
          rcases h with ⟨size, _, h⟩
          exact hchunk h
        · rw [if_neg hshort] at h
          exact hnone h
    · rw [Option.ite_none_right_eq_some] at h
      exact hresp h.2
    · rw [Option.ite_none_right_eq_some] at h
      exact hchunk h.2
    · exact hnone h
  · rw [if_neg hstored] at h
    exact hnone h

namespace ClientConfig

/-- So is the chunk size of a configuration that is read, listed or not. -/
theorem fitsWord_of_parse {text : String} {config : ClientConfig} (h : parse text = some config) :
    config.framing.FitsWord := by
  rw [parse, Option.bind_eq_bind, Option.bind_eq_some_iff] at h
  rcases h with ⟨value, _, hvalue⟩
  rcases parts_of_ofJson? hvalue with ⟨field, _, hframing, _⟩
  rcases hfield : field "framing" with _ | value
  · -- The default is small.
    rw [hfield, orDefault, Option.some.injEq] at hframing
    rw [← hframing]
    exact show 3 < Nat.pow 2 64 by decide
  · rw [hfield] at hframing
    exact Framing.fitsWord_of_ofJson? hframing

/-- A valid configuration is read back from what is written for it. -/
theorem ofText_toJson {config : ClientConfig} (hvalid : config.validate = .ok ())
    (hword : config.framing.FitsWord) : ofText (String.ofList config.toJson) = .ok config := by
  have hparse : parse (String.ofList config.toJson) = some config := by
    rw [parse, config.spells_toJson.parse_eq]
    exact ofJson?_fields hword
  simp only [ofText, hparse, hvalid]

/-- The configurations that are accepted are the valid ones whose chunks are
    counted in words. -/
theorem accepted_iff {config : ClientConfig} :
    (∃ text, ofText text = .ok config) ↔ config.validate = .ok () ∧ config.framing.FitsWord := by
  constructor
  · rintro ⟨text, h⟩
    unfold ofText at h
    rcases hparse : parse text with _ | found
    · simp only [hparse, reduceCtorEq] at h
    · rcases hvalid : found.validate with setting | done
      · simp only [hparse, hvalid, reduceCtorEq] at h
      · simp only [hparse, hvalid, Except.ok.injEq] at h
        rw [← h]
        exact ⟨hvalid, fitsWord_of_parse hparse⟩
  · exact fun h => ⟨_, ofText_toJson h.1 h.2⟩

/-- A client of a valid configuration starts just if its buffers can be had. -/
theorem start_iff_of_validate {config : ClientConfig} (h : config.validate = .ok ()) :
    (∃ client, Client.start true config = (.ok client, Role.all.map client.session)) ↔
      config.framing.reserve = .ok () := by
  simp only [Client.start_eq_ok_iff, h, true_and]
  constructor
  · rintro ⟨client, hreserve, _⟩
    exact hreserve
  · exact fun hreserve => ⟨Client.fresh config, hreserve, rfl, rfl⟩

-- Whatever is started cuts messages as the configuration has it.
theorem mode_of_start {config : ClientConfig} {client : Client} {running : List Session}
    (hstart : Client.start true config = (.ok client, running)) :
    ∀ session ∈ running, session.framer.mode = config.framing := by
  rw [(Client.start_eq_ok_iff.1 hstart).2.2]
  intro session hsession
  rcases List.mem_map.1 hsession with ⟨role, _, rfl⟩
  rw [Client.session_fresh]
  change (Framer.start config.framing).mode = config.framing
  cases config.framing <;> rfl

/-- What accepting a configuration says about the buffers of its sessions. The
    configurations that are accepted are the valid ones whose chunk size is a
    word, and from two bytes on there is no other condition on that size. The
    sessions can have their buffers up to an eighth of the largest buffer, and
    just then a client of a valid configuration starts. Above that one buffer is
    too large, and from an eighth of the range on its size cannot even be
    counted; the other buffer is never the first to fail. For the same cause the
    attempt to start a client is broken off. Under reply framing both can always
    be had. -/
theorem buffers_of_accepted (config : ClientConfig) (chunkSize : Nat) :
    ((∃ text, ofText text = .ok config) ↔
      config.validate = .ok () ∧ config.framing.FitsWord) ∧
    (config.validate = .ok () →
      ((∃ client, Client.start true config = (.ok client, Role.all.map client.session)) ↔
        ∀ size, config.framing = .shortRead size → size ≤ maxBuffer / 8) ∧
      (∀ client running, Client.start true config = (.ok client, running) →
        ∀ session ∈ running, session.framer.mode = config.framing) ∧
      (∀ cause, Client.start true config = (.error (.panicked cause), []) ↔
        config.framing.reserve = .error cause) ∧
      (config.framing.reserve = .ok () ↔
        ∀ size, config.framing = .shortRead size → size ≤ maxBuffer / 8)) ∧
    (Framing.resp.validate = .ok () ∧ Framing.resp.initialCapacity ≤ maxBuffer ∧
      Framing.resp.readSize ≤ maxBuffer ∧ Framing.resp.reserve = .ok ()) ∧
    let mode := Framing.shortRead chunkSize
    (mode.validate = .ok () ↔ 2 ≤ chunkSize) ∧
      (mode.initialCapacity < wordRange ↔ chunkSize < wordRange / 8) ∧
      (mode.initialCapacity ≤ maxBuffer ↔ chunkSize ≤ maxBuffer / 8) ∧
      (mode.readSize ≤ maxBuffer ↔ chunkSize ≤ maxBuffer) ∧
      ((chunkSize ≤ maxBuffer / 8 ∧ mode.reserve = .ok ()) ∨
        (maxBuffer / 8 < chunkSize ∧ chunkSize < wordRange / 8 ∧
          mode.reserve = .error .tooLarge) ∨
        (wordRange / 8 ≤ chunkSize ∧ mode.reserve = .error .overflow)) := by
  refine ⟨accepted_iff, fun hvalid => ⟨?_, fun _ _ => mode_of_start, fun cause => ?_,
      Framing.reserve_eq_ok_iff⟩,
    ⟨rfl, by decide, by decide, rfl⟩, Framing.validate_shortRead, Framing.initialCapacity_lt,
    Framing.initialCapacity_le, Iff.rfl, Framing.reserve_shortRead chunkSize⟩
  · -- What is valid and has a runtime starts just if its buffers can be
    -- reserved.
    rw [start_iff_of_validate hvalid, Framing.reserve_eq_ok_iff]
  · simp only [Client.start_eq_panicked_iff, hvalid, true_and]

/-- The same as `huge` with chunks of `2 ^ 61` bytes, the smallest that are not
    counted. -/
def uncounted : ClientConfig :=
  { framing := .shortRead 2305843009213693952 }

theorem buffers_of_accepted_huge :
    ∃ text, ofText text = .ok huge ∧ huge.framing.reserve ≠ .ok () ∧
      ¬∃ client, Client.start true huge = (.ok client, Role.all.map client.session) := by
  have hvalid : huge.validate = .ok () := rfl
  have hword : huge.framing.FitsWord := show 1152921504606846976 < Nat.pow 2 64 by decide
  rcases buffers_of_accepted huge 1152921504606846976 with ⟨haccepted, hstarts, _⟩
  rcases haccepted.2 ⟨hvalid, hword⟩ with ⟨text, htext⟩
  rcases hstarts hvalid with ⟨hclient, _, _, hreserve⟩
  have hlarge : ¬∀ size, huge.framing = .shortRead size → size ≤ maxBuffer / 8 :=
    fun hsizes => absurd (hsizes _ rfl) (by decide)
  exact ⟨text, htext, mt hreserve.1 hlarge, mt hclient.1 hlarge⟩

/-- Two configurations that are accepted, and no session can start with either:
    one asks for a buffer that is too large, and the other for one whose size
    cannot be counted. -/
theorem accepted_unreservable :
    String.ofList huge.toJson =
        "\x7b\"host\":\"127.0.0.1\",\"port\":6379," ++
        "\"framing\":\x7b\"mode\":\"short_read\",\"chunk_size\":1152921504606846976\x7d," ++
        "\"namespaces\":\x7b\"menu_channel\":\"menu:updates\",\"menu_key\":\"menu:current\"," ++
        "\"message_prefix\":\"messages:\",\"notification_prefix\":\"notifications:\"\x7d\x7d" ∧
      ofText (String.ofList huge.toJson) = .ok huge ∧
      huge.framing.reserve = .error .tooLarge ∧
      Session.start true (huge.session "session") = .error (.panicked .tooLarge) ∧
      ofText (String.ofList uncounted.toJson) = .ok uncounted ∧
      uncounted.framing.reserve = .error .overflow ∧
      Session.start true (uncounted.session "session") = .error (.panicked .overflow) := by
  -- Both sizes are words, or they would not be read.
  have hhuge : huge.framing.FitsWord := show 1152921504606846976 < Nat.pow 2 64 by decide
  have huncounted : uncounted.framing.FitsWord :=
    show 2305843009213693952 < Nat.pow 2 64 by decide
  exact ⟨by decide +kernel, ofText_toJson rfl hhuge, rfl, rfl, ofText_toJson rfl huncounted, rfl,
    rfl⟩

end ClientConfig

end RespBus
