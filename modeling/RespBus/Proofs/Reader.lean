import RespBus.Reply.Progress

/-!
# Readers

A reader takes what it needs from the front of its input and hands back the
rest. That is a state monad over `Progress` whose state is the input, so a
reader that reads one thing after another is a `do` block, and the laws of
monads say that it does not matter how the things are grouped.

Bytes arrive in parts. A reader that is to be asked again when more of them
have come must not change its mind: what it has read stays read, and what it
has refused stays refused. `Local` says so, and says also that a reader which
succeeds looked at nothing past the bytes it used. The second part is what
makes the property carry over to readers put together, since what the first
reader leaves is what the next one starts from.

## Main definitions

* `Reader`: What reads from the front of its input.
* `Reader.refuse`: Finds fault with any input.
* `Reader.settle`: Reads nothing and takes a value or a fault for the answer.
* `Reader.Local`: Looks only at what it uses.

## Theorems

* `Progress.map_eq`: Replacing a value is the map of the monad.
* `Reader.bind_eq_complete`, `Reader.bind_eq_invalid`: An answer of two
  readers is an answer of the first or of the second.
* `Reader.Local.bind`: Local readers one after another are a local reader.
* `Reader.Local.append`: What is read stays read when bytes arrive.
-/

namespace RespBus

/-- The first thing that stops a reading stops what comes after it. -/
instance : Monad Progress where
  pure := .complete
  bind progress next :=
    match progress with
    | .incomplete => .incomplete
    | .invalid fault => .invalid fault
    | .complete value => next value

instance : LawfulMonad Progress :=
  LawfulMonad.mk' Progress
    (fun progress => by cases progress <;> rfl)
    (fun _ _ => rfl)
    (fun progress _ _ => by cases progress <;> rfl)

theorem Progress.map_eq {α β : Type} (f : α → β) (progress : Progress α) :
    progress.map f = f <$> progress := by
  cases progress <;> rfl

theorem Progress.map_eq_complete_iff {α β : Type} {f : α → β} {progress : Progress α} {result : β} :
    progress.map f = .complete result ↔ ∃ value, progress = .complete value ∧ f value = result := by
  cases progress <;> simp only [Progress.map, Progress.complete.injEq, reduceCtorEq, false_and,
    exists_false, exists_eq_left']

theorem Progress.map_eq_invalid_iff {α β : Type} {f : α → β} {progress : Progress α}
    {fault : Fault} : progress.map f = .invalid fault ↔ progress = .invalid fault := by
  cases progress <;> simp only [Progress.map, Progress.invalid.injEq, reduceCtorEq]

theorem Progress.map_eq_incomplete_iff {α β : Type} {f : α → β} {progress : Progress α} :
    progress.map f = .incomplete ↔ progress = .incomplete := by
  cases progress <;> simp only [Progress.map, reduceCtorEq]

/-- What reads from the front of its input and hands back the rest. -/
abbrev Reader (α : Type) := StateT Bytes Progress α

namespace Reader

variable {α β : Type}

/-- Finds fault with any input. -/
def refuse (fault : Fault) : Reader α :=
  fun _ => .invalid fault

/-- Takes a value for read, or finds fault, and uses nothing. -/
def settle : Except Fault α → Reader α
  | .error fault => refuse fault
  | .ok value => pure value

theorem bind_apply (first : Reader α) (next : α → Reader β) (input : Bytes) :
    (first >>= next) input = (first input >>= fun read => next read.1 read.2) := rfl

theorem bind_of_complete {first : Reader α} {next : α → Reader β} {input rest : Bytes}
    {found : α} (h : first input = .complete (found, rest)) :
    (first >>= next) input = next found rest := by
  rw [bind_apply, h]
  rfl

theorem bind_of_incomplete {first : Reader α} {next : α → Reader β} {input : Bytes}
    (h : first input = .incomplete) : (first >>= next) input = .incomplete := by
  rw [bind_apply, h]
  rfl

theorem bind_of_invalid {first : Reader α} {next : α → Reader β} {input : Bytes}
    {fault : Fault} (h : first input = .invalid fault) :
    (first >>= next) input = .invalid fault := by
  rw [bind_apply, h]
  rfl

/-- If two readers in a row read something, each of them has read its part. -/
theorem bind_eq_complete {first : Reader α} {next : α → Reader β} {input rest : Bytes}
    {value : β} (h : (first >>= next) input = .complete (value, rest)) :
    ∃ found middle, first input = .complete (found, middle) ∧
      next found middle = .complete (value, rest) := by
  cases hfirst : first input with
  | incomplete =>
      rw [bind_of_incomplete hfirst] at h
      exact absurd h (by simp only [reduceCtorEq, not_false_eq_true])
  | invalid fault =>
      rw [bind_of_invalid hfirst] at h
      exact absurd h (by simp only [reduceCtorEq, not_false_eq_true])
  | complete read =>
      rw [bind_of_complete hfirst] at h
      exact ⟨read.1, read.2, rfl, h⟩

/-- The fault of two readers in a row is that of the first, or that of the
    second behind it. -/
theorem bind_eq_invalid {first : Reader α} {next : α → Reader β} {input : Bytes}
    {fault : Fault} (h : (first >>= next) input = .invalid fault) :
    first input = .invalid fault ∨
      ∃ found middle, first input = .complete (found, middle) ∧
        next found middle = .invalid fault := by
  cases hfirst : first input with
  | incomplete =>
      rw [bind_of_incomplete hfirst] at h
      exact absurd h (by simp only [reduceCtorEq, not_false_eq_true])
  | invalid found =>
      rw [bind_of_invalid hfirst, Progress.invalid.injEq] at h
      exact Or.inl (by rw [h])
  | complete read =>
      rw [bind_of_complete hfirst] at h
      exact Or.inr ⟨read.1, read.2, rfl, h⟩

/-- A reader that looks only at what it uses. More bytes after those it used
    make no difference to what it reads, and no bytes make good what it has
    refused. -/
structure Local (reader : Reader α) : Prop where
  complete : ∀ {input value rest}, reader input = .complete (value, rest) →
    ∃ used, input = used ++ rest ∧ ∀ more, reader (used ++ more) = .complete (value, more)
  invalid : ∀ {input fault}, reader input = .invalid fault →
    ∀ more, reader (input ++ more) = .invalid fault

namespace Local

variable {reader : Reader α}

theorem pure (value : α) : Local (Pure.pure value : Reader α) where
  complete {input found rest} h := by
    change Progress.complete (value, input) = _ at h
    simp only [Progress.complete.injEq, Prod.mk.injEq] at h
    refine ⟨[], by rw [h.2, List.nil_append], fun more => ?_⟩
    rw [← h.1]
    rfl
  invalid h := by
    exact absurd h (by
      change ¬ Progress.complete _ = _
      simp only [reduceCtorEq, not_false_eq_true])

theorem refuse (fault : Fault) : Local (Reader.refuse fault : Reader α) where
  complete h := absurd h (by simp only [Reader.refuse, reduceCtorEq, not_false_eq_true])
  invalid h _ := h

/-- Two local readers in a row are local. -/
theorem bind {next : α → Reader β} (hfirst : Local reader) (hnext : ∀ found, Local (next found)) :
    Local (reader >>= next) where
  complete {input value rest} h := by
    rcases bind_eq_complete h with ⟨found, middle, hread, hrest⟩
    rcases hfirst.complete hread with ⟨used, rfl, hused⟩
    rcases (hnext found).complete hrest with ⟨later, rfl, hlater⟩
    -- What both have used is used, one part after the other.
    refine ⟨used ++ later, by rw [List.append_assoc], fun more => ?_⟩
    rw [List.append_assoc, bind_of_complete (hused (later ++ more))]
    exact hlater more
  invalid {input fault} h more := by
    rcases bind_eq_invalid h with hread | ⟨found, middle, hread, hrest⟩
    · exact bind_of_invalid (hfirst.invalid hread more)
    · rcases hfirst.complete hread with ⟨used, rfl, hused⟩
      rw [List.append_assoc, bind_of_complete (hused (middle ++ more))]
      exact (hnext found).invalid hrest more

theorem append (hlocal : Local reader) {input rest : Bytes} {value : α}
    (h : reader input = .complete (value, rest)) (more : Bytes) :
    reader (input ++ more) = .complete (value, rest ++ more) := by
  rcases hlocal.complete h with ⟨used, rfl, hused⟩
  rw [List.append_assoc]
  exact hused (rest ++ more)

end Local

end Reader

end RespBus
