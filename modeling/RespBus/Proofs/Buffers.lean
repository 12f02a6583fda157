import RespBus.Buffers

/-!
# Asking for Buffers

A buffer can be had up to the largest size there is, and there are two ways to
ask for too much. The buffers of a framing come down to the first of them: it
is the larger one, so where it can be had the other can be had as well. Its
size grows with that of the chunks, and the limits on the one are an eighth of
the limits on the other.

## Theorems

* `reserve_cases`: The ways in which asking for a buffer can end.
* `Framing.reserve_eq`: The first of the two buffers decides.
* `Framing.reserve_shortRead`: Which chunks leave room for the buffers.
* `Framing.reserve_eq_ok_iff`: The same for a mode of either kind.
-/

namespace RespBus

/-- The three ways in which asking for a buffer can end. -/
theorem reserve_cases (size : Nat) :
    (size ≤ maxBuffer ∧ reserve size = .ok ()) ∨
      (maxBuffer < size ∧ size < wordRange ∧ reserve size = .error .tooLarge) ∨
      (wordRange ≤ size ∧ reserve size = .error .overflow) := by
  have hlargest : maxBuffer < wordRange := by decide
  by_cases hrange : wordRange ≤ size
  · exact .inr (.inr ⟨hrange, if_pos hrange⟩)
  · have hreserve : reserve size = if maxBuffer < size then .error .tooLarge else .ok () :=
      if_neg hrange
    by_cases hlarge : maxBuffer < size
    · rw [if_pos hlarge] at hreserve
      exact .inr (.inl ⟨hlarge, by omega, hreserve⟩)
    · rw [if_neg hlarge] at hreserve
      exact .inl ⟨by omega, hreserve⟩

theorem reserve_eq_ok_iff {size : Nat} : reserve size = .ok () ↔ size ≤ maxBuffer := by
  have hlargest : maxBuffer < wordRange := by decide
  rcases reserve_cases size with ⟨hsize, h⟩ | ⟨hsize, _, h⟩ | ⟨hsize, h⟩ <;> rw [h]
  · exact iff_of_true rfl hsize
  · exact iff_of_false (by simp only [reduceCtorEq, not_false_eq_true]) (by omega)
  · exact iff_of_false (by simp only [reduceCtorEq, not_false_eq_true]) (by omega)

namespace Framing

/-- The first buffer is the larger one, so there is room for the second. -/
theorem reserve_eq (mode : Framing) : mode.reserve = RespBus.reserve mode.initialCapacity := by
  cases mode with
  | resp => rfl
  | shortRead chunkSize =>
      unfold reserve
      rcases hfirst : RespBus.reserve (initialCapacity (shortRead chunkSize)) with error | done
      · rfl
      · have hroom := reserve_eq_ok_iff.1 hfirst
        rw [initialCapacity] at hroom
        exact reserve_eq_ok_iff.2 (by rw [readSize]; omega)

/-- A session can start with chunks up to an eighth of the largest buffer. It
    cannot count what it needs for chunks from an eighth of the range on. -/
theorem reserve_shortRead (chunkSize : Nat) :
    (chunkSize ≤ maxBuffer / 8 ∧ (shortRead chunkSize).reserve = .ok ()) ∨
      (maxBuffer / 8 < chunkSize ∧ chunkSize < wordRange / 8 ∧
        (shortRead chunkSize).reserve = .error .tooLarge) ∨
      (wordRange / 8 ≤ chunkSize ∧ (shortRead chunkSize).reserve = .error .overflow) := by
  rw [reserve_eq, initialCapacity, maxBuffer, wordRange]
  rcases reserve_cases (chunkSize * 8) with ⟨hsize, h⟩ | ⟨hlarge, hrange, h⟩ | ⟨hrange, h⟩
  · rw [maxBuffer] at hsize
    exact .inl ⟨by omega, h⟩
  · rw [maxBuffer] at hlarge
    rw [wordRange] at hrange
    exact .inr (.inl ⟨by omega, by omega, h⟩)
  · rw [wordRange] at hrange
    exact .inr (.inr ⟨by omega, h⟩)

theorem initialCapacity_lt {chunkSize : Nat} :
    (shortRead chunkSize).initialCapacity < wordRange ↔ chunkSize < wordRange / 8 := by
  rw [initialCapacity, wordRange]
  omega

theorem initialCapacity_le {chunkSize : Nat} :
    (shortRead chunkSize).initialCapacity ≤ maxBuffer ↔ chunkSize ≤ maxBuffer / 8 := by
  rw [initialCapacity, maxBuffer]
  omega

/-- The buffers can be had just if the chunks, if there are any, are no more
    than an eighth of the largest buffer. -/
theorem reserve_eq_ok_iff {mode : Framing} :
    mode.reserve = .ok () ↔ ∀ size, mode = .shortRead size → size ≤ maxBuffer / 8 := by
  rw [reserve_eq, RespBus.reserve_eq_ok_iff]
  cases mode with
  | resp =>
      refine iff_of_true (by decide) fun size hshort => ?_
      exact absurd hshort (by simp only [reduceCtorEq, not_false_eq_true])
  | shortRead size =>
      simp only [shortRead.injEq, forall_eq']
      exact initialCapacity_le

-- Too large a chunk is all that can stand in the way.
theorem reserve_eq_error_iff {mode : Framing} :
    (∃ cause, mode.reserve = .error cause) ↔
      ∃ size, mode = .shortRead size ∧ maxBuffer / 8 < size := by
  have hneither : (∃ cause, mode.reserve = .error cause) ↔ ¬mode.reserve = .ok () := by
    rcases mode.reserve with cause | done
    · exact iff_of_true ⟨cause, rfl⟩ (by simp only [reduceCtorEq, not_false_eq_true])
    · exact iff_of_false (by simp only [reduceCtorEq, exists_false, not_false_eq_true])
        (not_not_intro rfl)
  rw [hneither, reserve_eq_ok_iff]
  simp only [Classical.not_forall, Nat.not_le, exists_prop]

end Framing

end RespBus
