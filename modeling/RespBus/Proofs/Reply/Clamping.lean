import Mathlib
import RespBus.Proofs.Checked

/-!
# Every Text Read as an Integer

Any bytes may stand where an integer should. Either they write one out, with as
many digits as they like, and it is read with its sign and with its magnitude
cut at `2 ^ 63 - 1`; or they do not, and then the fault says what is wrong:
nothing stands there, only a minus sign does, or some byte is not a digit. Here
that is put together for all texts, each fault with the texts that have it.

The texts of the last fault are those that are left: neither of the other two,
and nothing that `Denotes` an integer. That such a text is not read is no new
induction, as what is read is what is written out.

The bounds are the same on both sides although 64 bits have room for one number
more below. The sign is put in front of a magnitude that is already held, so
there always is an opposite, and reading by checked operations gives the same.

## Theorems

* `heldInteger_eq_sign_mul`: To hold an integer is to cut its magnitude.
* `readInteger_eq_error_iff`: The texts of each fault.
* `mapError_readInteger_iff`: The wording tells these faults apart.
* `readInteger_clamped`: What every text reads as.
-/

namespace RespBus

variable {text : Bytes} {fault : Fault}

/-- To hold an integer in the bounds is to cut its magnitude. -/
theorem heldInteger_eq_sign_mul (n : Int) :
    heldInteger n = n.sign * (min n.natAbs (2 ^ 63 - 1) : Nat) := by
  unfold heldInteger
  rcases Int.lt_trichotomy n 0 with hnegative | hzero | hpositive
  · rw [Int.sign_eq_neg_one_of_neg hnegative]
    omega
  · rw [hzero]
    rfl
  · rw [Int.sign_eq_one_of_pos hpositive]
    omega

/-- Each fault has its texts: the empty one, a lone minus sign, and all others
    that do not write an integer out. -/
theorem readInteger_eq_error_iff :
    readInteger text = .error fault ↔
      (text = [] ∧ fault = .missingInteger) ∨ (text = [45] ∧ fault = .missingDigits) ∨
        ((text ≠ [] ∧ text ≠ [45] ∧ ∀ n, ¬Denotes text n) ∧ fault = .invalidInteger) := by
  constructor
  · intro h
    rcases readInteger_error_cases h with hnothing | hminus | ⟨htext, hsign, hfault⟩
    · exact Or.inl hnothing
    · exact Or.inr (Or.inl hminus)
    · -- A text that writes an integer out is read, so it has no fault at all.
      refine Or.inr (Or.inr ⟨⟨htext, hsign, fun n hdenotes => ?_⟩, hfault⟩)
      rw [readInteger_eq_ok_iff.2 hdenotes.spells] at h
      exact absurd h (by simp only [reduceCtorEq, not_false_eq_true])
  · rintro (⟨rfl, rfl⟩ | ⟨rfl, rfl⟩ | ⟨⟨htext, hsign, hnone⟩, rfl⟩)
    · rfl
    · rfl
    · rcases hread : readInteger text with found | value
      · rcases readInteger_error_cases hread with ⟨hnil, _⟩ | ⟨hminus, _⟩ | ⟨_, _, hfound⟩
        · exact absurd hnil htext
        · exact absurd hminus hsign
        · rw [hfound]
      · rcases spellsInteger_iff.1 (readInteger_eq_ok_iff.1 hread) with ⟨n, hdenotes, _⟩
        exact absurd hdenotes (hnone n)

theorem eq_of_message : ∀ first ∈ integerFaults, ∀ second ∈ integerFaults,
    first.message = second.message → first = second := by
  decide

/-- The wording tells the faults of an integer apart. -/
theorem mapError_readInteger_iff (hfault : fault ∈ integerFaults) :
    (readInteger text).mapError Fault.message = .error fault.message ↔
      readInteger text = .error fault := by
  rcases hread : readInteger text with found | value
  · change Except.error found.message = .error fault.message ↔ _
    rw [Except.error.injEq, Except.error.injEq]
    exact ⟨eq_of_message found (mem_integerFaults hread) fault hfault, congrArg Fault.message⟩
  · change Except.ok value = .error fault.message ↔ _
    simp only [reduceCtorEq]

/-- What every text reads as. A text that writes out an integer reads as its sign
    times its magnitude, cut at the bound; no text is read otherwise. An empty
    text, a lone minus sign and every other text have each their own fault. No
    operation of the reading is without a result, on words that can count the
    text. -/
theorem readInteger_clamped (text : Bytes) :
    (∀ value, readInteger text = .ok value ↔
        ∃ n, Denotes text n ∧ value = n.sign * (min n.natAbs (2 ^ 63 - 1) : Nat)) ∧
      ((readInteger text).mapError Fault.message = .error "missing integer" ↔ text = []) ∧
      ((readInteger text).mapError Fault.message = .error "missing integer digits" ↔
        text = [45]) ∧
      ((readInteger text).mapError Fault.message = .error "invalid integer" ↔
        text ≠ [] ∧ text ≠ [45] ∧ ∀ n, ¬Denotes text n) ∧
      ∀ range, text.length < range → Checked.readInteger range text = some (readInteger text) := by
  -- Each text of an error belongs to one fault.
  refine ⟨fun value => ?_, ?_, ?_, ?_, fun range => Checked.readInteger_eq⟩
  · rw [readInteger_eq_ok_iff, spellsInteger_iff]
    simp only [heldInteger_eq_sign_mul]
  · refine (@mapError_readInteger_iff text .missingInteger (by decide)).trans ?_
    simp only [readInteger_eq_error_iff, reduceCtorEq, and_true, and_false, or_false]
  · refine (@mapError_readInteger_iff text .missingDigits (by decide)).trans ?_
    simp only [readInteger_eq_error_iff, reduceCtorEq, and_true, and_false, or_false, false_or]
  · refine (@mapError_readInteger_iff text .invalidInteger (by decide)).trans ?_
    simp only [readInteger_eq_error_iff, reduceCtorEq, and_true, and_false, false_or]

/-- A minus sign, a zero and thirty nines. -/
def overlongText : Bytes :=
  45 :: 48 :: List.replicate 30 57

-- The magnitude is held at the upper bound before the sign is put in front.
theorem readInteger_clamped_overlong :
    Denotes overlongText (-999999999999999999999999999999) ∧
      overlongText.length < 2 ^ 64 ∧
      Checked.readInteger (2 ^ 64) overlongText = some (.ok (-9223372036854775807)) := by
  have hdigits : ∀ b ∈ 48 :: List.replicate 30 57, Decimal.isDigit b = true := by
    intro b hb
    rcases List.mem_cons.1 hb with rfl | hnine
    · rfl
    · rw [List.eq_of_mem_replicate hnine]
      rfl
  have hdenotes : Denotes overlongText (-999999999999999999999999999999) :=
    .minus (List.cons_ne_nil 48 _) hdigits
  rcases readInteger_clamped overlongText with ⟨hread, _, _, _, hchecked⟩
  refine ⟨hdenotes, by decide, ?_⟩
  rw [hchecked (2 ^ 64) (by decide), (hread _).2 ⟨_, hdenotes, rfl⟩]
  rfl

end RespBus
