import RespBus.Decimal

/-!
# Framing Modes

A framing mode is the rule by which incoming bytes are cut into messages. It
is part of the configuration, so it can be asked whether it makes sense: a
short-read chunk of fewer than two bytes can never be read short, and no
message would ever end.

## Main definitions

* `Framing`: The rule that cuts incoming bytes into messages.
* `Framing.readSize`: How many bytes are asked for at a time.
* `InvalidSetting`: What a configuration may be refused for.
* `InvalidSetting.message`: The wording of a refusal.
* `Framing.validate`: The refusal of a framing mode that could not work.

## Theorems

* `Framing.validate_shortRead`: Chunks of two bytes or more can work.
-/

namespace RespBus

/-- The rule that cuts incoming bytes into messages. -/
inductive Framing where
  /-- Read `chunkSize` bytes at a time; a read that brings fewer ends a
      message. -/
  | shortRead (chunkSize : Nat)
  /-- Cut where replies end. -/
  | resp
  deriving DecidableEq

/-- What a configuration may be refused for. -/
inductive InvalidSetting where
  | emptyHost
  | chunkTooSmall (chunkSize : Nat)
  | emptyMenuChannel
  | emptyMenuKey
  deriving DecidableEq

/-- The wording of a refusal. -/
def InvalidSetting.message : InvalidSetting → String
  | emptyHost => "host must not be empty"
  | chunkTooSmall chunkSize =>
    "chunk_size must be at least 2, got " ++ Decimal.toText chunkSize
  | emptyMenuChannel => "menu_channel must not be empty"
  | emptyMenuKey => "menu_key must not be empty"

namespace Framing

/-- Short reads of three bytes, unless a configuration says otherwise. -/
instance : Inhabited Framing := ⟨shortRead 3⟩

/-- How many bytes are asked for at a time: one chunk, or four kibibytes. -/
def readSize : Framing → Nat
  | shortRead chunkSize => chunkSize
  | resp => 4096

/-- The size of the buffer reserved before anything is read: eight chunks,
    or one read. -/
def initialCapacity : Framing → Nat
  | shortRead chunkSize => chunkSize * 8
  | resp => 4096

/-- Refuses a chunk that could never be read short. -/
def validate : Framing → Except InvalidSetting Unit
  | shortRead chunkSize => if chunkSize < 2 then .error (.chunkTooSmall chunkSize) else .ok ()
  | resp => .ok ()

/-- Chunks of two bytes or more can work. -/
theorem validate_shortRead {chunkSize : Nat} :
    (shortRead chunkSize).validate = .ok () ↔ 2 ≤ chunkSize := by
  rw [validate]
  by_cases hsmall : chunkSize < 2
  · rw [if_pos hsmall]
    exact iff_of_false (by simp only [reduceCtorEq, not_false_eq_true]) (by omega)
  · rw [if_neg hsmall]
    exact iff_of_true rfl (by omega)

end Framing

end RespBus
