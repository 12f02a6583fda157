import RespBus.Proofs.Reply.Grammar
import RespBus.Reply.Description

/-!
# Places in a Reply

A place is a reply with one element left out, however deep inside arrays the
element is. It is the arrays around the element, and of each of them the text
of its count and the elements before and after. A place keeps what makes it
one: the counts include the element that is left out, the others are spelled
as deep as they stand, and no array opens that may not. So whatever is spelled
at that depth can stand there, and what comes out is a reply (`Place.spells`).

An integer is spelled alike at every depth, and `decode_integer_at` puts the
usual text of any integer at any place. The reader holds the magnitude of an
integer at its bound before it looks at the sign, and the bounds are therefore
alike on both sides. Of the integers that fit 64 bits all but one are read as
they are written. The lowest has a magnitude one above the bound, and is read
as the integer above it.

## Main definitions

* `Place`: A place inside so many arrays.
* `Place.bytes`: The bytes of a reply, given those of what stands at a place.
* `Place.value`: A reply, given what stands at a place.
* `Reply.amidSevens`: A place two arrays deep.

## Theorems

* `Place.spells`: What is spelled at a place is part of a spelled reply.
* `Denotes.ofText_integerText`, `SpellsInteger.ofText_integerText`: The usual text
  of an integer.
* `Reply.decode_integer_at`: An integer is read wherever it stands.
* `Reply.decode_integer_at_nested`: One that stands inside two arrays.
* `Reply.decode_lowest_integer`: The one that is not read as it is written.
-/

namespace RespBus

/-- A place in a reply with `depth` arrays around it: nothing around it, or one
    array more inside another place, with the elements before and after. -/
inductive Place : Nat → Type where
  | top : Place 0
  | element {depth : Nat} (outer : Place depth) (text : Bytes)
      (before after : List (Bytes × Reply))
      (hcount : SpellsInteger text (before.length + 1 + after.length)) (hdepth : depth < 128)
      (hbefore : ∀ part ∈ before, Spells (depth + 1) part.1 part.2)
      (hafter : ∀ part ∈ after, Spells (depth + 1) part.1 part.2) : Place (depth + 1)

namespace Place

/-- The bytes of the whole reply, where `inner` are those of what stands at the
    place. -/
def bytes {depth : Nat} : Place depth → Bytes → Bytes
  | .top, inner => inner
  | .element outer text before after _ _ _ _, inner =>
    outer.bytes (42 :: text ++ Bytes.crlf ++ before.flatMap Prod.fst ++ inner ++
      after.flatMap Prod.fst)

/-- The whole reply, where `item` stands at the place. -/
def value {depth : Nat} : Place depth → Reply → Reply
  | .top, item => item
  | .element outer _ before after _ _ _ _, item =>
    outer.value (.array (before.map Prod.snd ++ item :: after.map Prod.snd))

/-- What is spelled at a place is part of a spelled reply. The induction is on
    the place, outwards, so what stands there is general. -/
theorem spells {depth : Nat} (place : Place depth) {inner : Bytes} {item : Reply}
    (h : Spells depth inner item) : Spells 0 (place.bytes inner) (place.value item) := by
  -- The induction is on the arrays around the place, from the innermost one
  -- out.
  induction place generalizing inner item with
  | top => exact h
  | element outer text before after hcount hdepth hbefore hafter ih =>
      refine ih ?_
      have hlength : ((before ++ (inner, item) :: after).length : Int) =
          before.length + 1 + after.length := by
        rw [List.length_append, List.length_cons]
        omega
      have hparts : ∀ part ∈ before ++ (inner, item) :: after, Spells _ part.1 part.2 :=
        List.forall_mem_append.2 ⟨hbefore, List.forall_mem_cons.2 ⟨h, hafter⟩⟩
      have harray := Spells.array (hlength ▸ hcount)
        (List.append_ne_nil_of_right_ne_nil before (List.cons_ne_nil (inner, item) after))
        hdepth hparts
      rw [List.flatMap_append, List.flatMap_cons, List.map_append, List.map_cons,
        ← List.append_assoc, ← List.append_assoc] at harray
      exact harray

end Place

/-- The usual text of an integer writes it out. -/
theorem Denotes.ofText_integerText (n : Int) : Denotes (Bytes.ofText (integerText n)) n := by
  have hsome := Decimal.toBytes_ne_nil n.natAbs
  have hdigits : ∀ b ∈ Decimal.toBytes n.natAbs, Decimal.isDigit b = true :=
    fun _ => Decimal.isDigit_of_mem_toBytes
  -- A negative number has its sign in front of the digits of its magnitude.
  by_cases h : n < 0
  · have htext : Bytes.ofText (integerText n) = 45 :: Decimal.toBytes n.natAbs := by
      rw [integerText, if_pos h, Bytes.ofText, String.toList_append, List.flatMap_append]
      exact congrArg (List.cons 45) (Decimal.ofText_toText n.natAbs)
    have hdenotes := minus hsome hdigits
    rw [Decimal.natural_toBytes, Int.ofNat_natAbs_of_nonpos (by omega), Int.neg_neg] at hdenotes
    rw [htext]
    exact hdenotes
  · have hdenotes := plain hsome hdigits
    rw [Decimal.natural_toBytes, Int.natAbs_of_nonneg (by omega)] at hdenotes
    rw [integerText, if_neg h, Decimal.ofText_toText]
    exact hdenotes

/-- The usual text of an integer spells it, held between the bounds. -/
theorem SpellsInteger.ofText_integerText (n : Int) :
    SpellsInteger (Bytes.ofText (integerText n)) (heldInteger n) :=
  (Denotes.ofText_integerText n).spells

theorem heldInteger_eq_self_iff {n : Int} :
    heldInteger n = n ↔ -9223372036854775808 < n ∧ n < 9223372036854775808 := by
  unfold heldInteger
  omega

namespace Reply

/-- An integer in its usual text is read wherever it stands, at the front of a
    buffer and in any number of arrays up to 128 with any elements around it,
    and whatever follows. It is held between `-(2 ^ 63 - 1)` and `2 ^ 63 - 1`,
    and so it is read as it is written if and only if it is above `-2 ^ 63` and
    below `2 ^ 63`. -/
theorem decode_integer_at {depth : Nat} (place : Place depth) (n : Int) (rest : Bytes) :
    decode (place.bytes (58 :: Bytes.ofText (integerText n) ++ Bytes.crlf) ++ rest) =
        .complete (place.value (.integer (heldInteger n)),
          (place.bytes (58 :: Bytes.ofText (integerText n) ++ Bytes.crlf)).length) ∧
      (heldInteger n = n ↔ -9223372036854775808 < n ∧ n < 9223372036854775808) := by
  have hinteger := SpellsInteger.ofText_integerText n
  exact ⟨decode_of_spells (place.spells (.integer hinteger)) rest, heldInteger_eq_self_iff⟩

/-- A place two arrays deep, with a seven before it in each of them. -/
def amidSevens : Place 2 :=
  have hcount : SpellsInteger (Bytes.ofText (integerText 2)) 2 :=
    SpellsInteger.ofText_integerText 2
  have hseven (depth : Nat) :
      Spells depth (58 :: Bytes.ofText (integerText 7) ++ Bytes.crlf) (.integer 7) :=
    .integer (SpellsInteger.ofText_integerText 7)
  let sevens : List (Bytes × Reply) :=
    [(58 :: Bytes.ofText (integerText 7) ++ Bytes.crlf, .integer 7)]
  have hsevens (depth : Nat) : ∀ part ∈ sevens, Spells depth part.1 part.2 :=
    List.forall_mem_singleton.2 (hseven depth)
  .element (.element .top (Bytes.ofText (integerText 2)) sevens [] hcount (by decide) (hsevens 1)
    (List.forall_mem_nil _)) (Bytes.ofText (integerText 2)) sevens [] hcount (by decide)
    (hsevens 2) (List.forall_mem_nil _)

/-- An integer inside two arrays, with other elements before it and other bytes
    after it. -/
theorem decode_integer_at_nested :
    decode (Bytes.ofText "*2\r\n:7\r\n*2\r\n:7\r\n:-42\r\n" ++ Bytes.ofText "+OK") =
      .complete (.array [.integer 7, .array [.integer 7, .integer (-42)]], 22) := by
  have hwhole := (decode_integer_at amidSevens (-42) (Bytes.ofText "+OK")).1
  have hbytes : amidSevens.bytes (58 :: Bytes.ofText (integerText (-42)) ++ Bytes.crlf) =
      Bytes.ofText "*2\r\n:7\r\n*2\r\n:7\r\n:-42\r\n" := by cbv
  have hvalue : amidSevens.value (.integer (heldInteger (-42))) =
      .array [.integer 7, .array [.integer 7, .integer (-42)]] := by cbv
  have hlength : (Bytes.ofText "*2\r\n:7\r\n*2\r\n:7\r\n:-42\r\n").length = 22 := by cbv
  rw [hbytes, hvalue, hlength] at hwhole
  exact hwhole

/-- The lowest integer of 64 bits is read as the one above it. -/
theorem decode_lowest_integer :
    integerText (-9223372036854775808) = "-9223372036854775808" ∧
      decode (Bytes.ofText ":-9223372036854775808\r\n") =
        .complete (.integer (-9223372036854775807), 23) := by
  constructor
  · cbv
  · cbv

end Reply

end RespBus
