import RespBus.Proofs.Reply.Places
import RespBus.Proofs.Scanner.Decoder

/-!
# Lengths of Bulk Strings

A bulk string announces how long it is. The length is written out as an
integer of any magnitude, and what is read of it is held between the bounds of
the wire first and compared with the limit afterwards. The limit is far inside
the bounds, so the comparison comes out as it would for the length as written
(`Denotes`).

A header can stand anywhere in a reply, and be at fault there before the reply
is complete. So the statement is about the bytes before a header, which are not
a reply: `Lead` are those with which arrays open and get some of the elements
they lack. Two lemmas say what a lead is worth. `Lead.exists_finish`: reading a
lead and what follows is to read the element that begins after it, and then
whatever the open arrays need. So a fault of that element is a fault of the
whole, and so is its want of bytes. `Lead.exists_place`: a lead is the front of a
place, as nulls can stand for all that is lacking. So whatever is spelled after
it is part of a reply.

What is above the limit is at fault everywhere. What is below it is not looked
at any more closely than for its sign. Every negative length announces the null,
and `-1` is only one of them.

## Main definitions

* `Lead`: The bytes before a header, with so many arrays open in the end.
* `BulkHeader`: A header of a bulk string at some place of a buffer.

## Theorems

* `Lead.exists_finish`: A reader goes on after a lead with the next element.
* `Lead.exists_place`: A lead is the front of a place.
* `Reply.decode_of_header_error`: A header at fault is a fault of the buffer.
* `Reply.exists_complete_of_header`: A header that is not is part of a reply.
* `Reply.spells_null_iff`: The null is any negative length.
* `Reply.le_of_decode`: What a decoded reply announces is up to the limit.
* `Reply.header_invalid_iff`: What is refused is above the limit.
* `Reply.bulk_length_limited`: The lengths that are accepted.
* `Reply.decode_null_below`: A length below `-1` is one of them.
-/

namespace RespBus

-- The limit and zero lie between the bounds, so holding moves nothing past them.
theorem heldInteger_le_iff {n : Int} : heldInteger n ≤ 536870912 ↔ n ≤ 536870912 := by
  unfold heldInteger
  omega

/-- Holding a number within the words keeps its sign. -/
theorem heldInteger_neg_iff {n : Int} : heldInteger n < 0 ↔ n < 0 := by
  unfold heldInteger
  omega

/-- As a length, a number is held at the upper bound only. -/
theorem heldInteger_toNat (n : Int) : (heldInteger n).toNat = min n.toNat 9223372036854775807 := by
  unfold heldInteger
  omega

namespace Bytes

/-- There is no line in bytes without a line end. -/
theorem splitLine_of_unbroken_alone {line : Bytes} (h : ¬ crlf <:+: line) :
    splitLine line = none := by
  rcases hsplit : splitLine line with _ | ⟨first, rest⟩
  · rfl
  · rw [(splitLine_eq_some_iff.1 hsplit).2] at h
    exact absurd ⟨first, rest, rfl⟩ h

end Bytes

/-- The bytes before a header, where `depth` arrays are open at first and
    `inner` when the header comes. Arrays open one inside another, and each has
    some of its elements and lacks at least the one that follows. -/
inductive Lead : Nat → Nat → Bytes → Prop where
  | here {depth : Nat} : Lead depth depth []
  | element {depth inner : Nat} {text lead : Bytes} {count : Int}
      {parts : List (Bytes × Reply)} (hcount : SpellsInteger text count)
      (hlacking : parts.length < count) (hdepth : depth < 128)
      (hparts : ∀ part ∈ parts, Spells (depth + 1) part.1 part.2)
      (hlead : Lead (depth + 1) inner lead) :
      Lead depth inner (42 :: text ++ Bytes.crlf ++ parts.flatMap Prod.fst ++ lead)

/-- A line with the mark of a bulk string, and `text` after the mark, stands in
    the buffer after `lead`, where a reply or an element of one begins. -/
structure BulkHeader (buffer lead text : Bytes) : Prop where
  opened : ∃ depth, Lead 0 depth lead
  unbroken : ¬ Bytes.crlf <:+: text
  inside : lead ++ (36 :: text ++ Bytes.crlf) <+: buffer

namespace Reply

-- A counted run reads the elements that are there and goes on after them.
theorem readMany_append {readItem : Reader Reply} {depth : Nat}
    (hitem : readItem.Accepts (Spells depth)) {parts : List (Bytes × Reply)}
    (hparts : ∀ part ∈ parts, Spells depth part.1 part.2) (count : Nat) (input : Bytes) :
    ∀ done, readMany readItem (parts.length + count) done (parts.flatMap Prod.fst ++ input) =
      readMany readItem count ((parts.map Prod.snd).reverse ++ done) input := by
  induction parts with
  | nil =>
      intro done
      rw [List.length_nil, Nat.zero_add]
      rfl
  | cons part parts ih =>
      intro done
      rw [List.forall_mem_cons] at hparts
      have hread := (hitem (part.1 ++ (parts.flatMap Prod.fst ++ input)) part.2 _).2
        ⟨part.1, rfl, hparts.1⟩
      have hlength : (part :: parts).length + count = parts.length + count + 1 := by
        rw [List.length_cons]
        omega
      -- The first element is read, and the others are one fewer.
      rw [hlength, readMany_succ, List.flatMap_cons, List.append_assoc,
        Reader.bind_of_complete hread, ih hparts.2, List.map_cons, List.reverse_cons,
        List.append_assoc]
      rfl

end Reply

/-- A reader goes on after a lead with the element that begins there, and then
    with what the open arrays need. The induction is on the arrays that open. -/
theorem Lead.exists_finish {depth inner : Nat} {lead : Bytes} (h : Lead depth inner lead) :
    ∀ levels, depth + levels = maxNesting →
      ∃ (left : Nat) (finish : Reply → Reader Reply), inner + left = maxNesting ∧
        ∀ input, Reply.read levels (lead ++ input) = (Reply.read left >>= finish) input := by
  induction h with
  | @here depth =>
      intro levels hlevels
      refine ⟨levels, pure, hlevels, fun input => ?_⟩
      rw [bind_pure, List.nil_append]
  | @element depth inner text lead count parts hcount hlacking hdepth hparts hlead ih =>
      intro levels hlevels
      rcases levels with _ | levels
      · unfold maxNesting at hlevels
        omega
      rcases ih levels (by omega) with ⟨left, finish, hleft, hread⟩
      have hsome : count.toNat ≠ 0 := by omega
      -- How many elements are needed once the next one is read.
      obtain ⟨more, hmore⟩ : ∃ more, count.toNat = parts.length + (more + 1) :=
        ⟨count.toNat - parts.length - 1, by omega⟩
      refine ⟨left, fun value => finish value >>= fun item =>
        (Reply.readMany (Reply.read levels) more (item :: (parts.map Prod.snd).reverse) :
          Reader (List Reply)) >>= fun items => pure (.array items), hleft, fun input => ?_⟩
      have hheader := Reader.header_of_announced (.array hcount) (hcount.unbroken (by decide))
        (parts.flatMap Prod.fst ++ (lead ++ input))
      have hitems := Reply.readMany_append (Reply.accepts_read levels (depth + 1) (by omega))
        hparts (more + 1) (lead ++ input) []
      rw [List.append_nil, Reply.readMany_succ, Reader.bind_apply, hread] at hitems
      rw [Reply.read, Reply.readElement_eq, List.append_assoc, List.append_assoc,
        Reader.bind_of_complete hheader, Reply.body, if_neg hsome, Reader.bind_apply, hmore, hitems,
        Reader.bind_apply, Reader.bind_apply, bind_assoc, bind_assoc]
      rfl

/-- A lead is the front of a place, with nulls for the elements that its arrays
    lack besides the one that begins after it. The induction is on the arrays
    that open, and each of them is the place of the next. -/
theorem Lead.exists_place {depth inner : Nat} {lead : Bytes} (h : Lead depth inner lead) :
    ∀ outer : Place depth, ∃ (place : Place inner) (more : Bytes),
      ∀ used, place.bytes used = outer.bytes (lead ++ used ++ more) := by
  induction h with
  | here =>
      intro outer
      refine ⟨outer, [], fun used => ?_⟩
      rw [List.nil_append, List.append_nil]
  | @element depth inner text lead count parts hcount hlacking hdepth hparts hlead ih =>
      intro outer
      have hminus := Denotes.ofText_integerText (-1)
      -- The elements still lacking are filled up with nulls, which are allowed
      -- everywhere.
      let null : Bytes × Reply := (36 :: Bytes.ofText (integerText (-1)) ++ Bytes.crlf, .null)
      let nulls := List.replicate (count.toNat - parts.length - 1) null
      have hnulls : ∀ part ∈ nulls, Spells (depth + 1) part.1 part.2 := fun part hpart =>
        (List.eq_of_mem_replicate hpart) ▸ .null hminus.spells (by decide)
      have hlength : (parts.length + 1 + nulls.length : Int) = count := by
        rw [List.length_replicate]
        omega
      rcases ih (.element outer text parts nulls (hlength ▸ hcount) hdepth hparts hnulls) with
        ⟨place, more, hplace⟩
      refine ⟨place, more ++ nulls.flatMap Prod.fst, fun used => ?_⟩
      rw [hplace, Place.bytes]
      simp only [List.append_assoc]

namespace Reply

-- A header line that is at fault is so wherever it stands and whatever follows.
theorem read_of_line_error {line : Bytes} {fault : Fault} (hunbroken : ¬ Bytes.crlf <:+: line)
    (hline : Header.ofLine line = .error fault) (levels : Nat) (rest : Bytes) :
    read levels (line ++ Bytes.crlf ++ rest) = .invalid fault := by
  have hheader : Reader.header (line ++ Bytes.crlf ++ rest) = .invalid fault := by
    simp only [Reader.header_apply, Bytes.splitLine_of_unbroken hunbroken, hline]
  cases levels <;>
  · rw [read, readElement_eq]
    exact Reader.bind_of_invalid hheader

-- Before its end a line is not looked at.
theorem read_of_unbroken {line : Bytes} (h : ¬ Bytes.crlf <:+: line) (levels : Nat) :
    read levels line = .incomplete := by
  have hheader : Reader.header line = .incomplete := by
    simp only [Reader.header_apply, Bytes.splitLine_of_unbroken_alone h]
  cases levels <;>
  · rw [read, readElement_eq]
    exact Reader.bind_of_incomplete hheader

/-- A bulk header that is at fault is the fault of the buffer. -/
theorem decode_of_header_error {buffer lead text : Bytes} {fault : Fault}
    (h : BulkHeader buffer lead text) (hfault : Header.ofBulkLength text = .error fault) :
    decode buffer = .invalid fault := by
  have hunbroken : ¬ Bytes.crlf <:+: 36 :: text :=
    (Bytes.unbroken_cons (by decide)).2 h.unbroken
  rcases h.opened with ⟨depth, hlead⟩
  rcases h.inside with ⟨rest, hbuffer⟩
  rcases hlead.exists_finish maxNesting (Nat.zero_add maxNesting) with ⟨left, finish, _, hread⟩
  rw [decode_eq_invalid_iff, ← hbuffer, List.append_assoc, hread]
  exact Reader.bind_of_invalid (read_of_line_error hunbroken hfault left rest)

/-- A bulk header without its line end is waited for. -/
theorem decode_of_header_start {buffer lead text : Bytes} (h : BulkHeader buffer lead text) :
    decode (lead ++ 36 :: text) = .incomplete := by
  have hunbroken : ¬ Bytes.crlf <:+: 36 :: text :=
    (Bytes.unbroken_cons (by decide)).2 h.unbroken
  rcases h.opened with ⟨depth, hlead⟩
  rcases hlead.exists_finish maxNesting (Nat.zero_add maxNesting) with ⟨left, finish, _, hread⟩
  rw [decode, hread, Reader.bind_of_incomplete (read_of_unbroken hunbroken left)]
  rfl

/-- A length above the limit is refused, and the refusal names it as it was
    held. -/
theorem ofBulkLength_of_above {text : Bytes} {n : Int} (hdenotes : Denotes text n)
    (habove : 536870912 < n) :
    Header.ofBulkLength text = .error (.bulkTooLong (min n.toNat 9223372036854775807)) := by
  have hheld := heldInteger_le_iff (n := n)
  rw [Header.ofBulkLength, readInteger_eq_ok_iff.2 hdenotes.spells, ← heldInteger_toNat]
  unfold maxBulkLength
  exact if_pos (by omega)

/-- A length that is not refused is written out and not above the limit. -/
theorem denotes_of_ofBulkLength {text : Bytes} {header : Header}
    (h : Header.ofBulkLength text = .ok header) : ∃ n, Denotes text n ∧ n ≤ 536870912 := by
  rcases hread : readInteger text with fault | value
  · rw [Header.ofBulkLength, hread] at h
    exact absurd h (by simp only [reduceCtorEq, not_false_eq_true])
  · rcases spellsInteger_iff.1 (readInteger_eq_ok_iff.1 hread) with ⟨n, hdenotes, -⟩
    refine ⟨n, hdenotes, ?_⟩
    by_contra habove
    rw [ofBulkLength_of_above hdenotes (by omega)] at h
    exact absurd h (by simp only [reduceCtorEq, not_false_eq_true])

/-- Any negative length announces the null, and nothing else does. -/
theorem spells_null_iff {depth : Nat} {used : Bytes} :
    Spells depth used .null ↔ ∃ text n, used = 36 :: text ++ Bytes.crlf ∧ Denotes text n ∧
      n < 0 := by
  constructor
  · intro h
    cases h with
    | @null _ text length hlength hnegative =>
        rcases spellsInteger_iff.1 hlength with ⟨n, hdenotes, rfl⟩
        exact ⟨text, n, rfl, hdenotes, heldInteger_neg_iff.1 hnegative⟩
  · rintro ⟨text, n, rfl, hdenotes, hnegative⟩
    exact .null hdenotes.spells (heldInteger_neg_iff.2 hnegative)

/-- A header that is not at fault is part of a reply. Its data are there, and
    the arrays around it get the elements they lack. -/
theorem exists_complete_of_header {buffer lead text : Bytes} {n : Int}
    (h : BulkHeader buffer lead text) (hdenotes : Denotes text n) (hmax : n ≤ 536870912) :
    ∃ more value, decode (lead ++ (36 :: text ++ Bytes.crlf ++ more)) =
      .complete (value, (lead ++ (36 :: text ++ Bytes.crlf ++ more)).length) := by
  rcases h.opened with ⟨depth, hlead⟩
  rcases hlead.exists_place .top with ⟨place, after, hplace⟩
  -- What the header announces is put behind it: nothing for the null, and zeros
  -- otherwise.
  obtain ⟨data, value, hspells⟩ :
      ∃ data value, Spells depth (36 :: text ++ Bytes.crlf ++ data) value := by
    by_cases hnegative : n < 0
    · refine ⟨[], .null, ?_⟩
      rw [List.append_nil]
      exact spells_null_iff.2 ⟨text, n, rfl, hdenotes, hnegative⟩
    · let data := List.replicate n.toNat (0 : UInt8)
      have hsize : data.length = n.toNat := List.length_replicate
      have hheld : heldInteger n = data.length := by
        unfold heldInteger
        omega
      refine ⟨data ++ Bytes.crlf, .bulk data, ?_⟩
      rw [← List.append_assoc]
      exact .bulk (hheld ▸ hdenotes.spells) (by omega)
  have hdecode := decode_of_spells (place.spells hspells) []
  have hbytes : lead ++ (36 :: text ++ Bytes.crlf ++ data) ++ after =
      lead ++ (36 :: text ++ Bytes.crlf ++ (data ++ after)) := by
    simp only [List.append_assoc]
  rw [hplace, Place.bytes, List.append_nil, hbytes] at hdecode
  exact ⟨data ++ after, place.value value, hdecode⟩

/-- A header line is at fault by itself if and only if its length is above the
    limit. -/
theorem header_invalid_iff {buffer lead text : Bytes} {n : Int}
    (h : BulkHeader buffer lead text) (hdenotes : Denotes text n) :
    (∃ fault, decode (lead ++ (36 :: text ++ Bytes.crlf)) = .invalid fault) ↔ 536870912 < n := by
  constructor
  · rintro ⟨fault, hfault⟩
    by_contra hmax
    rcases exists_complete_of_header h hdenotes (by omega) with ⟨more, value, hcomplete⟩
    rw [← List.append_assoc, decode_append_invalid hfault more] at hcomplete
    exact absurd hcomplete (by simp only [reduceCtorEq, not_false_eq_true])
  · intro habove
    have halone : BulkHeader (lead ++ (36 :: text ++ Bytes.crlf)) lead text :=
      ⟨h.opened, h.unbroken, List.prefix_rfl⟩
    exact ⟨_, decode_of_header_error halone (ofBulkLength_of_above hdenotes habove)⟩

/-- Every header in a reply that is decoded announces a length up to the limit. -/
theorem le_of_decode {buffer lead text : Bytes} {value : Reply} {length : Nat}
    (h : decode buffer = .complete (value, length))
    (hheader : BulkHeader (buffer.take length) lead text) :
    ∃ n, Denotes text n ∧ n ≤ 536870912 := by
  rcases hlength : Header.ofBulkLength text with fault | header
  · -- The bytes of the reply alone would be at fault as well.
    have hfault := decode_of_header_error hheader hlength
    rw [decode_take h] at hfault
    exact absurd hfault (by simp only [reduceCtorEq, not_false_eq_true])
  · exact denotes_of_ofBulkLength hlength

/-- A negative length is read as the null at every place. -/
theorem decode_null_at {depth : Nat} (place : Place depth) {text : Bytes} {n : Int}
    (hdenotes : Denotes text n) (hnegative : n < 0) (rest : Bytes) :
    decode (place.bytes (36 :: text ++ Bytes.crlf) ++ rest) =
      .complete (place.value .null, (place.bytes (36 :: text ++ Bytes.crlf)).length) :=
  decode_of_spells (place.spells (spells_null_iff.2 ⟨text, n, rfl, hdenotes, hnegative⟩)) rest

/-- The lengths of bulk strings that are accepted are the integers up to the
    limit, the negative ones all alike.

    In a reply that the decoder or the scanner accepts every header of a bulk
    string, however many arrays are around it, announces such a length. And of a
    header anywhere in the buffer, both want more bytes until its line is
    complete. A length above the limit is at fault for both from then on, whatever
    follows, and the fault names the length, as far as it fits. Any other length
    is part of a reply that both accept. So a header line is refused for exactly
    the lengths outside `-1` to `536870912` if and only if its own length is not
    below `-1`.

    A negative length is the null, at every place of a reply, while the null is
    written in no other way. -/
theorem bulk_length_limited (buffer : Bytes) :
    (∀ length, (∃ value, decode buffer = .complete (value, length)) ∨
        frameLength buffer = .complete length →
      ∀ lead text, BulkHeader (buffer.take length) lead text →
        ∃ n, Denotes text n ∧ n ≤ 536870912) ∧
      (∀ lead text n, BulkHeader buffer lead text → Denotes text n →
        (decode (lead ++ 36 :: text) = .incomplete ∧
          frameLength (lead ++ 36 :: text) = .incomplete) ∧
        (536870912 < n →
          decode buffer = .invalid (.bulkTooLong (min n.toNat 9223372036854775807)) ∧
            frameLength buffer = .invalid (.bulkTooLong (min n.toNat 9223372036854775807))) ∧
        (n ≤ 536870912 → ∃ more value,
          decode (lead ++ (36 :: text ++ Bytes.crlf ++ more)) =
              .complete (value, (lead ++ (36 :: text ++ Bytes.crlf ++ more)).length) ∧
            frameLength (lead ++ (36 :: text ++ Bytes.crlf ++ more)) =
              .complete (lead ++ (36 :: text ++ Bytes.crlf ++ more)).length) ∧
        (((∃ fault, decode (lead ++ (36 :: text ++ Bytes.crlf)) = .invalid fault) ↔
            ¬ (-1 ≤ n ∧ n ≤ 536870912)) ↔ -1 ≤ n) ∧
        (((∃ fault, frameLength (lead ++ (36 :: text ++ Bytes.crlf)) = .invalid fault) ↔
            ¬ (-1 ≤ n ∧ n ≤ 536870912)) ↔ -1 ≤ n)) ∧
      (∀ depth (place : Place depth) text n rest, Denotes text n → n < 0 →
        decode (place.bytes (36 :: text ++ Bytes.crlf) ++ rest) =
            .complete (place.value .null, (place.bytes (36 :: text ++ Bytes.crlf)).length) ∧
          frameLength (place.bytes (36 :: text ++ Bytes.crlf) ++ rest) =
            .complete (place.bytes (36 :: text ++ Bytes.crlf)).length) ∧
      ∀ depth used, Spells depth used .null →
        ∃ text n, used = 36 :: text ++ Bytes.crlf ∧ Denotes text n ∧ n < 0 := by
  refine ⟨fun length haccepted lead text hheader => ?_,
    fun lead text n hheader hdenotes => ?_,
    fun depth place text n rest hdenotes hnegative => ?_,
    fun depth used h => spells_null_iff.1 h⟩
  · rw [frameLength_eq_complete_iff_decode, or_self] at haccepted
    rcases haccepted with ⟨value, hdecode⟩
    exact le_of_decode hdecode hheader
  · have hstart := decode_of_header_start hheader
    have hrefused := header_invalid_iff hheader hdenotes
    -- Below `-1` the line is not refused, and everywhere else as it should be.
    have hexact : ((536870912 < n ↔ ¬ (-1 ≤ n ∧ n ≤ 536870912)) ↔ -1 ≤ n) := by omega
    refine ⟨⟨hstart, frameLength_eq_incomplete_iff_decode.2 hstart⟩, fun habove => ?_,
      fun hmax => ?_, ?_, ?_⟩
    · have hfault := decode_of_header_error hheader (ofBulkLength_of_above hdenotes habove)
      exact ⟨hfault, frameLength_eq_invalid_iff_decode.2 hfault⟩
    · rcases exists_complete_of_header hheader hdenotes hmax with ⟨more, value, hcomplete⟩
      exact ⟨more, value, hcomplete, frameLength_eq_complete_iff_decode.2 ⟨value, hcomplete⟩⟩
    · rw [hrefused]
      exact hexact
    · simp only [frameLength_eq_invalid_iff_decode]
      rw [hrefused]
      exact hexact
  · have hdecode := decode_null_at place hdenotes hnegative rest
    exact ⟨hdecode, frameLength_eq_complete_iff_decode.2 ⟨_, hdecode⟩⟩

/-- A length below `-1` is accepted, and is the null. -/
theorem decode_null_below :
    Denotes (Bytes.ofText (integerText (-2))) (-2) ∧
      decode (36 :: Bytes.ofText (integerText (-2)) ++ Bytes.crlf) = .complete (.null, 5) ∧
      frameLength (36 :: Bytes.ofText (integerText (-2)) ++ Bytes.crlf) = .complete 5 :=
  ⟨.ofText_integerText (-2), by cbv, by cbv⟩

/-- An array of an integer, up to where its second element begins. -/
def secondLead : Bytes :=
  Bytes.ofText "*2\r\n:1\r\n"

/-- A length that is one above the limit, and one below zero, both inside an
    array. -/
theorem bulk_length_limited_second :
    decode (secondLead ++ Bytes.ofText "$536870913\r\n") = .invalid (.bulkTooLong 536870913) ∧
      frameLength (secondLead ++ Bytes.ofText "$536870913\r\n") =
        .invalid (.bulkTooLong 536870913) ∧
      decode (secondLead ++ Bytes.ofText "$-7\r\n") =
        .complete (.array [.integer 1, .null], 13) := by
  have hcount : SpellsInteger (Bytes.ofText (integerText 2)) 2 :=
    (Denotes.ofText_integerText 2).spells
  have hone : Spells 1 (58 :: Bytes.ofText (integerText 1) ++ Bytes.crlf) (.integer 1) :=
    .integer (Denotes.ofText_integerText 1).spells
  have hparts : ∀ part ∈ [(58 :: Bytes.ofText (integerText 1) ++ Bytes.crlf, Reply.integer 1)],
      Spells 1 part.1 part.2 := by
    simpa only [List.mem_singleton, forall_eq] using hone
  have hbytes : 42 :: Bytes.ofText (integerText 2) ++ Bytes.crlf ++
      (58 :: Bytes.ofText (integerText 1) ++ Bytes.crlf) = secondLead := by cbv
  have habove : 36 :: Bytes.ofText (integerText 536870913) ++ Bytes.crlf =
      Bytes.ofText "$536870913\r\n" := by cbv
  have hbelow : secondLead ++ (36 :: Bytes.ofText (integerText (-7)) ++ Bytes.crlf) =
      secondLead ++ Bytes.ofText "$-7\r\n" := by cbv
  -- The second element of an array of two is behind a lead of one element.
  have hopened : Lead 0 1 (42 :: Bytes.ofText (integerText 2) ++ Bytes.crlf ++
      [(58 :: Bytes.ofText (integerText 1) ++ Bytes.crlf, Reply.integer 1)].flatMap Prod.fst ++
        []) := .element hcount (by decide) (by decide) hparts .here
  rw [List.flatMap_singleton, List.append_nil, hbytes] at hopened
  have hlength := Denotes.ofText_integerText 536870913
  have hline : ¬ Bytes.crlf <:+: 36 :: Bytes.ofText (integerText 536870913) :=
    hlength.spells.unbroken (by decide)
  have hheader : BulkHeader (secondLead ++ Bytes.ofText "$536870913\r\n") secondLead
      (Bytes.ofText (integerText 536870913)) :=
    ⟨⟨1, hopened⟩, (Bytes.unbroken_cons (by decide)).1 hline, by rw [habove]⟩
  have hfault := ((bulk_length_limited _).2.1 _ _ _ hheader hlength).2.1 (by decide)
  have hnull := (bulk_length_limited []).2.2.1 1
    (.element .top _ _ [] hcount (by decide) hparts fun _ hpart => absurd hpart List.not_mem_nil)
    _ _ [] (Denotes.ofText_integerText (-7)) (by decide)
  have hsize : (secondLead ++ Bytes.ofText "$-7\r\n").length = 13 := by cbv
  simp only [Place.bytes, Place.value, List.flatMap_singleton, List.flatMap_nil, List.append_nil,
    List.map_singleton, List.map_nil, List.singleton_append, hbytes, hbelow, hsize] at hnull
  exact ⟨hfault.1, hfault.2, hnull.1⟩

end Reply

end RespBus
