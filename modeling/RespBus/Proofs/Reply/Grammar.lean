import Mathlib
import RespBus.Proofs.Reply.Integer
import RespBus.Proofs.Reply.Stability

/-!
# The Grammar of Replies

What the decoder accepts, said without a decoder. `Spells` has a rule for
every way to write a reply, and a rule says which bytes are written and
nothing of how they are found: a text is bytes without a line end in them, the
data of a bulk string is any bytes of the announced number, an array is as
many spellings one after another as its count. The depth of a spelling is the
number of arrays around it, and only an array that has elements asks how deep
it stands.

`decode_eq_complete_iff_spells` says that the two agree: nothing else is
accepted, and everything that is spelled is accepted whatever follows it. The
proof goes the way the decoder is put together. A line ends at the first line
end, so a text may well end in CR; a header line is one of six; and the
elements of an array are read with one level less to spend where a spelling
stands one array deeper. `accepts_read` is the induction on the
levels, with the depth being what is used up of them.

## Main definitions

* `Header.Announced`: The header lines.
* `Reader.Accepts`: A reader reads exactly what is spelled.
* `Spells`: The bytes of a reply inside so many arrays.
* `SpellsAll`: The bytes of several replies one after another.

## Theorems

* `Bytes.splitLine_eq_some_iff`: A line is what has no line end in it.
* `Header.ofLine_eq_ok_iff`: A header line is one of six.
* `Reader.accepts_header`: A header is an announcement and a line end.
* `Reply.accepts_readMany`: A counted run is as many spellings.
* `Reply.accepts_readElement`: One reply, given the reader of its elements.
* `Reply.accepts_read`: What is read is what is spelled.
* `Reply.decode_of_spells`: What spells a reply is decoded as it.
* `Reply.decode_eq_complete_iff_spells`: The decoder accepts the grammar.
-/

namespace RespBus

namespace Bytes

/-- A line end is inside if it stands at the front or inside what follows. -/
theorem crlf_infix_cons {b : UInt8} {rest : Bytes} :
    crlf <:+: b :: rest ↔ (b = cr ∧ rest.head? = some lf) ∨ crlf <:+: rest := by
  have hstart : crlf <+: b :: rest ↔ b = cr ∧ rest.head? = some lf := by
    unfold crlf
    rcases rest with _ | ⟨c, rest⟩
    · simp only [List.cons_prefix_cons, List.prefix_nil, List.cons_ne_nil, and_false,
        List.head?_nil, reduceCtorEq]
    · simp only [List.cons_prefix_cons, List.nil_prefix, and_true, List.head?_cons,
        Option.some.injEq, eq_comm]
  rw [List.infix_cons_iff, hstart]

/-- A line without a line end inside is found whole. -/
theorem splitLine_of_unbroken {line : Bytes} (h : ¬ crlf <:+: line) (rest : Bytes) :
    splitLine (line ++ crlf ++ rest) = some (line, rest) := by
  induction line with
  | nil => rfl
  | cons b line ih =>
      rw [crlf_infix_cons, not_or] at h
      have hstart : ¬ (b = cr ∧ (line ++ crlf ++ rest).head? = some lf) := by
        rintro ⟨hb, hhead⟩
        rcases line with _ | ⟨c, line⟩
        · -- The next byte is the CR of the line's own end.
          have hcr : some cr = some lf := hhead
          exact absurd hcr (by decide)
        · exact h.1 ⟨hb, hhead⟩
      rw [List.cons_append, List.cons_append, splitLine_cons, if_neg hstart, ih h.2]
      rfl

/-- The line that is found has no line end inside. -/
theorem unbroken_of_splitLine {input line rest : Bytes}
    (h : splitLine input = some (line, rest)) : ¬ crlf <:+: line := by
  induction input generalizing line with
  | nil => exact absurd h (by simp only [splitLine, splitLineAfter, reduceCtorEq,
      not_false_eq_true])
  | cons b tail ih =>
      rw [splitLine_cons] at h
      by_cases hend : b = cr ∧ tail.head? = some lf
      · rw [if_pos hend, Option.some.injEq, Prod.mk.injEq] at h
        rw [← h.1]
        decide
      · rw [if_neg hend, Option.map_eq_some_iff] at h
        rcases h with ⟨⟨before, after⟩, hsplit, hfound⟩
        simp only [Prod.mk.injEq] at hfound
        rcases hfound with ⟨rfl, rfl⟩
        rw [crlf_infix_cons, not_or]
        refine ⟨?_, ih hsplit⟩
        rintro ⟨hb, hhead⟩
        -- What follows `b` in the line follows it in the input.
        refine hend ⟨hb, ?_⟩
        rw [(splitLine_eq_some hsplit).1]
        rcases before with _ | ⟨c, before⟩
        · exact absurd hhead (by decide)
        · exact hhead

/-- The first line is what has no line end in it and a line end after it. -/
theorem splitLine_eq_some_iff {input line rest : Bytes} :
    splitLine input = some (line, rest) ↔ ¬ crlf <:+: line ∧ input = line ++ crlf ++ rest := by
  constructor
  · intro h
    exact ⟨unbroken_of_splitLine h, (splitLine_eq_some h).1⟩
  · rintro ⟨hline, rfl⟩
    exact splitLine_of_unbroken hline rest

end Bytes

/-- Bulk data is taken just if it is as long as announced and a line end follows
    it. -/
theorem takeBulk_eq_complete_iff {length : Nat} {input data rest : Bytes} :
    takeBulk length input = .complete (data, rest) ↔
      data.length = length ∧ input = data ++ Bytes.crlf ++ rest := by
  constructor
  · intro h
    have hlength := length_of_takeBulk h
    have hinput := (takeBulk_eq_complete h).1
    rw [hinput] at hlength
    simp only [Bytes.crlf, List.length_append, List.length_cons, List.length_nil] at hlength
    exact ⟨by omega, hinput⟩
  · rintro ⟨rfl, rfl⟩
    rw [takeBulk, List.append_assoc, List.drop_left, List.take_left]
    rfl

/-- The header lines, without their ends. -/
inductive Header.Announced : Bytes → Header → Prop where
  | simple (text : Bytes) : Announced (43 :: text) (.simple text)
  | error (text : Bytes) : Announced (45 :: text) (.error text)
  | integer {text : Bytes} {value : Int} (hvalue : SpellsInteger text value) :
      Announced (58 :: text) (.integer value)
  | null {text : Bytes} {length : Int} (hlength : SpellsInteger text length)
      (hnegative : length < 0) : Announced (36 :: text) .null
  | bulk {text : Bytes} {length : Nat} (hlength : SpellsInteger text length)
      (hmax : length ≤ maxBulkLength) : Announced (36 :: text) (.bulk length)
  | array {text : Bytes} {count : Int} (hcount : SpellsInteger text count) :
      Announced (42 :: text) (.array count.toNat)

namespace Header

/-- A length that is accepted announces the null or some data. -/
theorem announced_of_ofBulkLength {text : Bytes} {header : Header}
    (h : ofBulkLength text = .ok header) : Announced (36 :: text) header := by
  rw [ofBulkLength] at h
  split at h
  · exact absurd h (by simp only [reduceCtorEq, not_false_eq_true])
  · rename_i length hread
    have hspelled := readInteger_eq_ok_iff.1 hread
    by_cases hlong : (maxBulkLength : Int) < length
    · rw [if_pos hlong] at h
      exact absurd h (by simp only [reduceCtorEq, not_false_eq_true])
    · rw [if_neg hlong] at h
      by_cases hnegative : length < 0
      · rw [if_pos hnegative, Except.ok.injEq] at h
        rw [← h]
        exact .null hspelled hnegative
      · rw [if_neg hnegative, Except.ok.injEq] at h
        rw [← h]
        have hnat : ((length.toNat : Nat) : Int) = length := Int.toNat_of_nonneg (by omega)
        exact .bulk (by rw [hnat]; exact hspelled) (by omega)

/-- A header line is one of six. -/
theorem ofLine_eq_ok_iff {line : Bytes} {header : Header} :
    ofLine line = .ok header ↔ Announced line header := by
  constructor
  · intro h
    rcases line with _ | ⟨kind, text⟩
    · exact absurd h (by simp only [ofLine, reduceCtorEq, not_false_eq_true])
    · rw [ofLine] at h
      -- The kinds exclude one another, so they are asked for in turn.
      by_cases hsimple : kind = 43
      · rw [if_pos hsimple, Except.ok.injEq] at h
        rw [hsimple, ← h]
        exact .simple text
      rw [if_neg hsimple] at h
      by_cases herror : kind = 45
      · rw [if_pos herror, Except.ok.injEq] at h
        rw [herror, ← h]
        exact .error text
      rw [if_neg herror] at h
      by_cases hinteger : kind = 58
      · rw [if_pos hinteger] at h
        rcases hread : readInteger text with fault | value
        · rw [hread] at h
          exact absurd h (by simp only [Except.map, reduceCtorEq, not_false_eq_true])
        · rw [hread] at h
          simp only [Except.map, Except.ok.injEq] at h
          rw [hinteger, ← h]
          exact .integer (readInteger_eq_ok_iff.1 hread)
      rw [if_neg hinteger] at h
      by_cases hbulk : kind = 36
      · rw [if_pos hbulk] at h
        rw [hbulk]
        exact announced_of_ofBulkLength h
      rw [if_neg hbulk] at h
      by_cases harray : kind = 42
      · rw [if_pos harray, ofArrayCount] at h
        split at h
        · exact absurd h (by simp only [reduceCtorEq, not_false_eq_true])
        · rename_i count hread
          rw [Except.ok.injEq] at h
          rw [harray, ← h]
          exact .array (readInteger_eq_ok_iff.1 hread)
      · rw [if_neg harray] at h
        exact absurd h (by simp only [reduceCtorEq, not_false_eq_true])
  · intro h
    cases h with
    | simple text => rfl
    | error text => rfl
    | @integer text value hvalue =>
        change (readInteger text).map Header.integer = _
        rw [readInteger_eq_ok_iff.2 hvalue]
        rfl
    | @null text length hlength hnegative =>
        change ofBulkLength text = _
        simp only [ofBulkLength, readInteger_eq_ok_iff.2 hlength]
        rw [if_neg (by omega), if_pos hnegative]
    | @bulk text length hlength hmax =>
        change ofBulkLength text = _
        simp only [ofBulkLength, readInteger_eq_ok_iff.2 hlength]
        rw [if_neg (by omega), if_neg (by omega), Int.toNat_natCast]
    | @array text count hcount =>
        change ofArrayCount text = _
        simp only [ofArrayCount, readInteger_eq_ok_iff.2 hcount]

end Header

namespace Reader

variable {α β : Type}

/-- A reader that accepts what is spelled: it reads a value from the front of
    its input if and only if the bytes it uses spell that value. -/
def Accepts (reader : Reader α) (spelled : Bytes → α → Prop) : Prop :=
  ∀ input value rest, reader input = .complete (value, rest) ↔
    ∃ used, input = used ++ rest ∧ spelled used value

/-- Two readers in a row read something just if the second goes on where the
    first has ended. -/
theorem bind_eq_complete_iff {first : Reader α} {next : α → Reader β} {input rest : Bytes}
    {value : β} :
    (first >>= next) input = .complete (value, rest) ↔
      ∃ found middle, first input = .complete (found, middle) ∧
        next found middle = .complete (value, rest) := by
  constructor
  · exact bind_eq_complete
  · rintro ⟨found, middle, hfirst, hnext⟩
    rw [bind_of_complete hfirst, hnext]

/-- A value without bytes is read without taking any. -/
theorem pure_eq_complete_iff {found value : α} {input rest : Bytes} :
    (pure found : Reader α) input = .complete (value, rest) ↔ value = found ∧ input = rest := by
  change Progress.complete (found, input) = _ ↔ _
  rw [Progress.complete.injEq, Prod.mk.injEq, eq_comm]

/-- A header is a line with its end. -/
theorem accepts_header :
    header.Accepts fun used found => ∃ line, used = line ++ Bytes.crlf ∧
      ¬ Bytes.crlf <:+: line ∧ Header.Announced line found := by
  intro input found rest
  rw [header_apply]
  constructor
  · intro h
    split at h
    · exact absurd h (by simp only [reduceCtorEq, not_false_eq_true])
    · rename_i line after hsplit
      split at h
      · exact absurd h (by simp only [reduceCtorEq, not_false_eq_true])
      · rename_i announced hline
        rw [Progress.complete.injEq, Prod.mk.injEq] at h
        rw [← h.1, ← h.2]
        -- A line is found just if it stands in front and is unbroken.
        rcases Bytes.splitLine_eq_some_iff.1 hsplit with ⟨hunbroken, hinput⟩
        exact ⟨_, hinput, line, rfl, hunbroken, Header.ofLine_eq_ok_iff.1 hline⟩
  · rintro ⟨used, hinput, line, rfl, hunbroken, hline⟩
    simp only [Bytes.splitLine_eq_some_iff.2 ⟨hunbroken, hinput⟩,
      Header.ofLine_eq_ok_iff.2 hline]

/-- Whatever is announced in a line is read as a header. -/
theorem header_of_announced {line : Bytes} {found : Header} (hline : Header.Announced line found)
    (hunbroken : ¬ Bytes.crlf <:+: line) (rest : Bytes) :
    header (line ++ Bytes.crlf ++ rest) = .complete (found, rest) :=
  (accepts_header _ _ _).2 ⟨_, rfl, line, rfl, hunbroken, hline⟩

end Reader

/-- The bytes of a reply inside `depth` arrays that have elements. The text of
    a simple string and of an error is any text without a line end in it, the
    data of a bulk string is any bytes of the announced number, and the
    elements of an array are spellings one array deeper, as many as its
    count. Counts and lengths are held between the bounds of an integer. -/
inductive Spells : Nat → Bytes → Reply → Prop where
  | simple {depth : Nat} {text : Bytes} (htext : ¬ Bytes.crlf <:+: text) :
      Spells depth (43 :: text ++ Bytes.crlf) (.simple text)
  | error {depth : Nat} {text : Bytes} (htext : ¬ Bytes.crlf <:+: text) :
      Spells depth (45 :: text ++ Bytes.crlf) (.error text)
  | integer {depth : Nat} {text : Bytes} {value : Int} (hvalue : SpellsInteger text value) :
      Spells depth (58 :: text ++ Bytes.crlf) (.integer value)
  | null {depth : Nat} {text : Bytes} {length : Int} (hlength : SpellsInteger text length)
      (hnegative : length < 0) : Spells depth (36 :: text ++ Bytes.crlf) .null
  | bulk {depth : Nat} {text data : Bytes} (hlength : SpellsInteger text data.length)
      (hmax : data.length ≤ 536870912) :
      Spells depth (36 :: text ++ Bytes.crlf ++ data ++ Bytes.crlf) (.bulk data)
  | empty {depth : Nat} {text : Bytes} {count : Int} (hcount : SpellsInteger text count)
      (hnone : count ≤ 0) : Spells depth (42 :: text ++ Bytes.crlf) (.array [])
  | array {depth : Nat} {text : Bytes} {parts : List (Bytes × Reply)}
      (hcount : SpellsInteger text parts.length) (hsome : parts ≠ []) (hdepth : depth < 128)
      (hparts : ∀ part ∈ parts, Spells (depth + 1) part.1 part.2) :
      Spells depth (42 :: text ++ Bytes.crlf ++ parts.flatMap Prod.fst)
        (.array (parts.map Prod.snd))

-- An integer is all digits, so the line it stands in has no line end inside.
theorem SpellsInteger.unbroken {text : Bytes} {value : Int} (h : SpellsInteger text value)
    {kind : UInt8} (hkind : kind ≠ Bytes.cr) : ¬ Bytes.crlf <:+: kind :: text := by
  intro hinfix
  have hcr : Bytes.cr ∈ kind :: text := hinfix.subset (by decide)
  rcases List.mem_cons.1 hcr with hhead | htail
  · exact hkind hhead.symm
  · exact h.cr_notMem htail

/-- A byte in front that is no CR begins no line end. -/
theorem Bytes.unbroken_cons {text : Bytes} {kind : UInt8} (hkind : kind ≠ cr) :
    ¬ crlf <:+: kind :: text ↔ ¬ crlf <:+: text := by
  rw [crlf_infix_cons, not_or]
  exact and_iff_right fun hstart => hkind hstart.1

/-- Spellings one after another, `count` of them, inside `depth` arrays. -/
def SpellsAll (depth count : Nat) (used : Bytes) (items : List Reply) : Prop :=
  ∃ parts : List (Bytes × Reply), parts.length = count ∧
    (∀ part ∈ parts, Spells depth part.1 part.2) ∧
    used = parts.flatMap Prod.fst ∧ items = parts.map Prod.snd

/-- One more element in front makes one more element. -/
theorem SpellsAll.cons {depth count : Nat} {used more : Bytes} {value : Reply}
    {items : List Reply} (h : Spells depth used value) (hmore : SpellsAll depth count more items) :
    SpellsAll depth (count + 1) (used ++ more) (value :: items) := by
  rcases hmore with ⟨parts, hlength, hparts, hused, hitems⟩
  refine ⟨(used, value) :: parts, congrArg (· + 1) hlength,
    List.forall_mem_cons.2 ⟨h, hparts⟩, ?_, ?_⟩
  · rw [List.flatMap_cons, hused]
  · rw [List.map_cons, hitems]

/-- Of at least one element there is a first, and there are others. -/
theorem SpellsAll.exists_cons {depth count : Nat} {used : Bytes} {items : List Reply}
    (h : SpellsAll depth (count + 1) used items) :
    ∃ front more value others, used = front ++ more ∧ items = value :: others ∧
      Spells depth front value ∧ SpellsAll depth count more others := by
  rcases h with ⟨parts, hlength, hparts, hused, hitems⟩
  rcases parts with _ | ⟨⟨front, value⟩, parts⟩
  · exact absurd hlength (Nat.succ_ne_zero count).symm
  · rw [List.forall_mem_cons] at hparts
    exact ⟨front, parts.flatMap Prod.fst, value, parts.map Prod.snd, hused, hitems, hparts.1,
      parts, Nat.succ.inj hlength, hparts.2, rfl, rfl⟩

namespace Reply

/-- To read some elements is to read that many spellings in a row. -/
theorem accepts_readMany {readItem : Reader Reply} {depth : Nat}
    (hitem : readItem.Accepts (Spells depth)) (count : Nat) :
    ∀ done, Reader.Accepts (readMany readItem count done) fun used items =>
      ∃ others, items = done.reverse ++ others ∧ SpellsAll depth count used others := by
  induction count with
  | zero =>
      intro done input items rest
      rw [readMany, Progress.complete.injEq, Prod.mk.injEq]
      constructor
      · rintro ⟨rfl, rfl⟩
        exact ⟨[], rfl, [], (List.append_nil _).symm, [], rfl,
          fun part hpart => absurd hpart List.not_mem_nil, rfl, rfl⟩
      · -- Without elements no bytes are taken.
        rintro ⟨used, hinput, others, hitems, parts, hlength, _, hused, hothers⟩
        rw [List.eq_nil_of_length_eq_zero hlength] at hused hothers
        rw [hinput, hitems, hused, hothers]
        exact ⟨(List.append_nil _).symm, rfl⟩
  | succ count ih =>
      intro done input items rest
      rw [readMany_succ, Reader.bind_eq_complete_iff]
      constructor
      · rintro ⟨value, middle, hfirst, hothers⟩
        rcases (hitem _ _ _).1 hfirst with ⟨used, rfl, hused⟩
        rcases (ih _ _ _ _).1 hothers with ⟨more, rfl, others, hitems, hmore⟩
        refine ⟨used ++ more, (List.append_assoc used more rest).symm, value :: others, ?_,
          .cons hused hmore⟩
        rw [hitems, List.reverse_cons, List.append_assoc]
        rfl
      · rintro ⟨used, rfl, others, hitems, hused⟩
        rcases hused.exists_cons with ⟨front, more, value, later, rfl, rfl, hfront, hmore⟩
        refine ⟨value, more ++ rest,
          (hitem _ _ _).2 ⟨front, List.append_assoc front more rest, hfront⟩, ?_⟩
        refine (ih _ _ _ _).2 ⟨more, rfl, later, ?_, hmore⟩
        rw [hitems, List.reverse_cons, List.append_assoc]
        rfl

section Element

variable {readItems : Nat → Reader (List Reply)} {depth : Nat}
  (hitems : ∀ count, count ≠ 0 → (readItems count).Accepts fun used items =>
    depth < 128 ∧ SpellsAll (depth + 1) count used items)

include hitems

-- Nothing outside the grammar is read, if this holds of the elements.
theorem spells_of_readElement {input rest : Bytes} {value : Reply}
    (h : readElement readItems input = .complete (value, rest)) :
    ∃ used, input = used ++ rest ∧ Spells depth used value := by
  rw [readElement_eq] at h
  rcases Reader.bind_eq_complete h with ⟨found, middle, hheader, hbody⟩
  rcases (Reader.accepts_header _ _ _).1 hheader with ⟨used, rfl, line, rfl, hunbroken, hline⟩
  -- The header decides the rule of the grammar.
  cases hline with
  | simple text =>
      rcases Reader.pure_eq_complete_iff.1 hbody with ⟨rfl, rfl⟩
      exact ⟨_, rfl, .simple ((Bytes.unbroken_cons (by decide)).1 hunbroken)⟩
  | error text =>
      rcases Reader.pure_eq_complete_iff.1 hbody with ⟨rfl, rfl⟩
      exact ⟨_, rfl, .error ((Bytes.unbroken_cons (by decide)).1 hunbroken)⟩
  | integer hvalue =>
      rcases Reader.pure_eq_complete_iff.1 hbody with ⟨rfl, rfl⟩
      exact ⟨_, rfl, .integer hvalue⟩
  | null hlength hnegative =>
      rcases Reader.pure_eq_complete_iff.1 hbody with ⟨rfl, rfl⟩
      exact ⟨_, rfl, .null hlength hnegative⟩
  | bulk hlength hmax =>
      rcases Reader.bind_eq_complete_iff.1 hbody with ⟨data, after, hdata, hvalue⟩
      rcases takeBulk_eq_complete_iff.1 hdata with ⟨rfl, rfl⟩
      rcases Reader.pure_eq_complete_iff.1 hvalue with ⟨rfl, rfl⟩
      exact ⟨_, by simp only [List.append_assoc], .bulk hlength hmax⟩
  | @array text count hcount =>
      rw [body] at hbody
      by_cases hzero : count.toNat = 0
      · rw [if_pos hzero] at hbody
        rcases Reader.pure_eq_complete_iff.1 hbody with ⟨rfl, rfl⟩
        exact ⟨_, rfl, .empty hcount (by omega)⟩
      · rw [if_neg hzero] at hbody
        rcases Reader.bind_eq_complete_iff.1 hbody with ⟨items, after, hread, hvalue⟩
        rcases Reader.pure_eq_complete_iff.1 hvalue with ⟨rfl, rfl⟩
        rcases (hitems _ hzero _ _ _).1 hread with
          ⟨used, rfl, hdepth, parts, hlength, hparts, rfl, rfl⟩
        have hnat : (parts.length : Int) = count := by omega
        refine ⟨_, (List.append_assoc _ _ _).symm, .array ?_ ?_ hdepth hparts⟩
        · rw [hnat]
          exact hcount
        · rintro rfl
          exact hzero hlength.symm

-- Everything in the grammar is read, if this holds of the elements.
theorem readElement_of_spells {used : Bytes} {value : Reply} (h : Spells depth used value)
    (rest : Bytes) : readElement readItems (used ++ rest) = .complete (value, rest) := by
  rw [readElement_eq, Reader.bind_eq_complete_iff]
  -- Each rule has its own header.
  cases h with
  | simple htext =>
      exact ⟨_, rest, Reader.header_of_announced (.simple _)
        ((Bytes.unbroken_cons (by decide)).2 htext) rest, rfl⟩
  | error htext =>
      exact ⟨_, rest, Reader.header_of_announced (.error _)
        ((Bytes.unbroken_cons (by decide)).2 htext) rest, rfl⟩
  | integer hvalue =>
      exact ⟨_, rest, Reader.header_of_announced (.integer hvalue)
        (hvalue.unbroken (by decide)) rest, rfl⟩
  | null hlength hnegative =>
      exact ⟨_, rest, Reader.header_of_announced (.null hlength hnegative)
        (hlength.unbroken (by decide)) rest, rfl⟩
  | @bulk _ text data hlength hmax =>
      have hheader := Reader.header_of_announced (.bulk hlength hmax) (hlength.unbroken (by decide))
        (data ++ Bytes.crlf ++ rest)
      rw [← List.append_assoc, ← List.append_assoc] at hheader
      exact ⟨_, _, hheader, Reader.bind_eq_complete_iff.2
        ⟨data, rest, takeBulk_eq_complete_iff.2 ⟨rfl, rfl⟩, rfl⟩⟩
  | @empty _ text count hcount hnone =>
      refine ⟨_, rest, Reader.header_of_announced (.array hcount)
        (hcount.unbroken (by decide)) rest, ?_⟩
      rw [body, if_pos (by omega)]
      rfl
  | @array _ text parts hcount hsome hdepth hparts =>
      have hheader := Reader.header_of_announced (.array hcount) (hcount.unbroken (by decide))
        (parts.flatMap Prod.fst ++ rest)
      rw [← List.append_assoc] at hheader
      have hzero : (parts.length : Int).toNat ≠ 0 := by
        rw [Int.toNat_natCast]
        exact fun hlength => hsome (List.eq_nil_of_length_eq_zero hlength)
      refine ⟨_, _, hheader, ?_⟩
      rw [body, if_neg hzero]
      exact Reader.bind_eq_complete_iff.2 ⟨parts.map Prod.snd, rest,
        (hitems _ hzero _ _ _).2 ⟨_, rfl, hdepth, parts, rfl, hparts, rfl, rfl⟩, rfl⟩

/-- An element is read just if the grammar has it, when this holds of the
    elements within. -/
theorem accepts_readElement : Reader.Accepts (readElement readItems) (Spells depth) := by
  intro input value rest
  constructor
  · exact spells_of_readElement hitems
  · rintro ⟨used, rfl, hspells⟩
    exact readElement_of_spells hitems hspells rest

end Element

/-- What is read is what is spelled. The induction is on the levels that are
    left, and the depth is what has been used up of them. -/
theorem accepts_read (levels : Nat) :
    ∀ depth, depth + levels = maxNesting → Reader.Accepts (read levels) (Spells depth) := by
  induction levels with
  | zero =>
      intro depth h
      rw [read]
      refine accepts_readElement fun count _ input items rest => ?_
      constructor
      · -- At the last level the reader refuses all elements, as does the
        -- grammar at the greatest depth.
        intro hread
        exact absurd hread (by simp only [reduceCtorEq, not_false_eq_true])
      · rintro ⟨used, _, hdepth, _⟩
        unfold maxNesting at h
        omega
  | succ levels ih =>
      intro depth h
      rw [read]
      refine accepts_readElement fun count _ input items rest => ?_
      have hmany := accepts_readMany (ih (depth + 1) (by omega)) count []
      rw [hmany input items rest]
      constructor
      · rintro ⟨used, hinput, others, rfl, hothers⟩
        refine ⟨used, hinput, ?_, hothers⟩
        unfold maxNesting at h
        omega
      · rintro ⟨used, hinput, _, hitems⟩
        exact ⟨used, hinput, items, rfl, hitems⟩

/-- All of the bytes are one value just if the grammar says so. -/
theorem read_eq_complete_iff_spells {used : Bytes} {value : Reply} :
    read maxNesting used = .complete (value, []) ↔ Spells 0 used value := by
  rw [accepts_read maxNesting 0 (Nat.zero_add maxNesting) used value []]
  simp only [List.append_nil, exists_eq_left']

/-- What spells a reply is decoded as it, whatever follows. -/
theorem decode_of_spells {used : Bytes} {value : Reply} (h : Spells 0 used value)
    (rest : Bytes) : decode (used ++ rest) = .complete (value, used.length) :=
  decode_eq_complete_iff.2 ⟨used, rest, rfl, rfl, read_eq_complete_iff_spells.2 h⟩

/-- The decoder accepts exactly the grammar. It finds a reply in the first
    bytes of a buffer if and only if these bytes spell that reply, inside no
    array, whatever follows them. -/
theorem decode_eq_complete_iff_spells (buffer : Bytes) (value : Reply) (length : Nat) :
    decode buffer = .complete (value, length) ↔
      length ≤ buffer.length ∧ Spells 0 (buffer.take length) value := by
  rw [decode_eq_complete_iff]
  constructor
  · rintro ⟨used, rest, rfl, rfl, hused⟩
    rw [List.take_left, List.length_append]
    exact ⟨Nat.le_add_right _ _, read_eq_complete_iff_spells.1 hused⟩
  · rintro ⟨hlength, hspells⟩
    exact ⟨buffer.take length, buffer.drop length, (List.take_append_drop length buffer).symm,
      List.length_take_of_le hlength, read_eq_complete_iff_spells.2 hspells⟩

end Reply

end RespBus
