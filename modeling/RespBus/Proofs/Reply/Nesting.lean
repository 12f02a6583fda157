import RespBus.Proofs.Reply.Grammar
import RespBus.Proofs.Framer.Replies

/-!
# Nesting

Replies nest, and how deep they may do so is limited. What the limit counts is
open arrays: an array opens when its header announces elements, and it is open
until it has the last of them. So 128 arrays may be around an element, and no
array that has elements may be one of those elements. An empty array never
opens. It is finished with its header, and may stand inside 128 others. A value
can therefore be one array deeper than the limit, and not more.

There are two ways to say what is nested too deeply. One is about replies. A
reader with more levels to spend reads some replies that the decoder does not;
`read_of_read_more` says that it reads the others just as the decoder does, and
that the decoder finds fault with those that nest too deeply, and with nothing
else in them. The induction is on the levels of the narrower reader. The other
is about bytes, which need not be all of a reply: `Overfull` are those with
which an array opens that is one too many. They are at fault as soon as the
header of that array is complete, and this fault has no other cause.

## Main definitions

* `Reply.nesting`: The most arrays around anything in a reply, with a choice of
  what an empty array counts for.
* `Overfull`: Bytes with which one array too many opens.
* `Reply.tower`: Arrays one inside another around an empty one.

## Theorems

* `Reply.nesting_one_le`: Counting empty arrays too makes one more at most.
* `Reply.read_of_read_more`: With fewer levels, what nests deeper is at fault.
* `Reply.read_eq_tooDeep_iff`: The fault has one cause.
* `Reply.nesting_capped`: What nests too deeply is at fault, and nothing else.
* `Reply.nesting_exceeded`: A value that is one array deeper than the limit.
-/

namespace RespBus

mutual

/-- The most arrays around anything in a reply, itself included, where an
    empty array counts for `empty`. -/
def Reply.nesting (empty : Nat) : Reply → Nat
  | .array [] => empty
  | .array (item :: items) => max (item.nesting empty) (Reply.nestingAll empty items) + 1
  | _ => 0

/-- The most arrays around anything in one of the replies. -/
def Reply.nestingAll (empty : Nat) : List Reply → Nat
  | [] => 0
  | item :: items => max (item.nesting empty) (Reply.nestingAll empty items)

end

namespace Reply

/-- An array nests one deeper than the deepest of its elements. -/
theorem nesting_array {items : List Reply} (h : items ≠ []) (empty : Nat) :
    (array items).nesting empty = nestingAll empty items + 1 := by
  cases items with
  | nil => exact absurd rfl h
  | cons item items => rw [nesting, nestingAll]

mutual

/-- Counting empty arrays too makes one more at most, since nothing is inside
    an empty array. -/
theorem nesting_one_le : ∀ value : Reply, value.nesting 1 ≤ value.nesting 0 + 1
  | .array [] => Nat.le_refl 1
  | .array (item :: items) => by
      have hitem := nesting_one_le item
      have hitems := nestingAll_one_le items
      rw [nesting, nesting]
      omega
  | .simple _ | .error _ | .integer _ | .null | .bulk _ => Nat.zero_le _

/-- For a list of values it makes a difference of one at most whether empty
    arrays count. -/
theorem nestingAll_one_le : ∀ items : List Reply, nestingAll 1 items ≤ nestingAll 0 items + 1
  | [] => Nat.zero_le _
  | item :: items => by
      have hitem := nesting_one_le item
      have hitems := nestingAll_one_le items
      rw [nestingAll, nestingAll]
      omega

end

-- A header that opens no array decides by itself what is read after it.
theorem body_of_unopened {readItems : Nat → Reader (List Reply)} {header : Header}
    (hunopened : ∀ count, header = .array count → count = 0) {input rest : Bytes} {value : Reply}
    (h : body readItems header input = .complete (value, rest)) :
    value.nesting 0 = 0 ∧ ∀ others, body others header = body readItems header := by
  cases header with
  | array count =>
      rw [body, if_pos (hunopened count rfl)] at h
      rcases Reader.pure_eq_complete_iff.1 h with ⟨rfl, _⟩
      refine ⟨rfl, fun others => ?_⟩
      rw [body, body, if_pos (hunopened count rfl), if_pos (hunopened count rfl)]
  | bulk length =>
      rcases Reader.bind_eq_complete h with ⟨data, middle, _, hvalue⟩
      rcases Reader.pure_eq_complete_iff.1 hvalue with ⟨rfl, _⟩
      exact ⟨rfl, fun _ => rfl⟩
  | _ =>
      rcases Reader.pure_eq_complete_iff.1 h with ⟨rfl, _⟩
      exact ⟨rfl, fun _ => rfl⟩

/-- Whoever reads at least one element has one. -/
theorem ne_nil_of_readMany {readItem : Reader Reply} {count : Nat} (hcount : count ≠ 0) :
    ∀ {done input items rest}, readMany readItem count done input = .complete (items, rest) →
      items ≠ [] := by
  induction count with
  | zero => exact absurd rfl hcount
  | succ count ih =>
      intro done input items rest h
      rw [readMany_succ] at h
      rcases Reader.bind_eq_complete h with ⟨item, middle, _, hothers⟩
      by_cases hlast : count = 0
      · rw [hlast, readMany, Progress.complete.injEq, Prod.mk.injEq] at hothers
        rw [← hothers.1, List.reverse_cons]
        exact List.append_ne_nil_of_right_ne_nil _ (List.cons_ne_nil item [])
      · exact ih hlast hothers

/-- What was read, if it nests no deeper than a limit, and a fault if it
    does. -/
def limited {α : Type} (nesting limit : Nat) (read : α × Bytes) : Progress (α × Bytes) :=
  if nesting ≤ limit then .complete read else .invalid .nestedTooDeeply

section Narrow

variable {narrow wide : Reader Reply} {limit : Nat}
  (hitem : ∀ {input value rest}, wide input = .complete (value, rest) →
    narrow input = limited (value.nesting 0) limit (value, rest))

include hitem

-- Elements are read one after another up to the first that nests too deeply.
theorem readMany_of_wide (count : Nat) :
    ∀ {done input items rest}, readMany wide count done input = .complete (items, rest) →
      ∃ others, items = done.reverse ++ others ∧
        readMany narrow count done input = limited (nestingAll 0 others) limit (items, rest) := by
  induction count with
  | zero =>
      intro done input items rest h
      refine ⟨[], ?_, h⟩
      rw [readMany, Progress.complete.injEq, Prod.mk.injEq] at h
      rw [List.append_nil, h.1]
  | succ count ih =>
      intro done input items rest h
      rw [readMany_succ] at h ⊢
      rcases Reader.bind_eq_complete h with ⟨item, middle, hfirst, hothers⟩
      rcases ih hothers with ⟨others, hitems, hmany⟩
      refine ⟨item :: others, ?_, ?_⟩
      · rw [hitems, List.reverse_cons, List.append_assoc]
        rfl
      · have hread := hitem hfirst
        unfold limited at hread hmany ⊢
        rw [nestingAll]
        -- The narrow reader stops at the first element that is too deep, and
        -- the largest depth is then too large as well.
        by_cases hdeep : item.nesting 0 ≤ limit
        · rw [if_pos hdeep] at hread
          rw [Reader.bind_of_complete hread, hmany]
          simp only [Nat.max_le, hdeep, true_and]
        · rw [if_neg hdeep] at hread
          rw [Reader.bind_of_invalid hread, if_neg (by omega)]

end Narrow

section Element

variable {narrowItems wideItems : Nat → Reader (List Reply)} {limit : Nat}
  (hitems : ∀ count, count ≠ 0 → ∀ {input items rest},
    wideItems count input = .complete (items, rest) →
      items ≠ [] ∧ narrowItems count input = limited (nestingAll 0 items + 1) limit (items, rest))

include hitems

/-- With less room an element is read just as far as its nesting allows. -/
theorem readElement_of_wide {input rest : Bytes} {value : Reply}
    (h : readElement wideItems input = .complete (value, rest)) :
    readElement narrowItems input = limited (value.nesting 0) limit (value, rest) := by
  rw [readElement_eq] at h ⊢
  rcases Reader.bind_eq_complete h with ⟨found, middle, hheader, hbody⟩
  rw [Reader.bind_of_complete hheader]
  by_cases harray : ∃ count, found = .array count ∧ count ≠ 0
  · rcases harray with ⟨count, rfl, hcount⟩
    rw [body, if_neg hcount] at hbody ⊢
    rcases Reader.bind_eq_complete hbody with ⟨items, after, hread, hvalue⟩
    rcases Reader.pure_eq_complete_iff.1 hvalue with ⟨rfl, rfl⟩
    rcases hitems count hcount hread with ⟨hsome, hnarrow⟩
    unfold limited at hnarrow ⊢
    rw [nesting_array hsome]
    by_cases hdeep : nestingAll 0 items + 1 ≤ limit
    · rw [if_pos hdeep] at hnarrow ⊢
      rw [Reader.bind_of_complete hnarrow]
      rfl
    · rw [if_neg hdeep] at hnarrow ⊢
      exact Reader.bind_of_invalid hnarrow
  · -- Nothing opens, so both readers do the same.
    rcases body_of_unopened (fun count hfound => by_contra fun hcount =>
      harray ⟨count, hfound, hcount⟩) hbody with ⟨hflat, hsame⟩
    rw [hsame narrowItems, hbody, limited, hflat, if_pos (Nat.zero_le limit)]

end Element

/-- With fewer levels to spend the same is read, but what nests deeper is at
    fault. The induction is on the levels of the reader that has fewer. -/
theorem read_of_read_more (levels : Nat) :
    ∀ {more input value rest}, levels ≤ more → read more input = .complete (value, rest) →
      read levels input = limited (value.nesting 0) levels (value, rest) := by
  induction levels with
  | zero =>
      intro more input value rest _ h
      cases more with
      | zero =>
          refine readElement_of_wide (fun count _ input items rest hread => ?_) h
          exact absurd hread (by simp only [reduceCtorEq, not_false_eq_true])
      | succ more =>
          refine readElement_of_wide (fun count hcount input items rest hread => ⟨?_, ?_⟩) h
          · exact ne_nil_of_readMany hcount hread
          · -- Without a level left no element is read at all.
            rw [limited, if_neg (Nat.not_succ_le_zero _)]
  | succ levels ih =>
      intro more input value rest hmore h
      cases more with
      | zero => exact absurd hmore (Nat.not_succ_le_zero levels)
      | succ more =>
          refine readElement_of_wide (fun count hcount input items rest hread => ⟨?_, ?_⟩) h
          · exact ne_nil_of_readMany hcount hread
          · -- One level down both readers have one level less.
            rcases readMany_of_wide (ih (Nat.le_of_succ_le_succ hmore)) count hread with
              ⟨others, rfl, hnarrow⟩
            simp only [hnarrow, limited, Nat.add_le_add_iff_right]

end Reply

/-- Bytes inside `depth` open arrays with which one array too many opens. It
    announces elements and 128 arrays are open, or it is an element of an
    array that opens and lacks it, behind any number of others. -/
inductive Overfull : Nat → Bytes → Prop where
  | opening {depth : Nat} {text : Bytes} {count : Int} (hcount : SpellsInteger text count)
      (hsome : 0 < count) (hdepth : 128 ≤ depth) : Overfull depth (42 :: text ++ Bytes.crlf)
  | element {depth : Nat} {text inner : Bytes} {count : Int} {parts : List (Bytes × Reply)}
      (hcount : SpellsInteger text count) (hlacking : parts.length < count) (hdepth : depth < 128)
      (hparts : ∀ part ∈ parts, Spells (depth + 1) part.1 part.2)
      (hinner : Overfull (depth + 1) inner) :
      Overfull depth (42 :: text ++ Bytes.crlf ++ parts.flatMap Prod.fst ++ inner)

/-- Bytes of fewer than `count` elements, and then those with which one array
    too many opens. -/
def OverfullItems (depth count : Nat) (used : Bytes) : Prop :=
  ∃ (parts : List (Bytes × Reply)) (inner : Bytes), parts.length < count ∧
    (∀ part ∈ parts, Spells depth part.1 part.2) ∧ Overfull depth inner ∧
    used = parts.flatMap Prod.fst ++ inner

theorem readInteger_ne_tooDeep (text : Bytes) : readInteger text ≠ .error .nestedTooDeeply := by
  intro h
  exact absurd (mem_integerFaults h) (by decide)

theorem Header.ofLine_ne_tooDeep (line : Bytes) : ofLine line ≠ .error .nestedTooDeeply := by
  rcases line with _ | ⟨kind, text⟩
  · simp only [ofLine, ne_eq, Except.error.injEq, reduceCtorEq, not_false_eq_true]
  · have hinteger := readInteger_ne_tooDeep text
    rw [ofLine, ofBulkLength, ofArrayCount]
    rcases hread : readInteger text with fault | value
    · rw [hread, ne_eq, Except.error.injEq] at hinteger
      simp only [Except.map]
      split_ifs <;> simp only [ne_eq, Except.error.injEq, reduceCtorEq, hinteger,
        not_false_eq_true]
    · simp only [Except.map]
      split_ifs <;> simp only [ne_eq, Except.error.injEq, reduceCtorEq, not_false_eq_true]

/-- To read a header is never refused for nesting. -/
theorem Reader.header_ne_tooDeep (input : Bytes) :
    Reader.header input ≠ .invalid .nestedTooDeeply := by
  rw [Reader.header_apply]
  split
  · simp only [ne_eq, reduceCtorEq, not_false_eq_true]
  · rename_i line rest _
    have hline := Header.ofLine_ne_tooDeep line
    split
    · rename_i fault hfault
      rw [hfault, ne_eq, Except.error.injEq] at hline
      rw [ne_eq, Progress.invalid.injEq]
      exact hline
    · simp only [ne_eq, reduceCtorEq, not_false_eq_true]

theorem Reader.pure_ne_invalid {α : Type} (value : α) (input : Bytes) (fault : Fault) :
    (pure value : Reader α) input ≠ .invalid fault := by
  change Progress.complete (value, input) ≠ _
  simp only [ne_eq, reduceCtorEq, not_false_eq_true]

theorem takeBulk_ne_tooDeep (length : Nat) (input : Bytes) :
    takeBulk length input ≠ .invalid .nestedTooDeeply := by
  unfold takeBulk
  split
  · split
    · simp only [ne_eq, reduceCtorEq, not_false_eq_true]
    · simp only [ne_eq, Progress.invalid.injEq, reduceCtorEq, not_false_eq_true]
  · simp only [ne_eq, reduceCtorEq, not_false_eq_true]

namespace Reply

/-- Only an array with elements is refused for nesting. -/
theorem body_ne_tooDeep {readItems : Nat → Reader (List Reply)} {header : Header}
    (hunopened : ∀ count, header = .array count → count = 0) (input : Bytes) :
    body readItems header input ≠ .invalid .nestedTooDeeply := by
  cases header with
  | array count =>
      rw [body, if_pos (hunopened count rfl)]
      exact Reader.pure_ne_invalid _ _ _
  | bulk length =>
      intro h
      rcases Reader.bind_eq_invalid h with hdata | ⟨data, middle, _, hvalue⟩
      · exact takeBulk_ne_tooDeep length input hdata
      · exact Reader.pure_ne_invalid _ _ _ hvalue
  | _ => exact Reader.pure_ne_invalid _ _ _

/-- A counted run is at fault if one of its elements is and the others before
    it are read. -/
theorem readMany_eq_tooDeep_iff {readItem : Reader Reply} {depth : Nat}
    (hitem : readItem.Accepts (Spells depth))
    (hdeep : ∀ input, readItem input = .invalid .nestedTooDeeply ↔
      ∃ used rest, input = used ++ rest ∧ Overfull depth used) (count : Nat) :
    ∀ done input, readMany readItem count done input = .invalid .nestedTooDeeply ↔
      ∃ used rest, input = used ++ rest ∧ OverfullItems depth count used := by
  induction count with
  | zero =>
      intro done input
      constructor
      · intro h
        exact absurd h (by simp only [readMany, reduceCtorEq, not_false_eq_true])
      · rintro ⟨_, _, _, parts, _, hnone, _⟩
        exact absurd hnone (Nat.not_lt_zero _)
  | succ count ih =>
      intro done input
      rw [readMany_succ]
      constructor
      · intro h
        rcases Reader.bind_eq_invalid h with hfirst | ⟨item, middle, hfirst, hothers⟩
        · -- The first element is the one at fault.
          rcases (hdeep input).1 hfirst with ⟨used, rest, hinput, hused⟩
          refine ⟨used, rest, hinput, [], used, Nat.succ_pos count, ?_, hused, rfl⟩
          exact fun part hpart => absurd hpart List.not_mem_nil
        · -- The first element is read, and the one at fault is among the
          -- others.
          rcases (hitem _ _ _).1 hfirst with ⟨front, rfl, hfront⟩
          rcases (ih _ _).1 hothers with ⟨_, rest, rfl, parts, inner, hcount, hparts, hinner, rfl⟩
          refine ⟨front ++ (parts.flatMap Prod.fst ++ inner), rest,
            (List.append_assoc _ _ _).symm, (front, item) :: parts, inner,
            Nat.succ_lt_succ hcount, List.forall_mem_cons.2 ⟨hfront, hparts⟩, hinner, ?_⟩
          rw [List.flatMap_cons, List.append_assoc]
      · rintro ⟨_, rest, rfl, parts, inner, hcount, hparts, hinner, rfl⟩
        rcases parts with _ | ⟨⟨front, item⟩, parts⟩
        · exact Reader.bind_of_invalid ((hdeep _).2 ⟨inner, rest, rfl, hinner⟩)
        · rw [List.forall_mem_cons] at hparts
          rw [List.flatMap_cons, List.append_assoc, List.append_assoc]
          rw [Reader.bind_of_complete ((hitem _ _ _).2 ⟨front, rfl, hparts.1⟩)]
          refine (ih _ _).2 ⟨_, rest, (List.append_assoc _ _ _).symm, parts, inner,
            Nat.lt_of_succ_lt_succ hcount, hparts.2, hinner, rfl⟩

section Refused

variable {readItems : Nat → Reader (List Reply)} {depth : Nat}
  (hitems : ∀ count, count ≠ 0 → ∀ input, readItems count input = .invalid .nestedTooDeeply ↔
    128 ≤ depth ∨ depth < 128 ∧
      ∃ used rest, input = used ++ rest ∧ OverfullItems (depth + 1) count used)

include hitems

/-- What is refused for nesting opens too many arrays, in its header or in one
    of its elements. -/
theorem overfull_of_readElement {input : Bytes}
    (h : readElement readItems input = .invalid .nestedTooDeeply) :
    ∃ used rest, input = used ++ rest ∧ Overfull depth used := by
  rw [readElement_eq] at h
  rcases Reader.bind_eq_invalid h with hheader | ⟨found, middle, hheader, hbody⟩
  · exact absurd hheader (Reader.header_ne_tooDeep input)
  · rcases (Reader.accepts_header _ _ _).1 hheader with ⟨_, rfl, line, rfl, _, hline⟩
    -- Only a header that opens an array can be where it goes too deep.
    by_cases hopened : ∀ count, found = .array count → count = 0
    · exact absurd hbody (body_ne_tooDeep hopened middle)
    · cases hline with
      | @array text count hcount =>
          have hzero : count.toNat ≠ 0 :=
            fun hzero => hopened fun _ hfound => Header.array.inj hfound ▸ hzero
          rw [body, if_neg hzero] at hbody
          rcases Reader.bind_eq_invalid hbody with hread | ⟨items, after, _, hvalue⟩
          · rcases (hitems _ hzero _).1 hread with
              hdepth | ⟨hdepth, _, rest, rfl, parts, inner, hlacking, hparts, hinner, rfl⟩
            · exact ⟨_, middle, rfl, .opening hcount (by omega) hdepth⟩
            · refine ⟨_, rest, ?_, .element hcount (by omega) hdepth hparts hinner⟩
              simp only [List.append_assoc]
          · exact absurd hvalue (Reader.pure_ne_invalid _ _ _)
      | _ => exact absurd (fun _ hfound => Header.noConfusion hfound) hopened

/-- What opens too many arrays is refused for nesting, whatever follows. -/
theorem readElement_of_overfull {used : Bytes} (h : Overfull depth used) (rest : Bytes) :
    readElement readItems (used ++ rest) = .invalid .nestedTooDeeply := by
  rw [readElement_eq]
  -- It is the array itself that is one too many, or something in one of its
  -- elements.
  cases h with
  | @opening _ text count hcount hsome hdepth =>
      have hzero : count.toNat ≠ 0 := by omega
      rw [Reader.bind_of_complete (Reader.header_of_announced (.array hcount)
        (hcount.unbroken (by decide)) rest), body, if_neg hzero]
      exact Reader.bind_of_invalid ((hitems _ hzero _).2 (.inl hdepth))
  | @element _ text inner count parts hcount hlacking hdepth hparts hinner =>
      have hzero : count.toNat ≠ 0 := by omega
      have hheader := Reader.header_of_announced (.array hcount) (hcount.unbroken (by decide))
        (parts.flatMap Prod.fst ++ inner ++ rest)
      simp only [List.append_assoc] at hheader ⊢
      rw [Reader.bind_of_complete hheader, body, if_neg hzero]
      refine Reader.bind_of_invalid ((hitems _ hzero _).2 (.inr ⟨hdepth, _, rest, ?_, parts, inner,
        by omega, hparts, hinner, rfl⟩))
      rw [List.append_assoc]

/-- An element is refused for nesting just if it opens too many arrays. -/
theorem readElement_eq_tooDeep_iff (input : Bytes) :
    readElement readItems input = .invalid .nestedTooDeeply ↔
      ∃ used rest, input = used ++ rest ∧ Overfull depth used := by
  constructor
  · exact overfull_of_readElement hitems
  · rintro ⟨used, rest, rfl, hused⟩
    exact readElement_of_overfull hitems hused rest

end Refused

/-- The fault has one cause. With as many levels left as the depth leaves, it is
    found if and only if an array too many opens at the front of the input. -/
theorem read_eq_tooDeep_iff (levels : Nat) :
    ∀ depth, depth + levels = maxNesting → ∀ input,
      read levels input = .invalid .nestedTooDeeply ↔
        ∃ used rest, input = used ++ rest ∧ Overfull depth used := by
  unfold maxNesting
  induction levels with
  | zero =>
      intro depth h
      refine readElement_eq_tooDeep_iff fun count _ input => ?_
      -- At the last level every array with elements is one too many.
      exact iff_of_true rfl (.inl (by omega))
  | succ levels ih =>
      intro depth h
      refine readElement_eq_tooDeep_iff fun count _ input => ?_
      rw [readMany_eq_tooDeep_iff (accepts_read levels (depth + 1) (by unfold maxNesting; omega))
        (ih (depth + 1) (by omega))]
      constructor
      · exact fun hused => .inr ⟨by omega, hused⟩
      · rintro (hlow | ⟨_, hused⟩)
        · omega
        · exact hused

/-- A buffer is refused for nesting just if it starts with too many open arrays. -/
theorem decode_eq_tooDeep_iff (buffer : Bytes) :
    decode buffer = .invalid .nestedTooDeeply ↔
      ∃ used rest, buffer = used ++ rest ∧ Overfull 0 used := by
  rw [decode_eq_invalid_iff, read_eq_tooDeep_iff maxNesting 0 (Nat.zero_add maxNesting)]

/-- A reply that nests too deeply for the decoder, however many levels it takes
    to read it, is one it finds this fault with. -/
theorem decode_of_read {levels : Nat} {buffer rest : Bytes} {value : Reply}
    (h : read levels buffer = .complete (value, rest)) (hdeep : maxNesting < value.nesting 0) :
    decode buffer = .invalid .nestedTooDeeply := by
  rcases Nat.le_total levels maxNesting with hfew | hmany
  · -- It was read with the levels that there were.
    have hread := read_of_read_more levels (Nat.le_refl levels) h
    rw [h, limited, if_neg (by omega)] at hread
    exact absurd hread (by simp only [reduceCtorEq, not_false_eq_true])
  · rw [decode_eq_invalid_iff, read_of_read_more maxNesting hmany h, limited, if_neg (by omega)]

/-- Nothing that is decoded nests deeper than the limit, empty arrays aside. -/
theorem nesting_le_of_decode {buffer : Bytes} {value : Reply} {length : Nat}
    (h : decode buffer = .complete (value, length)) : value.nesting 0 ≤ maxNesting := by
  by_contra hdeep
  -- A value too deep to be read alone is too deep in the buffer.
  rcases decode_eq_complete_iff.1 h with ⟨used, rest, rfl, _, hread⟩
  have hfault := decode_append_invalid (decode_of_read hread (by omega)) rest
  rw [h] at hfault
  exact absurd hfault (by simp only [reduceCtorEq, not_false_eq_true])

/-- What nests too deeply is at fault, and nothing else is for that reason. In
    a value that is decoded at most 128 arrays are around one another that have
    elements, and at most 129 if an empty array is inside them. What a reader
    with any number of levels to spend takes for a reply with more of these is
    at fault for the decoder and for the scanner. They find this fault in a
    buffer if and only if it starts with bytes with which one array too many
    opens, whatever follows. -/
theorem nesting_capped (buffer : Bytes) :
    (∀ value length, decode buffer = .complete (value, length) →
        value.nesting 0 ≤ 128 ∧ value.nesting 1 ≤ 129) ∧
      (∀ levels value rest, read levels buffer = .complete (value, rest) →
        128 < value.nesting 0 →
        decode buffer = .invalid .nestedTooDeeply ∧
          frameLength buffer = .invalid .nestedTooDeeply) ∧
      (decode buffer = .invalid .nestedTooDeeply ↔
        ∃ used rest, buffer = used ++ rest ∧ Overfull 0 used) ∧
      (frameLength buffer = .invalid .nestedTooDeeply ↔
        ∃ used rest, buffer = used ++ rest ∧ Overfull 0 used) := by
  refine ⟨fun value length h => ?_, fun levels value rest h hdeep => ?_,
    decode_eq_tooDeep_iff buffer,
    frameLength_eq_invalid_iff_decode.trans (decode_eq_tooDeep_iff buffer)⟩
  · have hnesting := nesting_le_of_decode h
    -- An empty array at the greatest depth is the one level more.
    have hempty := value.nesting_one_le
    unfold maxNesting at hnesting
    omega
  · have hfault := decode_of_read h hdeep
    exact ⟨hfault, frameLength_eq_invalid_iff_decode.2 hfault⟩

/-- Arrays one inside another, an empty one inside all of them. -/
def tower : Nat → Reply
  | 0 => .array []
  | height + 1 => .array [tower height]

/-- The bytes of a tower. -/
def towerBytes (height : Nat) : Bytes :=
  (List.replicate height (Bytes.ofText "*1\r\n")).flatten ++ Bytes.ofText "*0\r\n"

/-- The nesting of a tower is its height, and one more if the empty array at its
    foot counts. -/
theorem nesting_tower (empty height : Nat) : (tower height).nesting empty = height + empty := by
  induction height with
  | zero => rw [tower, nesting, Nat.zero_add]
  | succ height ih =>
      rw [tower, nesting, nestingAll, ih]
      omega

/-- A tower is read with as many levels as it is high. -/
theorem read_tower (height : Nat) :
    ∀ {levels}, height ≤ levels → ∀ rest,
      read levels (towerBytes height ++ rest) = .complete (tower height, rest) := by
  induction height with
  | zero =>
      intro levels _ rest
      cases levels <;> rfl
  | succ height ih =>
      intro levels h rest
      rcases levels with _ | levels
      · exact absurd h (Nat.not_succ_le_zero height)
      · -- A tower is an array with a lower tower as its one element.
        have hbytes : towerBytes (height + 1) ++ rest =
            Bytes.ofText "*1\r\n" ++ (towerBytes height ++ rest) := by
          rw [towerBytes, towerBytes, List.replicate_succ, List.flatten_cons]
          simp only [List.append_assoc]
        have hitem := ih (Nat.le_of_succ_le_succ h) rest
        rw [hbytes]
        change (readMany (read levels) 1 [] (towerBytes height ++ rest)).map _ = _
        rw [readMany, hitem]
        rfl

/-- Every floor of a tower is written in four bytes. -/
theorem length_towerBytes (height : Nat) : (towerBytes height).length = 4 * height + 4 := by
  have hopening : (Bytes.ofText "*1\r\n").length = 4 := rfl
  have hempty : (Bytes.ofText "*0\r\n").length = 4 := rfl
  rw [towerBytes, List.length_append, List.length_flatten, List.map_replicate, hopening, hempty,
    List.sum_replicate, smul_eq_mul]
  omega

/-- A tower within the limit is decoded. -/
theorem decode_tower {height : Nat} (h : height ≤ maxNesting) :
    decode (towerBytes height) = .complete (tower height, 4 * height + 4) := by
  have hread := read_tower height h []
  rw [List.append_nil] at hread
  rw [decode, hread]
  simp only [Progress.map, length_towerBytes, List.length_nil, Nat.sub_zero]

/-- A value that is one array deeper than the limit: 128 arrays one inside
    another and an empty one inside them. -/
theorem nesting_exceeded :
    ∃ value, decode (towerBytes 128) = .complete (value, 516) ∧ value.nesting 1 = 129 ∧
      frameLength (towerBytes 128) = .complete 516 := by
  have hdecode := decode_tower (Nat.le_refl maxNesting)
  exact ⟨tower 128, hdecode, nesting_tower 1 128,
    frameLength_eq_complete_iff_decode.2 ⟨tower 128, hdecode⟩⟩

/-- The next tower takes one level more to read, and is at fault. -/
theorem nesting_capped_tower :
    (tower 128).nesting 0 ≤ 128 ∧ (tower 128).nesting 1 ≤ 129 ∧
      decode (towerBytes 129) = .invalid .nestedTooDeeply ∧
      frameLength (towerBytes 129) = .invalid .nestedTooDeeply := by
  have hnesting := (nesting_capped (towerBytes 128)).1 _ _ (decode_tower (Nat.le_refl maxNesting))
  have hread := read_tower 129 (Nat.le_refl 129) []
  rw [List.append_nil] at hread
  have hdeep : 128 < (tower 129).nesting 0 := by
    rw [nesting_tower]
    decide
  exact ⟨hnesting.1, hnesting.2, (nesting_capped (towerBytes 129)).2.1 129 _ [] hread hdeep⟩

end Reply

end RespBus
