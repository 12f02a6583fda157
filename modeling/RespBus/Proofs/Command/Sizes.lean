import RespBus.Command.Payload
import RespBus.Proofs.Buffers
import RespBus.Proofs.Checked
import RespBus.Proofs.Decimal

/-!
# The Size of a Payload

A payload is written into a buffer that was reserved for it, and reserving it
means knowing its size before anything is written. Two loops see to that. One
counts the digits of each number as long as there are ten or more, the other
puts them into a buffer of twenty bytes as long as there is anything left, last
digit first, and takes them out from behind. Nothing ties the two together but
the number, and if they disagreed the payload would outgrow its buffer.

Here both are written with checked operations. A size that is no word has no
result, nor has a byte beyond the end of a buffer, nor a buffer larger than
there can be. So the writer has a result just if the payload fits the room it
was given, and it takes all of that room just if the size was computed right.
`Writes` is what makes this compositional: the writer of one part after another
is a writer of both, whatever the room.

The sizes need no bound. A sum of words is either the sum or not a word, and
once a part is none, the whole is none. The numbers that are written do need
one, since there is space for twenty digits only; no word has more.

## Main definitions

* `Checked.word`: A number, if it is a word.
* `Checked.countDigits`, `Checked.bulkSize`, `Checked.payloadSize`: Sizes.
* `Checked.append`: More bytes in a buffer, if there is room.
* `Checked.putDigits`, `Checked.putBack`, `Checked.writeNumber`: Digits.
* `Checked.writeBulk`, `Checked.writePayload`: The parts of a payload.
* `Checked.encode`: A payload in a buffer of the computed size.
* `Checked.Writes`: A writer puts certain bytes behind what is there.

## Theorems

* `Checked.word_bind`: A part that is no word leaves no whole.
* `Checked.payloadSize_eq`: The computed size is the size, if it is a word.
* `Checked.Writes.comp`, `Checked.Writes.each`: Writers after one another.
* `Checked.writes_number`: A number is written in digits.
* `Checked.writes_bulk`: A bulk string is written.
* `Checked.writePayload_eq`: A payload is written, if there is room.
* `Command.length_payload`: The size of a payload.
* `Command.payload_fills_room`: A payload takes the room computed for it.
-/

namespace RespBus

namespace Checked

section Sizes

/-- A number, if it is a word. -/
def word (range n : Nat) : Option Nat :=
  if n < range then some n else none

/-- Counts the digits of a number, onto those already counted. -/
def countDigits (range value digits : Nat) : Option Nat :=
  if 10 ≤ value then do countDigits range (value / 10) (← add range digits 1) else some digits
termination_by value

/-- The size of a bulk string whose data has `length` bytes. -/
def bulkSize (range length : Nat) : Option Nat := do
  let size ← add range 1 (← countDigits range length 1)
  let size ← add range size 2
  let size ← add range size length
  add range size 2

/-- The size of a payload. -/
def payloadSize (range : Nat) (verb : Bytes) (args : List Bytes) : Option Nat := do
  let count ← add range args.length 1
  let header ← add range 1 (← countDigits range count 1)
  let header ← add range header 2
  let front ← add range header (← bulkSize range verb.length)
  let rest ← args.foldlM (fun sum arg => do add range sum (← bulkSize range arg.length)) 0
  add range front rest

variable {range : Nat}

theorem word_of_lt {n : Nat} (h : n < range) : word range n = some n :=
  if_pos h

theorem add_eq_word (a b : Nat) : add range a b = word range (a + b) := rfl

/-- A part that is no word leaves no whole. -/
theorem word_bind {part whole : Nat} {rest : Nat → Option Nat} (hle : part ≤ whole)
    (h : part < range → rest part = word range whole) :
    (word range part).bind rest = word range whole := by
  by_cases hpart : part < range
  · rw [word_of_lt hpart, Option.bind_some, h hpart]
  · rw [word, if_neg hpart, word, if_neg (by omega)]
    rfl

/-- Counting by division gives the number of digits, as long as the count is a
    word. -/
theorem countDigits_eq : ∀ {value digits : Nat}, digits < range →
    countDigits range value digits = word range (digits + (Decimal.width value - 1)) := by
  intro value
  induction value using Nat.strongRecOn with
  | ind value ih =>
      intro digits hdigits
      rw [countDigits]
      -- The induction is on the value, which loses its last digit in each
      -- round.
      by_cases hten : 10 ≤ value
      · have hrest := Decimal.one_le_width (value / 10)
        have hwidth := Decimal.width_of_le hten
        rw [if_pos hten, Option.bind_eq_bind, add_eq_word]
        refine word_bind (by omega) fun hone => ?_
        rw [ih (value / 10) (by omega) hone]
        exact congrArg (word range) (by omega)
      · rw [if_neg hten, Decimal.width_of_lt (by omega), word_of_lt (by omega)]
        rfl

/-- Started at one, the count is the number of digits. -/
theorem countDigits_one (hrange : 1 < range) (value : Nat) :
    countDigits range value 1 = word range (Decimal.width value) := by
  have hone := Decimal.one_le_width value
  rw [countDigits_eq hrange]
  exact congrArg (word range) (by omega)

/-- The size of a bulk string is added up right, or it overflows. -/
theorem bulkSize_eq (hrange : 1 < range) (length : Nat) :
    bulkSize range length = word range (Command.bulkSize length) := by
  unfold bulkSize Command.bulkSize
  simp only [Option.bind_eq_bind, countDigits_one hrange, add_eq_word]
  refine word_bind (by omega) fun _ => word_bind (by omega) fun _ =>
    word_bind (by omega) fun _ => word_bind (by omega) fun _ => ?_
  rfl

/-- The sizes of the arguments are added up right, or they overflow. -/
theorem bulkSizes_eq (hrange : 1 < range) (args : List Bytes) :
    ∀ {sum : Nat}, sum < range →
      args.foldlM (fun sum arg => do add range sum (← bulkSize range arg.length)) sum =
        word range (sum + (args.map fun arg => Command.bulkSize arg.length).foldr Nat.add 0) := by
  induction args with
  | nil => exact fun hsum => (word_of_lt hsum).symm
  | cons arg args ih =>
      intro sum hsum
      rw [List.foldlM_cons, bulkSize_eq hrange]
      simp only [Option.bind_eq_bind, List.map_cons, List.foldr_cons, Nat.add_eq]
      rw [Option.bind_assoc]
      -- A part that is out of range makes the whole so, since sizes only grow.
      refine word_bind (by omega) fun _ => word_bind (by omega) fun hnext => ?_
      exact (ih hnext).trans (congrArg (word range) (Nat.add_assoc _ _ _))

/-- There are no more arguments than bytes that they take. -/
theorem length_le_bulkSizes (args : List Bytes) :
    args.length ≤ (args.map fun arg => Command.bulkSize arg.length).foldr Nat.add 0 := by
  induction args with
  | nil => exact Nat.le_refl 0
  | cons arg args ih =>
      have hbulk : 1 ≤ Command.bulkSize arg.length := by
        unfold Command.bulkSize
        omega
      simp only [List.length_cons, List.map_cons, List.foldr_cons, Nat.add_eq]
      omega

/-- The computed size is the size, if it is a word. -/
theorem payloadSize_eq (hrange : 1 < range) (verb : Bytes) (args : List Bytes) :
    payloadSize range verb args = word range (Command.payloadSize verb args) := by
  have hcount := length_le_bulkSizes args
  have hbulks := bulkSizes_eq hrange args (Nat.lt_trans Nat.zero_lt_one hrange)
  unfold payloadSize Command.payloadSize
  rw [hbulks]
  simp only [Option.bind_eq_bind, countDigits_one hrange, bulkSize_eq hrange, add_eq_word,
    Nat.zero_add]
  refine word_bind (by omega) fun _ => word_bind (by omega) fun _ =>
    word_bind (by omega) fun _ => word_bind (by omega) fun _ => word_bind (by omega) fun _ =>
    word_bind (by omega) fun _ => word_bind (by omega) fun _ => ?_
  rfl

end Sizes

section Writers

/-- Puts more bytes behind those in a buffer, if there is room for them. -/
def append (room : Nat) (out more : Bytes) : Option Bytes :=
  if out.length + more.length ≤ room then some (out ++ more) else none

/-- Replaces a byte of a buffer. -/
def put (buffer : Bytes) (index : Nat) (b : UInt8) : Option Bytes :=
  if index < buffer.length then some (buffer.set index b) else none

/-- Puts the digits of a number into a buffer, last digit first, until nothing
    is left of the number. -/
def putDigits (range value : Nat) (buffer : Bytes) (length : Nat) : Option (Bytes × Nat) :=
  if 0 < value then do
    let digit ← add 256 48 (value % 10)
    let buffer ← put buffer length (UInt8.ofNat digit)
    putDigits range (value / 10) buffer (← add range length 1)
  else some (buffer, length)
termination_by value

/-- Writes the first bytes of a buffer, from the last of them to the first. -/
def putBack (room : Nat) (buffer : Bytes) : Nat → Bytes → Option Bytes
  | 0, out => some out
  | length + 1, out => do
    let b ← buffer[length]?
    putBack room buffer length (← append room out [b])

/-- Writes a number in digits, by way of a buffer of twenty bytes. -/
def writeNumber (range room n : Nat) (out : Bytes) : Option Bytes := do
  let buffer : Bytes := List.replicate 20 0
  -- Nothing is left of zero from the start, and still it has a digit.
  if n = 0 then putBack room (← put buffer 0 48) 1 out
  else do
    let (buffer, length) ← putDigits range n buffer 0
    putBack room buffer length out

/-- Writes a bulk string. -/
def writeBulk (range room : Nat) (data out : Bytes) : Option Bytes := do
  let out ← append room out [36]
  let out ← writeNumber range room data.length out
  let out ← append room out Bytes.crlf
  let out ← append room out data
  append room out Bytes.crlf

/-- Writes a command into an empty buffer. -/
def writePayload (range room : Nat) (command : Command) (args : List Bytes) : Option Bytes := do
  let out ← append room [] [42]
  let out ← writeNumber range room (← add range args.length 1) out
  let out ← append room out Bytes.crlf
  let out ← writeBulk range room (Bytes.ofText command.verb) out
  args.foldlM (fun out arg => writeBulk range room arg out) out

/-- Writes a command into a buffer of the size that is computed for it, if that
    buffer can be had. -/
def encode (range : Nat) (command : Command) (args : List Bytes) : Option Bytes := do
  let size ← payloadSize range (Bytes.ofText command.verb) args
  match reserve size with
  | .error _ => none
  | .ok () => writePayload range size command args

/-- A writer puts certain bytes behind those in a buffer, just if there is room
    for them. -/
def Writes (room : Nat) (write : Bytes → Option Bytes) (bytes : Bytes) : Prop :=
  ∀ out, out.length ≤ room → write out = append room out bytes

variable {range room : Nat}

theorem append_of_le {out more : Bytes} (h : out.length + more.length ≤ room) :
    append room out more = some (out ++ more) :=
  if_pos h

/-- To append is to write just these bytes. -/
theorem writes_append (bytes : Bytes) : Writes room (fun out => append room out bytes) bytes :=
  fun _ _ => rfl

theorem writes_nothing : Writes room some [] := by
  intro out hout
  rw [append_of_le hout, List.append_nil]

/-- Two writers after one another put the bytes of both. -/
theorem Writes.comp {first second : Bytes → Option Bytes} {front back : Bytes}
    (hfirst : Writes room first front) (hsecond : Writes room second back) :
    Writes room (fun out => (first out).bind second) (front ++ back) := by
  intro out hout
  change (first out).bind second = _
  rw [hfirst out hout]
  by_cases hroom : out.length + front.length ≤ room
  · have hlength : (out ++ front).length ≤ room := by
      rw [List.length_append]
      exact hroom
    rw [append_of_le hroom, Option.bind_some, hsecond _ hlength, append, append,
      List.append_assoc, List.length_append, List.length_append, Nat.add_assoc]
  · rw [append, if_neg hroom, append, if_neg (by rw [List.length_append]; omega)]
    rfl

/-- A writer for each of a list's members puts the bytes of all. -/
theorem Writes.each {α : Type} {write : α → Bytes → Option Bytes} {bytes : α → Bytes}
    {items : List α} (h : ∀ item ∈ items, Writes room (write item) (bytes item)) :
    Writes room (fun out => items.foldlM (fun out item => write item out) out)
      (items.flatMap bytes) := by
  induction items with
  | nil => exact writes_nothing
  | cons item items ih =>
      have hothers := ih fun other hother => h other (List.mem_cons_of_mem _ hother)
      exact (h item List.mem_cons_self).comp hothers

/-- The byte behind those that are done can be set. -/
theorem put_head (done rest : Bytes) (old b : UInt8) :
    put (done ++ old :: rest) done.length b = some (done ++ b :: rest) := by
  have hindex : done.length < (done ++ old :: rest).length := by
    rw [List.length_append, List.length_cons]
    omega
  rw [put, if_pos hindex, List.set_append_right _ _ (Nat.le_refl _), Nat.sub_self,
    List.set_cons_zero]

theorem putDigits_zero (buffer : Bytes) (length : Nat) :
    putDigits range 0 buffer length = some (buffer, length) := by
  rw [putDigits, if_neg (Nat.lt_irrefl 0)]

-- What is done is kept in reverse, so the next digit stands in front of it.
theorem putDigits_step {value : Nat} (hpos : 0 < value) {done rest : Bytes} {old : UInt8}
    (hrange : done.length + 1 < range) :
    putDigits range value (done.reverse ++ old :: rest) done.length =
      putDigits range (value / 10) ((Decimal.digitByte (value % 10) :: done).reverse ++ rest)
        (Decimal.digitByte (value % 10) :: done).length := by
  have hput := put_head done.reverse rest old (Decimal.digitByte (value % 10))
  rw [List.length_reverse] at hput
  rw [putDigits, if_pos hpos, add_of_lt (by omega)]
  simp only [Option.bind_eq_bind, Option.bind_some]
  rw [← Decimal.digitByte, hput, Option.bind_some, add_of_lt hrange, Option.bind_some,
    List.reverse_cons, List.append_assoc]
  rfl

/-- The digits come to stand behind one another, the last of them in front. The
    induction is on the number, so on the digits that are left. -/
theorem putDigits_eq : ∀ {value : Nat}, 0 < value → ∀ {done free : Bytes},
    Decimal.width value ≤ free.length → done.length + Decimal.width value < range →
      ∃ rest, putDigits range value (done.reverse ++ free) done.length =
        some ((Decimal.toBytes value ++ done).reverse ++ rest,
          (Decimal.toBytes value ++ done).length) := by
  intro value
  induction value using Nat.strongRecOn with
  | ind value ih =>
      intro hpos done free hfree hrange
      have hwidth := Decimal.one_le_width value
      rcases free with _ | ⟨old, free⟩
      · exact absurd hfree (by rw [List.length_nil]; omega)
      · rw [List.length_cons] at hfree
        rw [putDigits_step hpos (by omega)]
        by_cases hten : 10 ≤ value
        · -- The last digit goes in front of those that stand in reverse, and
          -- the other digits follow by induction.
          rw [Decimal.width_of_le hten] at hfree hrange
          rw [Decimal.toBytes_append hten, List.append_assoc]
          refine ih (value / 10) (by omega) (by omega) (by omega) ?_
          rw [List.length_cons]
          omega
        · have hzero : value / 10 = 0 := by omega
          have hdigit : value % 10 = value := by omega
          rw [hzero, hdigit, putDigits_zero, Decimal.toBytes_of_lt (by omega)]
          exact ⟨free, rfl⟩

/-- Digits that stand in reverse are written from the last to the first. -/
theorem putBack_eq (bytes : Bytes) :
    ∀ rest, Writes room (putBack room (bytes.reverse ++ rest) bytes.length) bytes := by
  induction bytes with
  | nil => exact fun rest => writes_nothing
  | cons b bytes ih =>
      intro rest out hout
      have hbuffer : (b :: bytes).reverse ++ rest = bytes.reverse ++ b :: rest := by
        rw [List.reverse_cons, List.append_assoc]
        rfl
      have hindex : (bytes.reverse ++ b :: rest)[bytes.length]? = some b := by
        rw [List.getElem?_append_right (Nat.le_of_eq List.length_reverse), List.length_reverse,
          Nat.sub_self, List.getElem?_cons_zero]
      rw [hbuffer, List.length_cons, putBack, hindex]
      exact (writes_append [b]).comp (ih (b :: rest)) out hout

/-- A number is written in digits, if twenty are enough for it. -/
theorem writes_number {n : Nat} (hn : n < Nat.pow 10 20) (hrange : 20 < range) :
    Writes room (writeNumber range room n) (Decimal.toBytes n) := by
  have hwidth : Decimal.width n ≤ 20 := Decimal.width_le_iff.2 hn
  intro out hout
  rw [writeNumber]
  -- Zero has a digit of its own, which the loop over the others would not
  -- write.
  by_cases hzero : n = 0
  · have hput : put (List.replicate 20 0) 0 48 = some ([48].reverse ++ List.replicate 19 0) := rfl
    simp only [if_pos hzero, hput, Option.bind_eq_bind, Option.bind_some]
    rw [hzero, Decimal.toBytes_of_lt (by omega)]
    exact putBack_eq [48] (List.replicate 19 0) out hout
  · have hfree : Decimal.width n ≤ (List.replicate 20 (0 : UInt8)).length := by
      rw [List.length_replicate]
      exact hwidth
    have hroom : ([] : Bytes).length + Decimal.width n < range := by
      rw [List.length_nil]
      omega
    rcases putDigits_eq (Nat.pos_of_ne_zero hzero) hfree hroom with ⟨rest, hdigits⟩
    rw [List.append_nil] at hdigits
    change putDigits range n (List.replicate 20 0) 0 = _ at hdigits
    simp only [if_neg hzero, hdigits, Option.bind_eq_bind, Option.bind_some]
    exact putBack_eq (Decimal.toBytes n) rest out hout

/-- A bulk string is written. -/
theorem writes_bulk {data : Bytes} (hdata : data.length < Nat.pow 10 20) (hrange : 20 < range) :
    Writes room (writeBulk range room data) (Command.bulk data) := by
  have hlength : Writes room (writeNumber range room data.length) (Decimal.toBytes data.length) :=
    writes_number hdata hrange
  have hwrites := (writes_append [36]).comp (hlength.comp
    ((writes_append Bytes.crlf).comp ((writes_append data).comp (writes_append Bytes.crlf))))
  rw [Command.bulk]
  simp only [List.cons_append, List.append_assoc]
  exact hwrites

end Writers

end Checked

namespace Command

/-- The size that is computed for a bulk string is its length. -/
theorem length_bulk (data : Bytes) : (bulk data).length = bulkSize data.length := by
  simp only [bulk, bulkSize, Bytes.crlf, List.length_append, List.length_cons, List.length_nil,
    Decimal.length_toBytes]
  omega

/-- The sizes of bulk strings add up to their length together. -/
theorem length_bulks (args : List Bytes) :
    (args.flatMap bulk).length = (args.map fun arg => bulkSize arg.length).foldr Nat.add 0 := by
  induction args with
  | nil => rfl
  | cons arg args ih =>
      rw [List.flatMap_cons, List.length_append, length_bulk, ih]
      rfl

/-- The size of a payload. -/
theorem length_payload (command : Command) (args : List Bytes) :
    (command.payload args).length = payloadSize (Bytes.ofText command.verb) args := by
  rw [payload, List.length_append, length_bulks, List.length_append, length_bulk]
  simp only [payloadSize, Bytes.crlf, List.length_append, List.length_cons, List.length_nil,
    Decimal.length_toBytes]
  omega

/-- An argument is no longer than all of them together. -/
theorem le_bulkSizes {args : List Bytes} {arg : Bytes} (h : arg ∈ args) :
    arg.length ≤ (args.map fun arg => bulkSize arg.length).foldr Nat.add 0 := by
  have hself : arg.length ≤ (bulk arg).length := by
    rw [length_bulk, bulkSize]
    omega
  have hsublist : (bulk arg).Sublist (args.flatMap bulk) :=
    List.sublist_flatten_of_mem (List.mem_map_of_mem h)
  rw [← length_bulks]
  exact Nat.le_trans hself hsublist.length_le

end Command

namespace Checked

variable {range room : Nat}

/-- A payload is written, if there is room for it. -/
theorem writePayload_eq {command : Command} {args : List Bytes} (hlow : 20 < range)
    (hhigh : range ≤ Nat.pow 10 20) (hsize : (command.payload args).length < range) :
    writePayload range room command args = append room [] (command.payload args) := by
  -- Every number that is written is at most the size of the payload, so twenty
  -- digits are enough.
  have hcount := length_le_bulkSizes args
  rw [Command.length_payload] at hsize
  have hnumber : args.length + 1 < range := by
    unfold Command.payloadSize at hsize
    omega
  have hverb : (Bytes.ofText command.verb).length < Nat.pow 10 20 := by
    unfold Command.payloadSize Command.bulkSize at hsize
    omega
  have hargs : ∀ arg ∈ args, Writes room (writeBulk range room arg) (Command.bulk arg) := by
    intro arg harg
    have hle := Command.le_bulkSizes harg
    refine writes_bulk ?_ hlow
    unfold Command.payloadSize at hsize
    omega
  have hwritten : Writes room (writeNumber range room (args.length + 1))
      (Decimal.toBytes (args.length + 1)) :=
    writes_number (Nat.lt_of_lt_of_le hnumber hhigh) hlow
  have hwrites := (writes_append [42]).comp (hwritten.comp
    ((writes_append Bytes.crlf).comp ((writes_bulk hverb hlow).comp (Writes.each hargs))))
  have hbytes : command.payload args = [42] ++ (Decimal.toBytes (args.length + 1) ++
      (Bytes.crlf ++ (Command.bulk (Bytes.ofText command.verb) ++ args.flatMap Command.bulk))) := by
    simp only [Command.payload, List.cons_append, List.append_assoc, List.nil_append]
  rw [hbytes, writePayload, add_of_lt hnumber]
  exact hwrites [] (Nat.zero_le room)

/-- A payload is written into a buffer of its size, if that buffer can be had. -/
theorem encode_eq (command : Command) (args : List Bytes) :
    encode wordRange command args =
      if (command.payload args).length ≤ maxBuffer then some (command.payload args) else none := by
  have hlargest : maxBuffer < wordRange := by decide
  rw [encode, payloadSize_eq (by decide), ← Command.length_payload, word]
  by_cases hsize : (command.payload args).length ≤ maxBuffer
  · have hword : (command.payload args).length < wordRange := by omega
    rw [if_pos hword, if_pos hsize, Option.bind_eq_bind, Option.bind_some,
      reserve_eq_ok_iff.2 hsize]
    change writePayload _ _ _ _ = _
    rw [writePayload_eq (by decide) (by decide) hword]
    exact append_of_le (Nat.le_of_eq (Nat.zero_add _))
  · rw [if_neg hsize]
    -- A size that is a word can still be too large for a buffer.
    by_cases hword : (command.payload args).length < wordRange
    · rw [if_pos hword, Option.bind_eq_bind, Option.bind_some]
      rcases hreserve : reserve (command.payload args).length with cause | done
      · rfl
      · exact absurd (reserve_eq_ok_iff.1 hreserve) hsize
    · rw [if_neg hword]
      rfl

end Checked

namespace Command

/-- A payload takes the room computed for it, no more and no less. The size that
    is computed from the lengths is that of the payload, and it is computed just
    if it is a word. A buffer of this size can be had up to the largest there is,
    and the payload is written into it; and where the size is a word, into any
    room that is not smaller, and into no smaller one. A word is written in as many bytes as were counted,
    which are at most the twenty there is space for. They are its digits, the
    most significant first, and the first is zero for zero only. -/
theorem payload_fills_room :
    (∀ (command : Command) (args : List Bytes),
      let payload := command.payload args
      payload.length = payloadSize (Bytes.ofText command.verb) args ∧
      Checked.payloadSize wordRange (Bytes.ofText command.verb) args =
        (if payload.length < wordRange then some payload.length else none) ∧
      Checked.encode wordRange command args =
        (if payload.length ≤ maxBuffer then some payload else none) ∧
      (payload.length < wordRange → ∀ room,
        Checked.writePayload wordRange room command args =
          if payload.length ≤ room then some payload else none)) ∧
    ∀ n, n < wordRange →
      Checked.countDigits wordRange n 1 = some (Decimal.width n) ∧
      (∀ room out, out.length ≤ room → Checked.writeNumber wordRange room n out =
        if out.length + Decimal.width n ≤ room then some (out ++ Decimal.toBytes n) else none) ∧
      (Decimal.toBytes n).length = Decimal.width n ∧ Decimal.width n ≤ 20 ∧
      (∀ b ∈ Decimal.toBytes n, Decimal.isDigit b = true) ∧
      Decimal.value ((Decimal.toBytes n).map fun b => b.toNat - 48) = n ∧
      ((Decimal.toBytes n).head? = some 48 ↔ n = 0) := by
  have hlow : 20 < wordRange := by decide
  have hhigh : wordRange ≤ Nat.pow 10 20 := by decide
  refine ⟨fun command args => ⟨length_payload command args, ?_,
    Checked.encode_eq command args, fun hsize room => ?_⟩, fun n hn => ?_⟩
  · rw [Checked.payloadSize_eq (by decide), ← length_payload, Checked.word]
  · rw [Checked.writePayload_eq hlow hhigh hsize, Checked.append, List.length_nil, Nat.zero_add,
      List.nil_append]
  · have hn' : n < Nat.pow 10 20 := Nat.lt_of_lt_of_le hn hhigh
    have hwidth : Decimal.width n ≤ 20 := Decimal.width_le_iff.2 hn'
    refine ⟨?_, fun room out hout => ?_, Decimal.length_toBytes n, hwidth,
      fun b => Decimal.isDigit_of_mem_toBytes, ?_, Decimal.head?_toBytes n⟩
    · rw [Checked.countDigits_one (by decide), Checked.word_of_lt (by omega)]
    · rw [Checked.writes_number hn' hlow out hout, Checked.append, Decimal.length_toBytes]
    · rw [Decimal.values_toBytes, Decimal.value_digits]

/-- The largest word takes all twenty bytes. -/
theorem payload_fills_room_largest :
    18446744073709551615 < wordRange ∧ Decimal.width 18446744073709551615 = 20 ∧
      Checked.writeNumber wordRange 20 18446744073709551615 [] =
        some (Bytes.ofText "18446744073709551615") ∧
      Checked.writeNumber wordRange 19 18446744073709551615 [] = none := by
  have hword : 18446744073709551615 < wordRange := by decide
  have hwidth : Decimal.width 18446744073709551615 = 20 := by cbv
  have hbytes : Decimal.toBytes 18446744073709551615 = Bytes.ofText "18446744073709551615" := by
    cbv
  rcases payload_fills_room.2 _ hword with ⟨_, hwritten, _⟩
  refine ⟨hword, hwidth, ?_, ?_⟩
  · rw [hwritten 20 [] (by decide), hwidth, hbytes]
    rfl
  · rw [hwritten 19 [] (by decide), hwidth]
    rfl

end Command

end RespBus
