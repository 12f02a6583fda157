import Mathlib
import RespBus.Command.Payload
import RespBus.Proofs.Reply.Grammar
import RespBus.Proofs.Scanner.Decoder

/-!
# Command Pipelines

Commands are written one after another with nothing between them, and a peer
has to tell from the bytes alone where one ends and the next begins. It can:
a command is an array of bulk strings, every count stands in front of what it
counts, and a reader that knows the count never looks for a delimiter in the
data. So an argument may hold line ends, or the bytes of another command, and
is read as the argument it is.

A `Call` is a command with its arguments, and `Call.payload_append_inj` says
that a payload at the front of some bytes settles the call and what follows.
It holds whatever the size of the arguments. Reading a payload back as a reply
is another matter, since replies are read with bounds; `Call.Fits` has them,
and within them a payload is in the grammar of replies, which is all that is
needed to decode it with the rest of the input general. Everything about
pipelines is an induction from there.

## Main definitions

* `consume`: What is found at the front, then at the front of what follows.
* `Reply.decodeAll`: All replies a buffer starts with.
* `Call`: A command with its arguments.
* `Call.words`: The verb and the arguments.
* `Call.reply`: The array of bulk strings that a call is read as.
* `Call.pipeline`: Calls written one after another.
* `Call.Fits`: The bounds within which a call can be read.

## Theorems

* `Bytes.ofText_eq_toUTF8`: The bytes of a text are its UTF-8 encoding.
* `Bytes.splitLine_counted`: A count is read from the line it stands in.
* `Call.payload_append_inj`: A payload settles the call and what follows it.
* `Call.spells_payload`: A payload spells the words it was made of.
* `Call.decode_payload`: A payload is read as its words, and no further.
* `Call.decodeAll_pipeline`: A pipeline is read as its calls, and reading goes
  on after it.
* `Call.decodeAll_cut`: A payload that is cut short is not read.
* `Call.decode_pipeline`: Pipelines decode back exactly.
-/

namespace RespBus

namespace Bytes

/-- The bytes of a text are those of its UTF-8 encoding. -/
theorem ofText_eq_toUTF8 (text : String) : ofText text = text.toUTF8.data.toList := by
  have hbytes : (ofText text).toByteArray = text.toByteArray := String.utf8Encode_toList
  rw [String.toUTF8, ← hbytes, List.data_toByteArray]

theorem ofText_injective {first second : String} (h : ofText first = ofText second) :
    first = second := by
  have hbytes : ∀ text, (ofText text).toByteArray = text.toByteArray := fun _ =>
    String.utf8Encode_toList
  rw [← String.toByteArray_inj, ← hbytes first, ← hbytes second, h]

end Bytes

namespace Command

/-- A bulk string is a line with the length, and then the data with its line
    end. -/
theorem bulk_append (data rest : Bytes) :
    bulk data ++ rest =
      36 :: Decimal.toBytes data.length ++ Bytes.crlf ++ (data ++ Bytes.crlf ++ rest) := by
  simp only [bulk, List.append_assoc]

/-- A bulk string is spelled as it is written, inside any arrays. -/
theorem spells_bulk (depth : Nat) {data : Bytes} (h : data.length ≤ maxBulkLength) :
    Spells depth (bulk data) (.bulk data) := by
  have hlimit : data.length ≤ Decimal.limit := Nat.le_trans h (by decide)
  exact .bulk (.toBytes hlimit) h

end Command

-- A count is written in digits, and so no line ends before its own end.
theorem Bytes.splitLine_counted {kind : UInt8} (hkind : kind ≠ cr) (n : Nat) (rest : Bytes) :
    splitLine (kind :: Decimal.toBytes n ++ crlf ++ rest) =
      some (kind :: Decimal.toBytes n, rest) := by
  have hspelled := SpellsInteger.plain (Decimal.toBytes_ne_nil n)
    fun _ => Decimal.isDigit_of_mem_toBytes
  exact splitLine_of_unbroken (hspelled.unbroken hkind) rest

/-- What `front` finds at the front of a buffer, then at the front of what
    follows it, and so on `count` times, with what is then left. What is found
    takes `size` bytes. -/
def consume {α : Type} (front : Bytes → Progress α) (size : α → Nat) :
    Nat → Bytes → Progress (List α × Bytes)
  | 0, buffer => .complete ([], buffer)
  | count + 1, buffer => do
    let found ← front buffer
    let (later, rest) ← consume front size count (buffer.drop (size found))
    return (found :: later, rest)

/-- If each item is consumed off the front, then so are all of them in turn. -/
theorem consume_flatMap {α β : Type} {front : Bytes → Progress α} {size : α → Nat}
    {bytes : β → Bytes} {found : β → α} (tail : Bytes) (items : List β)
    (hfront : ∀ item ∈ items, ∀ rest, front (bytes item ++ rest) = .complete (found item))
    (hsize : ∀ item ∈ items, size (found item) = (bytes item).length) :
    consume front size items.length (items.flatMap bytes ++ tail) =
      .complete (items.map found, tail) := by
  induction items with
  | nil => rfl
  | cons item items ih =>
      have hothers := ih (fun other hother => hfront other (List.mem_cons_of_mem _ hother))
        (fun other hother => hsize other (List.mem_cons_of_mem _ hother))
      rw [List.length_cons, List.flatMap_cons, List.append_assoc, consume,
        hfront item List.mem_cons_self]
      change (consume front size items.length _ >>= _) = _
      -- The size found is that of the item's own bytes, so the rest starts with
      -- the next item.
      rw [hsize item List.mem_cons_self, List.drop_left, hothers]
      rfl

namespace Reply

/-- A value takes at least three bytes, so decoding gets on. -/
theorem length_of_decode {buffer : Bytes} {value : Reply} {length : Nat}
    (h : decode buffer = .complete (value, length)) : 3 ≤ length ∧ length ≤ buffer.length :=
  frameLength_complete (frameLength_eq_complete_iff_decode.2 ⟨value, h⟩)

/-- The replies a buffer starts with, and what is left of it when it starts
    with no further reply. -/
def decodeAll (buffer : Bytes) : List Reply × Bytes :=
  match h : decode buffer with
  | .complete (value, length) =>
    -- A reply is never empty, so what follows it is shorter.
    have := length_of_decode h
    let later := decodeAll (buffer.drop length)
    (value :: later.1, later.2)
  | _ => ([], buffer)
termination_by buffer.length

/-- All that is decoded is the first value and what is decoded behind it. -/
theorem decodeAll_of_complete {buffer : Bytes} {value : Reply} {length : Nat}
    (h : decode buffer = .complete (value, length)) :
    decodeAll buffer =
      (value :: (decodeAll (buffer.drop length)).1, (decodeAll (buffer.drop length)).2) := by
  rw [decodeAll]
  split
  · rename_i heq
    rw [h, Progress.complete.injEq, Prod.mk.injEq] at heq
    simp only [heq.1, heq.2]
  · rename_i hother
    exact absurd h (hother value length)

theorem decodeAll_nil : decodeAll [] = ([], []) := by
  rw [decodeAll]
  rfl

end Reply

/-- A command with its arguments. -/
structure Call where
  command : Command
  args : List Bytes
  deriving DecidableEq

namespace Call

/-- The verb and the arguments. -/
def words (call : Call) : List Bytes :=
  Bytes.ofText call.command.verb :: call.args

/-- The bytes that issue the call. -/
def payload (call : Call) : Bytes :=
  call.command.payload call.args

/-- The array of bulk strings that the call is read as. -/
def reply (call : Call) : Reply :=
  .array (call.words.map .bulk)

/-- Calls written one after another. -/
def pipeline (calls : List Call) : Bytes :=
  calls.flatMap payload

/-- The bounds within which a call can be read: of the bytes of an argument,
    and of the count that stands in front of the words. -/
structure Fits (call : Call) : Prop where
  args : ∀ arg ∈ call.args, arg.length ≤ maxBulkLength
  count : call.args.length < Decimal.limit

/-- A payload is a line with the count, and then the words. -/
theorem payload_append (call : Call) (rest : Bytes) :
    call.payload ++ rest =
      42 :: Decimal.toBytes call.words.length ++ Bytes.crlf ++
        (call.words.flatMap Command.bulk ++ rest) := by
  simp only [payload, Command.payload, words, List.length_cons, List.flatMap_cons,
    List.append_assoc]

-- The length in front of the data says where the data ends, so two bulk
-- strings at the front of the same bytes are the same.
theorem bulk_append_inj {first second x y : Bytes}
    (h : Command.bulk first ++ x = Command.bulk second ++ y) : first = second ∧ x = y := by
  have hline : ∀ data rest, Bytes.splitLine (Command.bulk data ++ rest) =
      some (36 :: Decimal.toBytes data.length, data ++ Bytes.crlf ++ rest) := by
    intro data rest
    rw [Command.bulk_append]
    exact Bytes.splitLine_counted (by decide) data.length _
  have hlines := congrArg Bytes.splitLine h
  rw [hline, hline, Option.some.injEq, Prod.mk.injEq, List.cons.injEq] at hlines
  rcases hlines with ⟨⟨_, hdigits⟩, hrest⟩
  rw [List.append_assoc, List.append_assoc] at hrest
  rcases List.append_inj hrest (Decimal.toBytes_injective hdigits) with ⟨hdata, hafter⟩
  exact ⟨hdata, List.append_cancel_left hafter⟩

/-- Bulk strings at the front of the same bytes are the same, one by one. -/
theorem bulks_append_inj {x y : Bytes} (first : List Bytes) :
    ∀ second : List Bytes, first.length = second.length →
      first.flatMap Command.bulk ++ x = second.flatMap Command.bulk ++ y →
      first = second ∧ x = y := by
  induction first with
  | nil =>
      intro second hlength h
      rw [List.eq_nil_of_length_eq_zero hlength.symm] at h ⊢
      exact ⟨rfl, h⟩
  | cons word words ih =>
      intro second hlength h
      rcases second with _ | ⟨other, others⟩
      · exact absurd hlength (Nat.succ_ne_zero words.length)
      · rw [List.flatMap_cons, List.flatMap_cons, List.append_assoc, List.append_assoc] at h
        -- The first word is the same on both sides, and the induction does the
        -- others.
        rcases bulk_append_inj h with ⟨hword, hrest⟩
        rcases ih others (Nat.succ.inj hlength) hrest with ⟨hwords, hafter⟩
        exact ⟨by rw [hword, hwords], hafter⟩

/-- A call is known by its words. -/
theorem words_injective {first second : Call} (h : first.words = second.words) :
    first = second := by
  unfold words at h
  rw [List.cons.injEq] at h
  have hcommand := Command.verb_injective (Bytes.ofText_injective h.1)
  cases first
  cases second
  simp only at hcommand h
  rw [hcommand, h.2]

/-- A payload at the front of some bytes settles the call and what follows. -/
theorem payload_append_inj {first second : Call} {x y : Bytes}
    (h : first.payload ++ x = second.payload ++ y) : first = second ∧ x = y := by
  have hline : ∀ (call : Call) rest, Bytes.splitLine (call.payload ++ rest) =
      some (42 :: Decimal.toBytes call.words.length,
        call.words.flatMap Command.bulk ++ rest) := by
    intro call rest
    rw [payload_append]
    exact Bytes.splitLine_counted (by decide) call.words.length _
  have hlines := congrArg Bytes.splitLine h
  rw [hline, hline, Option.some.injEq, Prod.mk.injEq, List.cons.injEq] at hlines
  rcases hlines with ⟨⟨_, hdigits⟩, hrest⟩
  rcases bulks_append_inj _ _ (Decimal.toBytes_injective hdigits) hrest with ⟨hwords, hafter⟩
  exact ⟨words_injective hwords, hafter⟩

theorem payload_ne_nil (call : Call) : call.payload ≠ [] := by
  unfold payload Command.payload
  exact List.cons_ne_nil _ _

/-- What is written first was called first. -/
theorem pipeline_prefix {second : List Call} (first : List Call)
    (h : pipeline first <+: pipeline second) : first <+: second := by
  induction first generalizing second with
  | nil => exact List.nil_prefix
  | cons call calls ih =>
      rcases h with ⟨more, hmore⟩
      unfold pipeline at hmore
      rw [List.flatMap_cons, List.append_assoc] at hmore
      -- A payload has some bytes, so there is a call for it in the second list
      -- as well.
      rcases second with _ | ⟨other, others⟩
      · exact absurd (List.append_eq_nil_iff.1 hmore).1 call.payload_ne_nil
      · rw [List.flatMap_cons] at hmore
        rcases payload_append_inj hmore with ⟨hcall, hrest⟩
        rw [hcall]
        exact (List.prefix_cons_inj other).2 (ih ⟨more, hrest⟩)

/-- Calls are known by their payloads put together. -/
theorem pipeline_injective {first second : List Call} (h : pipeline first = pipeline second) :
    first = second := by
  have hfirst := pipeline_prefix first ⟨[], (List.append_nil _).trans h⟩
  have hsecond := pipeline_prefix second ⟨[], (List.append_nil _).trans h.symm⟩
  exact hfirst.eq_of_length_le hsecond.length_le

-- Every verb is short, so the bounds on the arguments are bounds on the words.
theorem Fits.words {call : Call} (h : call.Fits) :
    ∀ word ∈ call.words, word.length ≤ maxBulkLength := by
  intro word hword
  rcases List.mem_cons.1 hword with rfl | harg
  · cases call.command <;> cbv
  · exact h.args word harg

/-- The words of the call, each as it is written and as it is read. -/
def parts (call : Call) : List (Bytes × Reply) :=
  call.words.map fun word => (Command.bulk word, .bulk word)

/-- A payload spells the words it was made of. -/
theorem spells_payload {call : Call} (h : call.Fits) : Spells 0 call.payload call.reply := by
  have hbytes : call.payload =
      42 :: Decimal.toBytes call.words.length ++ Bytes.crlf ++ call.parts.flatMap Prod.fst := by
    have hpayload := payload_append call []
    rw [List.append_nil, List.append_nil] at hpayload
    rw [hpayload, parts, List.flatMap_map]
  have hreply : call.reply = .array (call.parts.map Prod.snd) := by
    rw [reply, parts, List.map_map]
    rfl
  have hlength : call.parts.length = call.words.length := by
    rw [parts, List.length_map]
  rw [hbytes, hreply]
  -- The words are the elements of one array, and the verb is always among them.
  refine .array ?_ (List.cons_ne_nil _ _) (by decide) ?_
  · rw [hlength]
    exact .toBytes h.count
  · intro part hpart
    rcases List.mem_map.1 hpart with ⟨word, hword, rfl⟩
    exact Command.spells_bulk 1 (h.words word hword)

/-- A payload is read as the words it was made of, and no further. -/
theorem decode_payload {call : Call} (h : call.Fits) (rest : Bytes) :
    Reply.decode (call.payload ++ rest) = .complete (call.reply, call.payload.length) :=
  Reply.decode_of_spells (spells_payload h) rest

/-- The length found for a payload in front is its own. -/
theorem frameLength_payload {call : Call} (h : call.Fits) (rest : Bytes) :
    frameLength (call.payload ++ rest) = .complete call.payload.length :=
  frameLength_eq_complete_iff_decode.2 ⟨call.reply, decode_payload h rest⟩

/-- The payloads of calls in a row are decoded one by one, and then whatever
    follows. -/
theorem decodeAll_pipeline (tail : Bytes) (calls : List Call) (h : ∀ call ∈ calls, call.Fits) :
    Reply.decodeAll (pipeline calls ++ tail) =
      (calls.map reply ++ (Reply.decodeAll tail).1, (Reply.decodeAll tail).2) := by
  induction calls with
  | nil => rfl
  | cons call calls ih =>
      have hothers := ih fun other hother => h other (List.mem_cons_of_mem _ hother)
      unfold pipeline at hothers ⊢
      rw [List.flatMap_cons, List.append_assoc,
        Reply.decodeAll_of_complete (decode_payload (h call List.mem_cons_self) _),
        List.drop_left, hothers]
      rfl

/-- A payload that is cut short is not read at all. -/
theorem decodeAll_cut {call : Call} (h : call.Fits) {part : Bytes}
    (hfront : part <+: call.payload) (hcut : part ≠ call.payload) :
    Reply.decodeAll part = ([], part) := by
  have hshorter : part.length < call.payload.length :=
    Nat.lt_of_le_of_ne hfront.length_le fun heq => hcut (hfront.eq_of_length heq)
  have hwhole := decode_payload h []
  rw [List.append_nil] at hwhole
  have hpart := Reply.decode_take_of_lt hwhole hshorter
  rw [← List.prefix_iff_eq_take.1 hfront] at hpart
  rw [Reply.decodeAll]
  split
  · rename_i hcomplete
    rw [hpart] at hcomplete
    exact absurd hcomplete (by simp only [reduceCtorEq, not_false_eq_true])
  · rfl

/-- Pipelines decode back exactly. Reading as many replies as there are calls
    gives the words of each call, takes for each just the bytes that were
    written, and ends where the pipeline ends; and measuring them gives the
    same ends. A pipeline is the front of another only if its calls are the
    front of the other's, so no argument makes up for a call. Arguments that
    are texts are read as their UTF-8 bytes. -/
theorem decode_pipeline (calls : List Call) (tail : Bytes) (h : ∀ call ∈ calls, call.Fits) :
    consume Reply.decode Prod.snd calls.length (pipeline calls ++ tail) =
        .complete (calls.map fun call => (call.reply, call.payload.length), tail) ∧
      consume frameLength id calls.length (pipeline calls ++ tail) =
        .complete (calls.map fun call => call.payload.length, tail) ∧
      (∀ others, pipeline calls <+: pipeline others → calls <+: others) ∧
      (∀ first second : Call, first.payload <+: second.payload → first = second) ∧
      ∀ (command : Command) (texts : List String), texts.length < Decimal.limit →
        (∀ text ∈ texts, text.utf8ByteSize ≤ maxBulkLength) →
        Reply.decode (command.textPayload texts ++ tail) =
          .complete
            (.array (.bulk command.verb.toUTF8.data.toList ::
              texts.map fun text => .bulk text.toUTF8.data.toList),
            (command.textPayload texts).length) := by
  refine ⟨?_, ?_, ?_, ?_, ?_⟩
  · exact consume_flatMap tail calls (fun call hcall => decode_payload (h call hcall))
      fun call _ => rfl
  · exact consume_flatMap tail calls (fun call hcall => frameLength_payload (h call hcall))
      fun call _ => rfl
  · intro others hprefix
    exact pipeline_prefix calls hprefix
  · intro first second hprefix
    rcases hprefix with ⟨more, hmore⟩
    rw [← List.append_nil second.payload] at hmore
    exact (payload_append_inj hmore).1
  · intro command texts hcount hsizes
    have hfits : (Call.mk command (texts.map Bytes.ofText)).Fits := by
      refine ⟨?_, by rw [List.length_map]; exact hcount⟩
      intro arg harg
      rcases List.mem_map.1 harg with ⟨text, htext, rfl⟩
      rw [Bytes.ofText_eq_toUTF8]
      exact hsizes text htext
    have hdecode := decode_payload hfits tail
    rw [reply, words, List.map_cons, List.map_map] at hdecode
    simp only [Function.comp_def, Bytes.ofText_eq_toUTF8] at hdecode
    exact hdecode

/-- A command whose argument spells another command, and one without
    arguments. -/
def nestedCalls : List Call :=
  [⟨.rPush, [Bytes.ofText "q", Bytes.ofText "*1\r\n$4\r\nPING\r\n"]⟩, ⟨.ping, []⟩]

theorem decode_pipeline_nested :
    consume frameLength id 2 (pipeline nestedCalls ++ Bytes.ofText "+OK") =
        .complete ([43, 14], Bytes.ofText "+OK") ∧
      Reply.decode (Command.set.textPayload ["café"] ++ Bytes.ofText "+OK") =
        .complete (.array [.bulk "SET".toUTF8.data.toList, .bulk "café".toUTF8.data.toList], 24) := by
  -- The bounds are far away, so their checks are only evaluated.
  have hfits : ∀ call ∈ nestedCalls, call.Fits := by
    intro call hcall
    simp only [nestedCalls, List.mem_cons, List.not_mem_nil, or_false] at hcall
    rcases hcall with rfl | rfl
    · refine ⟨fun arg harg => ?_, by cbv⟩
      simp only [List.mem_cons, List.not_mem_nil, or_false] at harg
      rcases harg with rfl | rfl <;> cbv
    · exact ⟨fun arg harg => absurd harg List.not_mem_nil, by cbv⟩
  have hlengths : nestedCalls.map (fun call => call.payload.length) = [43, 14] := by cbv
  have htext : ∀ text ∈ ["café"], text.utf8ByteSize ≤ maxBulkLength := by
    intro text htext
    rw [List.mem_singleton.1 htext]
    cbv
  have hlength : (Command.set.textPayload ["café"]).length = 24 := by cbv
  rcases decode_pipeline nestedCalls (Bytes.ofText "+OK") hfits with ⟨_, hmeasured, _, _, htexts⟩
  have hdecoded := htexts .set ["café"] (by cbv) htext
  rw [hlengths] at hmeasured
  rw [hlength] at hdecoded
  exact ⟨hmeasured, hdecoded⟩

end Call

end RespBus
