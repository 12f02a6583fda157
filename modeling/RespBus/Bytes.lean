/-!
# Wire Bytes

What travels over a connection is a list of bytes. Everything above this
module reads or writes such lists from the front, so a list is the natural
shape: a reader hands back the bytes it did not use, and a statement about a
reader is an equation between lists.

Lines end in CR LF. `splitLineAfter` looks for the first such pair while it
carries the bytes already passed over. The carried bytes are what lets a
search that ran out of input resume later without looking at them again:
`splitLine` is the search that has passed over nothing yet.

Offsets into the bytes of a buffer are counted in `Nat`. No buffer of a
running program is long enough to make a fixed-width count differ.

## Main definitions

* `Bytes`: A run of bytes, first byte first.
* `Bytes.crlf`: The two bytes that end a line.
* `Bytes.ofText`: The UTF-8 bytes of a text.
* `Bytes.splitLineAfter`: A search for the end of the line, resumed.
* `Bytes.splitLine`: The first line and what follows its terminator.
* `Bytes.pieces`: A run cut into pieces of one size, the last one shorter.

## Theorems

* `Bytes.splitLineAfter_eq`: Resuming a search only changes the line's front.
* `Bytes.splitLine_cons`: The search moves past one byte at a time.
* `Bytes.length_of_splitLineAfter`: A line, its end and the rest are the input.
* `Bytes.flatten_pieces`: Pieces put together again are the input.
* `Bytes.pieces_cons`: Pieces are cut off the front.
* `Bytes.of_mem_pieces`: Only the last piece may be shorter, and none is empty.
-/

namespace RespBus

/-- A run of bytes on a connection, first byte first. -/
abbrev Bytes := List UInt8

namespace Bytes

/-- Carriage return, the first byte of a line's end. -/
def cr : UInt8 := 13

/-- Line feed, the second byte of a line's end. -/
def lf : UInt8 := 10

/-- The two bytes that end a line. -/
def crlf : Bytes := [cr, lf]

/-- The UTF-8 bytes of a text. -/
def ofText (text : String) : Bytes :=
  text.toList.flatMap String.utf8EncodeChar

/-- The line that starts with `passed` (last byte first) and goes on in the
    input, with what follows its terminator; nothing if the input has no
    terminator. A terminator inside `passed` does not count. -/
def splitLineAfter (passed : Bytes) : Bytes → Option (Bytes × Bytes)
  | [] => none
  | b :: rest =>
    if b = cr ∧ rest.head? = some lf then some (passed.reverse, rest.tail)
    else splitLineAfter (b :: passed) rest

/-- The bytes before the first CR LF and the bytes after it. -/
def splitLine (input : Bytes) : Option (Bytes × Bytes) :=
  splitLineAfter [] input

/-- Pieces of `size` bytes, collected last piece first; the fuel is the
    number of bytes, and every piece takes at least one. -/
def piecesOnto (size : Nat) : Nat → List Bytes → Bytes → List Bytes
  | 0, done, _ => done.reverse
  | _ + 1, done, [] => done.reverse
  | fuel + 1, done, input => piecesOnto size fuel (input.take size :: done) (input.drop size)

/-- The input cut into pieces of `size` bytes. Only the last piece may be
    shorter, and no piece is empty. -/
def pieces (size : Nat) (input : Bytes) : List Bytes :=
  piecesOnto size input.length [] input

/-- A search that has passed some bytes finds the line of the others, with these
    bytes in front. -/
theorem splitLineAfter_eq (passed input : Bytes) :
    splitLineAfter passed input =
      (splitLine input).map fun found => (passed.reverse ++ found.1, found.2) := by
  induction input generalizing passed with
  | nil => rfl
  | cons b rest ih =>
      simp only [splitLine, splitLineAfter]
      split
      · simp only [Option.map_some, List.reverse_nil, List.append_nil]
      · rw [ih (b :: passed), ih [b]]
        simp only [Option.map_map, Function.comp_def, List.reverse_cons, List.reverse_nil,
          List.nil_append, List.append_assoc]

theorem splitLine_cons (b : UInt8) (rest : Bytes) :
    splitLine (b :: rest) =
      if b = cr ∧ rest.head? = some lf then some ([], rest.tail)
      else (splitLine rest).map fun found => (b :: found.1, found.2) := by
  simp only [splitLine, splitLineAfter]
  split
  · rfl
  · rw [splitLineAfter_eq]
    rfl

/-- No byte is lost: the line, its end and the rest are all there was. -/
theorem length_of_splitLineAfter {passed input line rest : Bytes}
    (h : splitLineAfter passed input = some (line, rest)) :
    line.length + 2 + rest.length = passed.length + input.length := by
  induction input generalizing passed with
  | nil => exact absurd h (by simp only [splitLineAfter, reduceCtorEq, not_false_eq_true])
  | cons b tail ih =>
      simp only [splitLineAfter] at h
      split at h
      · -- The line ends here, and its end is the two bytes that are added.
        rename_i hend
        rcases tail with _ | ⟨c, tail⟩
        · exact absurd hend.2 (by simp only [List.head?_nil, reduceCtorEq, not_false_eq_true])
        · simp only [Option.some.injEq, Prod.mk.injEq] at h
          simp only [← h.1, ← h.2, List.length_reverse, List.tail_cons, List.length_cons]
          omega
      · -- The line goes on, with one byte more passed over.
        have := ih h
        simp only [List.length_cons] at this ⊢
        omega

theorem flatten_piecesOnto {size fuel : Nat} (hsize : 0 < size) (done : List Bytes)
    {input : Bytes} (hfuel : input.length ≤ fuel) :
    (piecesOnto size fuel done input).flatten = done.reverse.flatten ++ input := by
  induction fuel generalizing done input with
  | zero =>
      rw [List.eq_nil_of_length_eq_zero (Nat.le_zero.1 hfuel)]
      simp only [piecesOnto, List.append_nil]
  | succ fuel ih =>
      rcases input with _ | ⟨b, rest⟩
      · simp only [piecesOnto, List.append_nil]
      · simp only [piecesOnto]
        -- A piece takes at least the first byte, so the fuel still covers the rest.
        rw [ih _ (by simp only [List.length_drop, List.length_cons] at hfuel ⊢; omega)]
        simp only [List.reverse_cons, List.flatten_append, List.flatten_cons, List.flatten_nil,
          List.append_nil, List.append_assoc, List.take_append_drop]

/-- The pieces put together are the input. -/
theorem flatten_pieces {size : Nat} (hsize : 0 < size) (input : Bytes) :
    (pieces size input).flatten = input := by
  rw [pieces, flatten_piecesOnto hsize [] (Nat.le_refl _)]
  rfl

theorem piecesOnto_eq (size fuel : Nat) (done : List Bytes) (input : Bytes) :
    piecesOnto size fuel done input = done.reverse ++ piecesOnto size fuel [] input := by
  induction fuel generalizing done input with
  | zero => exact (List.append_nil _).symm
  | succ fuel ih =>
      rcases input with _ | ⟨b, rest⟩
      · exact (List.append_nil _).symm
      · simp only [piecesOnto]
        rw [ih, ih [_], List.reverse_cons, List.append_assoc]
        rfl

-- Fuel that covers the input is as good as any other that does.
theorem piecesOnto_fuel {size fuel other : Nat} (hsize : 0 < size) (done : List Bytes)
    {input : Bytes} (hfuel : input.length ≤ fuel) (hother : input.length ≤ other) :
    piecesOnto size fuel done input = piecesOnto size other done input := by
  induction fuel generalizing other done input with
  | zero =>
      rw [List.eq_nil_of_length_eq_zero (Nat.le_zero.1 hfuel)]
      cases other with
      | zero => rfl
      | succ other => rfl
  | succ fuel ih =>
      rcases input with _ | ⟨b, rest⟩
      · cases other with
        | zero => rfl
        | succ other => rfl
      · cases other with
        | zero => exact absurd hother (Nat.not_succ_le_zero rest.length)
        | succ other =>
            -- A piece takes at least one byte, so the fuel that is left still
            -- covers what is left.
            simp only [List.length_cons] at hfuel hother
            simp only [piecesOnto]
            refine ih _ ?_ ?_ <;>
            · simp only [List.length_drop, List.length_cons]
              omega

/-- Pieces are cut off the front one after another. -/
theorem pieces_cons {size : Nat} (hsize : 0 < size) {input : Bytes} (h : input ≠ []) :
    pieces size input = input.take size :: pieces size (input.drop size) := by
  rcases input with _ | ⟨b, rest⟩
  · exact absurd rfl h
  · have hstep : pieces size (b :: rest) = piecesOnto size rest.length
        [(b :: rest).take size] ((b :: rest).drop size) := rfl
    rw [hstep, piecesOnto_eq, pieces]
    refine congrArg (List.cons _) (piecesOnto_fuel hsize [] ?_ (Nat.le_refl _))
    rw [List.length_drop, List.length_cons]
    omega

/-- No piece is empty, and only the last may be shorter. -/
theorem of_mem_pieces {size : Nat} (hsize : 0 < size) {before after : List Bytes}
    {input piece : Bytes} (h : pieces size input = before ++ piece :: after) :
    piece ≠ [] ∧ (piece.length < size → after = []) := by
  have hinput : input ≠ [] := by
    rintro rfl
    exact absurd h.symm (List.append_ne_nil_of_right_ne_nil _ (List.cons_ne_nil _ _))
  rw [pieces_cons hsize hinput] at h
  -- The induction is on the pieces in front, each of which takes its bytes off
  -- the input.
  induction before generalizing input with
  | nil =>
      rw [List.nil_append, List.cons.injEq] at h
      rw [← h.1, ← h.2]
      refine ⟨?_, fun hshort => ?_⟩
      · rw [Ne, List.take_eq_nil_iff, not_or]
        exact ⟨Nat.ne_of_gt hsize, hinput⟩
      · -- A piece that is short has taken all there was.
        rw [List.length_take] at hshort
        rw [List.drop_eq_nil_of_le (by omega)]
        rfl
  | cons first before ih =>
      rw [List.cons_append, List.cons.injEq] at h
      have hrest : input.drop size ≠ [] := by
        intro hnil
        rw [hnil] at h
        exact absurd h.2.symm (List.append_ne_nil_of_right_ne_nil _ (List.cons_ne_nil _ _))
      rw [pieces_cons hsize hrest] at h
      exact ih h.2 hrest

end Bytes

end RespBus
