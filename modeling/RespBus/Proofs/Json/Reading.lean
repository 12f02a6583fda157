import RespBus.Proofs.Json.Spelling

/-!
# Documents Read

A document is read as the value it spells. Reading cuts it into lexemes first
and then puts those together, and each half has its own notion of being right
whatever stands around. `Lexes` holds for any lexemes found before and any
characters after, and `Builds` for any unfinished containers around the value
and any lexemes after it. That is what lets one spelling stand inside another.

A number is the only lexeme that the next character could still be part of.
`Ends` keeps such characters from following, and all that ever follows a value
is a blank, a punctuation mark or the end of the document.

The parts of a container are read one after the other, each with the container
unfinished around it. So `ClosesArray` and `ClosesObject` are about the parts
that are left, and the parts already done are general in them.

## Main definitions

* `Json.Lexes`: Characters that are cut into the given lexemes.
* `Json.Builds`: Lexemes that are put together to the given value.
* `Json.Reads`: Characters of which both are true.
* `Json.ClosesArray`, `Json.ClosesObject`: Characters that finish a container.

## Theorems

* `Json.Lexes.append`: Lexemes one after another.
* `Json.lexes_text`, `Json.lexes_number`: A literal is one lexeme.
* `Json.Builds.starts`: A value does not start with the end of an array.
* `Json.reads_array`, `Json.reads_object`: A container is read part by part.
* `Json.Spells.reads`: What is spelled is read.
* `Json.Document.parse_eq`: A document is read as the value it spells.
-/

namespace RespBus

namespace Json

/-- The characters are cut into the given lexemes, in any document. -/
def Lexes (input : List Char) (found : List Token) : Prop :=
  ∀ done rest, Ends rest →
    tokensOnto done (input ++ rest) = tokensOnto (found.reverse ++ done) rest

/-- The lexemes are put together to the given value, in any document. -/
def Builds (found : List Token) (value : Value) : Prop :=
  ∀ outer rest, (Reading.wanting outer).finish (found ++ rest) =
    (Reading.finished value outer).finish rest

/-- The characters are read as the given value, in any document. -/
def Reads (input : List Char) (value : Value) : Prop :=
  ∃ found, Lexes input found ∧ Builds found value

/-! ### Lexemes -/

theorem mark_openArray : mark? '[' = some .openArray := rfl

theorem mark_closeArray : mark? ']' = some .closeArray := rfl

theorem mark_comma : mark? ',' = some .comma := rfl

theorem mark_colon : mark? ':' = some .colon := rfl

theorem mark_openObject : mark? '\x7b' = some .openObject := rfl

theorem mark_closeObject : mark? '\x7d' = some .closeObject := rfl

theorem mem_of_mark {c : Char} {token : Token} (h : mark? c = some token) :
    c ∈ ['[', ']', '\x7b', '\x7d', ',', ':'] := by
  by_cases hmem : c ∈ ['[', ']', '\x7b', '\x7d', ',', ':']
  · exact hmem
  · simp only [List.mem_cons, List.not_mem_nil, or_false, not_or] at hmem
    rcases hmem with ⟨h₁, h₂, h₃, h₄, h₅, h₆⟩
    rw [mark?, if_neg h₁, if_neg h₂, if_neg h₃, if_neg h₄, if_neg h₅, if_neg h₆] at h
    exact absurd h (by simp only [reduceCtorEq, not_false_eq_true])

/-- No mark is blank or goes on with a number. -/
theorem apart_of_mark {c : Char} {token : Token} (h : mark? c = some token) :
    isBlank c = false ∧ c.isDigit = false ∧ c ≠ '.' ∧ c ≠ 'e' ∧ c ≠ 'E' := by
  have hmem := mem_of_mark h
  simp only [List.mem_cons, List.not_mem_nil, or_false] at hmem
  rcases hmem with rfl | rfl | rfl | rfl | rfl | rfl
  all_goals decide

/-- No blank goes on with a number. -/
theorem apart_of_blank {c : Char} (h : c ∈ [' ', '\t', '\n', '\r']) :
    isBlank c = true ∧ c.isDigit = false ∧ c ≠ '.' ∧ c ≠ 'e' ∧ c ≠ 'E' := by
  simp only [List.mem_cons, List.not_mem_nil, or_false] at h
  rcases h with rfl | rfl | rfl | rfl
  all_goals decide

/-- A number starts with a digit, unless it starts with its sign. -/
theorem exists_first {input : List Char} {whole : List Nat} (h : WholePart input whole) :
    ∃ c tail, input = c :: tail ∧ isBlank c = false ∧ mark? c = none ∧ word? c = none ∧
      c ≠ '"' ∧ c ≠ '-' := by
  cases h with
  | zero => exact ⟨'0', [], rfl, by decide⟩
  | @digits d ds hfirst hdigits =>
      rcases digitChar_apart d (hdigits d List.mem_cons_self) with
        ⟨-, -, -, hblank, hmark, hword, hquote, hminus, -⟩
      exact ⟨_, _, rfl, hblank, hmark, hword, hquote, hminus⟩

/-- A token that is found is put to those that were found before. -/
theorem tokensOnto_of_nextToken {c : Char} {rest after : List Char} {token : Token}
    (hblank : isBlank c = false) (h : nextToken c rest = some (token, after))
    (done : List Token) : tokensOnto done (c :: rest) = tokensOnto (token :: done) after := by
  rw [tokensOnto, if_neg (by rw [hblank]; exact Bool.false_ne_true)]
  split
  · rename_i heq
    rw [h] at heq
    exact absurd heq (by simp only [reduceCtorEq, not_false_eq_true])
  · rename_i heq
    rw [h, Option.some.injEq, Prod.mk.injEq] at heq
    rw [heq.1, heq.2]

/-- One lexeme, if it is found whatever follows it. -/
theorem lexes_of_nextToken {c : Char} {tail : List Char} {token : Token}
    (hblank : isBlank c = false)
    (h : ∀ rest, Ends rest → nextToken c (tail ++ rest) = some (token, rest)) :
    Lexes (c :: tail) [token] := by
  intro done rest hrest
  exact tokensOnto_of_nextToken hblank (h rest hrest) done

/-- A mark in front is one more token. -/
theorem Lexes.mark_cons {c : Char} {token : Token} {input : List Char} {found : List Token}
    (h : Lexes input found) (hmark : mark? c = some token) :
    Lexes (c :: input) (token :: found) := by
  intro done rest hrest
  have hnext : nextToken c (input ++ rest) = some (token, input ++ rest) := by
    rw [nextToken, hmark]
  rw [List.cons_append, tokensOnto_of_nextToken (apart_of_mark hmark).1 hnext, h _ _ hrest,
    List.reverse_cons, List.append_assoc, List.singleton_append]

theorem lexes_nil : Lexes [] [] := by
  intro done rest _
  rfl

/-- Texts that do not run into one another are read one after the other. -/
theorem Lexes.append {first second : List Char} {found found' : List Token}
    (hfirst : Lexes first found) (hends : ∀ rest, Ends rest → Ends (second ++ rest))
    (hsecond : Lexes second found') : Lexes (first ++ second) (found ++ found') := by
  intro done rest hrest
  rw [List.append_assoc, hfirst _ _ (hends rest hrest), hsecond _ _ hrest, List.reverse_append,
    List.append_assoc]

/-- A literal may end before a mark. -/
theorem ends_of_mark {c : Char} {token : Token} (h : mark? c = some token) (rest : List Char) :
    Ends (c :: rest) :=
  ends_cons (apart_of_mark h).2 rest

theorem ends_blanks {blanks : List Char} (h : Blanks blanks) {rest : List Char}
    (hrest : Ends rest) : Ends (blanks ++ rest) := by
  rcases blanks with _ | ⟨c, blanks⟩
  · exact hrest
  · exact ends_cons (apart_of_blank (h c List.mem_cons_self)).2 _

/-- Blanks in front are passed over. -/
theorem Lexes.blanks_append {blanks input : List Char} {found : List Token}
    (h : Lexes input found) (hblanks : Blanks blanks) : Lexes (blanks ++ input) found := by
  intro done rest hrest
  induction blanks with
  | nil => exact h done rest hrest
  | cons c blanks ih =>
      rw [Blanks, List.forall_mem_cons] at hblanks
      rw [List.cons_append, List.cons_append, tokensOnto, if_pos (apart_of_blank hblanks.1).1]
      exact ih hblanks.2

/-- The tokens of a text are found when it is all there is. -/
theorem Lexes.tokens_eq {input : List Char} {found : List Token} (h : Lexes input found) :
    tokens input = some found := by
  have hfound := h [] [] ends_nil
  rw [List.append_nil, List.append_nil] at hfound
  rw [tokens, hfound, tokensOnto, List.reverse_reverse]

theorem lexes_text {input : List Char} {content : Option String} (h : TextLiteral input content) :
    Lexes input [.text content] := by
  have hmark : mark? '"' = none := rfl
  have hword : word? '"' = none := rfl
  rcases h with ⟨inside, units, rfl, hunits, hcontent⟩
  refine lexes_of_nextToken rfl fun rest _ => ?_
  rw [nextToken, hmark, hword, List.append_assoc, List.singleton_append]
  simp only [if_true, readString_append hunits hcontent]

theorem lexes_number {input : List Char} {value : Number} (h : NumberLiteral input value) :
    Lexes input [.number value] := by
  have hmark : mark? '-' = none := rfl
  have hword : word? '-' = none := rfl
  cases h with
  | plain hwhole hfraction hexponent =>
      -- The first digit decides that a number is read.
      rcases exists_first hwhole with ⟨c, tail, rfl, hblank, hmark, hword, hquote, hminus⟩
      refine lexes_of_nextToken hblank fun rest hrest => ?_
      have hread := readNumber_append hwhole hfraction hexponent false hrest
      rw [nextToken, hmark, hword]
      simp only [if_neg hquote, if_neg hminus]
      exact hread
  | minus hwhole hfraction hexponent =>
      refine lexes_of_nextToken rfl fun rest hrest => ?_
      have hread := readNumber_append hwhole hfraction hexponent true hrest
      rw [nextToken, hmark, hword]
      exact hread

/-! ### Values -/

/-- A word is one lexeme. -/
theorem lexes_word {c : Char} {word : List Char} {token : Token} (hblank : isBlank c = false)
    (hmark : mark? c = none) (hword : word? c = some (word, token)) :
    Lexes (c :: word) [token] := by
  refine lexes_of_nextToken hblank fun rest _ => ?_
  have hprefix : word.isPrefixOf (word ++ rest) = true :=
    List.isPrefixOf_iff_prefix.2 (List.prefix_append word rest)
  rw [nextToken, hmark, hword]
  simp only [readWord, hprefix, if_true, List.drop_left]

-- No value starts with the end of an array, or with nothing: the reader would
-- stop there, whatever is left.
theorem Builds.starts {found : List Token} {value : Value} (h : Builds found value) :
    ∃ token tail, found = token :: tail ∧ token ≠ .closeArray := by
  have hread := h [] []
  rw [List.append_nil] at hread
  rcases found with _ | ⟨token, tail⟩
  · exact absurd hread (by simp only [Reading.finish, reduceCtorEq, not_false_eq_true])
  · refine ⟨token, tail, rfl, ?_⟩
    rintro rfl
    exact absurd hread
      (by simp only [Reading.finish, Token.scalar?, reduceCtorEq, not_false_eq_true])

/-- The first element of an array is built within it. -/
theorem Builds.openArray {found : List Token} {value : Value} (h : Builds found value)
    (outer : List Frame) (rest : List Token) :
    (Reading.wanting outer).finish (.openArray :: (found ++ rest)) =
      (Reading.finished value (.items [] :: outer)).finish rest := by
  rcases h.starts with ⟨token, tail, hfound, hopen⟩
  rw [← h (.items [] :: outer) rest, hfound, List.cons_append]
  cases token with
  | closeArray => exact absurd rfl hopen
  | _ => rfl

/-! ### Containers -/

/-- Blanks around an element are passed over. -/
theorem lexes_element {element : Element} {found : List Token} (hpadded : element.Padded)
    (hcore : Lexes element.core found) : Lexes element.chars found := by
  have hafter := lexes_nil.blanks_append hpadded.after
  rw [List.append_nil] at hafter
  have hends : ∀ rest, Ends rest → Ends (element.after ++ rest) :=
    fun _ hrest => ends_blanks hpadded.after hrest
  have hinner := hcore.append hends hafter
  rw [List.append_nil] at hinner
  exact hinner.blanks_append hpadded.before

/-- A member is its name, a colon and its value. -/
theorem lexes_member {member : Member} {found : List Token} (hpadded : member.Padded)
    (hcore : Lexes member.element.core found) :
    Lexes member.chars (.text member.name :: .colon :: found) := by
  have hvalue := (lexes_element hpadded.element hcore).mark_cons mark_colon
  have hends : ∀ rest, Ends rest →
      Ends (member.gap ++ ':' :: member.element.chars ++ rest) := by
    intro rest _
    rw [List.append_assoc]
    exact ends_blanks hpadded.gap (ends_of_mark mark_colon _)
  have hkey := (lexes_text hpadded.key).append hends (hvalue.blanks_append hpadded.gap)
  exact hkey.blanks_append hpadded.before

-- After a part of a container comes another one, or the end.
theorem ends_closing {α : Type} {c : Char} {token : Token} (hmark : mark? c = some token)
    (chars : α → List Char) (parts : List α) (rest : List Char) :
    Ends (parts.flatMap (',' :: chars ·) ++ [c] ++ rest) := by
  rcases parts with _ | ⟨part, parts⟩
  · exact ends_of_mark hmark rest
  · exact ends_of_mark mark_comma _

/-- The characters finish an array, in which a value has just been finished,
    with the given further values. -/
def ClosesArray (input : List Char) (values : List Value) : Prop :=
  ∃ found, Lexes input found ∧ ∀ value done outer rest,
    (Reading.finished value (.items done :: outer)).finish (found ++ rest) =
      (Reading.finished (.array (done.reverse ++ value :: values)) outer).finish rest

/-- The characters finish an object, in which a value has just been finished,
    with the given further members. -/
def ClosesObject (input : List Char) (members : List (Option String × Value)) : Prop :=
  ∃ found, Lexes input found ∧ ∀ value done key outer rest,
    (Reading.finished value (.members done key :: outer)).finish (found ++ rest) =
      (Reading.finished (.object (done.reverse ++ (key, value) :: members)) outer).finish rest

/-- Further elements and the bracket close an array. -/
theorem closes_elements {others : List Element} (hpadded : ∀ element ∈ others, element.Padded)
    (hreads : ∀ element ∈ others, Reads element.core element.value) :
    ClosesArray (others.flatMap (',' :: ·.chars) ++ [']']) (others.map Element.value) := by
  induction others with
  | nil =>
      refine ⟨[.closeArray], lexes_nil.mark_cons mark_closeArray, ?_⟩
      intro value done outer rest
      rw [List.singleton_append, Reading.finish, List.reverse_cons]
      rfl
  | cons element others ih =>
      rw [List.forall_mem_cons] at hpadded hreads
      rcases hreads.1 with ⟨found, hlexes, hbuilds⟩
      rcases ih hpadded.2 hreads.2 with ⟨found', hlexes', hcloses⟩
      refine ⟨.comma :: (found ++ found'), ?_, ?_⟩
      · -- After the element comes another comma or the bracket, so a number
        -- ends here.
        have hpart := (lexes_element hpadded.1 hlexes).append
          (fun rest _ => ends_closing mark_closeArray Element.chars others rest) hlexes'
        rw [List.flatMap_cons, List.append_assoc]
        exact hpart.mark_cons mark_comma
      · intro before done outer rest
        simp only [List.cons_append, List.append_assoc, Reading.finish]
        rw [hbuilds, hcloses, List.reverse_cons, List.append_assoc]
        rfl

/-- Further members and the brace close an object. -/
theorem closes_members {others : List Member} (hpadded : ∀ member ∈ others, member.Padded)
    (hreads : ∀ member ∈ others, Reads member.element.core member.element.value) :
    ClosesObject (others.flatMap (',' :: ·.chars) ++ ['\x7d']) (others.map Member.pair) := by
  induction others with
  | nil =>
      refine ⟨[.closeObject], lexes_nil.mark_cons mark_closeObject, ?_⟩
      intro value done key outer rest
      rw [List.singleton_append, Reading.finish, List.reverse_cons]
      rfl
  | cons member others ih =>
      rw [List.forall_mem_cons] at hpadded hreads
      rcases hreads.1 with ⟨found, hlexes, hbuilds⟩
      rcases ih hpadded.2 hreads.2 with ⟨found', hlexes', hcloses⟩
      refine ⟨.comma :: .text member.name :: .colon :: (found ++ found'), ?_, ?_⟩
      · -- Here it is another comma or the brace.
        have hpart := (lexes_member hpadded.1 hlexes).append
          (fun rest _ => ends_closing mark_closeObject Member.chars others rest) hlexes'
        rw [List.flatMap_cons, List.append_assoc]
        exact hpart.mark_cons mark_comma
      · intro before done key outer rest
        simp only [List.cons_append, List.append_assoc, Reading.finish]
        rw [hbuilds, hcloses, List.reverse_cons, List.append_assoc]
        rfl

/-- An array with elements is read as these elements. -/
theorem reads_array {first : Element} {others : List Element}
    (hpadded : ∀ element ∈ first :: others, element.Padded)
    (hreads : ∀ element ∈ first :: others, Reads element.core element.value) :
    Reads ('[' :: (first.chars ++ (others.flatMap (',' :: ·.chars) ++ [']'])))
      (.array ((first :: others).map Element.value)) := by
  rw [List.forall_mem_cons] at hpadded hreads
  rcases hreads.1 with ⟨found, hlexes, hbuilds⟩
  rcases closes_elements hpadded.2 hreads.2 with ⟨found', hlexes', hcloses⟩
  refine ⟨.openArray :: (found ++ found'), ?_, ?_⟩
  · have hpart := (lexes_element hpadded.1 hlexes).append
      (fun rest _ => ends_closing mark_closeArray Element.chars others rest) hlexes'
    exact hpart.mark_cons mark_openArray
  · intro outer rest
    rw [List.cons_append, List.append_assoc, hbuilds.openArray, hcloses]
    rfl

/-- An object with members is read as these members. -/
theorem reads_object {first : Member} {others : List Member}
    (hpadded : ∀ member ∈ first :: others, member.Padded)
    (hreads : ∀ member ∈ first :: others, Reads member.element.core member.element.value) :
    Reads ('\x7b' :: (first.chars ++ (others.flatMap (',' :: ·.chars) ++ ['\x7d'])))
      (.object ((first :: others).map Member.pair)) := by
  rw [List.forall_mem_cons] at hpadded hreads
  rcases hreads.1 with ⟨found, hlexes, hbuilds⟩
  rcases closes_members hpadded.2 hreads.2 with ⟨found', hlexes', hcloses⟩
  refine ⟨.openObject :: .text first.name :: .colon :: (found ++ found'), ?_, ?_⟩
  · have hpart := (lexes_member hpadded.1 hlexes).append
      (fun rest _ => ends_closing mark_closeObject Member.chars others rest) hlexes'
    exact hpart.mark_cons mark_openObject
  · intro outer rest
    simp only [List.cons_append, List.append_assoc, Reading.finish]
    rw [hbuilds, hcloses]
    rfl

/-- What is spelled is read. -/
theorem Spells.reads {input : List Char} {value : Value} (h : Spells input value) :
    Reads input value := by
  -- The induction is on the spelling: containers are read if their parts are.
  induction h with
  | null => exact ⟨_, lexes_word rfl rfl rfl, fun _ _ => rfl⟩
  | true => exact ⟨_, lexes_word rfl rfl rfl, fun _ _ => rfl⟩
  | false => exact ⟨_, lexes_word rfl rfl rfl, fun _ _ => rfl⟩
  | number hliteral => exact ⟨_, lexes_number hliteral, fun _ _ => rfl⟩
  | text hliteral => exact ⟨_, lexes_text hliteral, fun _ _ => rfl⟩
  | emptyArray hblanks =>
      have hclose := (lexes_nil.mark_cons mark_closeArray).blanks_append hblanks
      exact ⟨_, hclose.mark_cons mark_openArray, fun _ _ => rfl⟩
  | array hpadded _ ih => exact reads_array hpadded ih
  | emptyObject hblanks =>
      have hclose := (lexes_nil.mark_cons mark_closeObject).blanks_append hblanks
      exact ⟨_, hclose.mark_cons mark_openObject, fun _ _ => rfl⟩
  | object hpadded _ ih => exact reads_object hpadded ih

/-- A document is read as the value it spells. -/
theorem Document.parse_eq {input : List Char} {value : Value} (h : Document input value) :
    parse (String.ofList input) = some value := by
  rcases h with ⟨element, hpadded, hspelled, rfl, rfl⟩
  rcases hspelled.reads with ⟨found, hlexes, hbuilds⟩
  have hfinish := hbuilds [] []
  rw [List.append_nil] at hfinish
  rw [parse, String.toList_ofList, (lexes_element hpadded hlexes).tokens_eq]
  exact hfinish

/-- A spelling of a value is parsed as the value. -/
theorem Spells.parse_eq {input : List Char} {value : Value} (h : Spells input value) :
    parse (String.ofList input) = some value :=
  h.document.parse_eq

end Json

end RespBus
