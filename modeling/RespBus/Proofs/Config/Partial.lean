import RespBus.Proofs.Config.Listed
import RespBus.Proofs.Json.Reading

/-!
# Partial Configurations

A configuration file need not name every field. Whatever its layout is, the
fields it lists are read and the others have their defaults. Layout is
everything a document leaves open: the order of the members, the blanks, how a
text is escaped, and the members under other names with any values in them,
which are passed over. `Json.Document` and `Listed` leave all of it open, the
first for characters and the second for the members, so the theorem is the one
about reading after the one about what an object lists.

A field that stands twice cannot be read, wherever its object is. In a framing
the size of a chunk is such a field only where the mode calls for it: any
other mode passes it over, once or twice.

The proof of the second part goes backwards. A configuration that has been
read had a framing and namespaces that could be read, and a member is the one
that is looked up unless its name stands twice.

## Main definitions

* `Framing.Repeats`, `Namespaces.Repeats`, `ClientConfig.Repeats`: Objects in
  which a field stands twice.

## Theorems

* `Json.lookup_of_record?`, `Json.eq_of_only?`: A member is the one looked up.
* `Framing.ofJson?_eq_none`, `Namespaces.ofJson?_eq_none`,
  `ClientConfig.ofJson?_eq_none`: What stands twice is not read.
* `ClientConfig.parse_listed`: A partial configuration is read, and one that
  repeats a field is not.
-/

namespace RespBus

open Json

/-- A member of an object that can be read as a record is the one looked up. -/
theorem Json.lookup_of_record? {names : List String} {members : List (Option String × Value)}
    {field : String → Option Value} (h : (Value.object members).record? names = some field)
    {name : String} (hname : name ∈ names) {value : Value}
    (hmember : (some name, value) ∈ members) : field name = some value := by
  by_cases htwice : 2 ≤ (members.map Prod.fst).count (some name)
  · rw [record?_eq_none hname htwice] at h
    exact absurd h.symm (Option.some_ne_none field)
  · have hfound := (lookup_eq_some_iff_mem (by omega)).2 hmember
    simp only [Value.record?] at h
    split at h
    · rw [← Option.some.inj h]
      exact hfound
    · exact absurd h.symm (Option.some_ne_none field)

/-- A member that is found has no other value. -/
theorem Json.eq_of_only? {key : String} {members : List (Option String × Value)} {value : Value}
    (h : only? key members = some value) (other : Value) (hother : (some key, other) ∈ members) :
    other = value := by
  rw [only?] at h
  split at h
  · rename_i member hsingle
    have hmem : (some key, other) ∈ members.filter fun member => member.1 == some key :=
      List.mem_filter.2 ⟨hother, beq_self_eq_true _⟩
    rw [hsingle, List.mem_singleton] at hmem
    rw [← Option.some.inj h, ← hmem]
  · exact absurd h.symm (Option.some_ne_none value)

/-- An object in which a field of a framing stands twice: the mode, or the size
    of a chunk if the mode calls for one. -/
inductive Framing.Repeats : Value → Prop where
  | mode {members : List (Option String × Value)}
      (htwice : 2 ≤ (members.map Prod.fst).count (some "mode")) : Repeats (.object members)
  | chunkSize {members : List (Option String × Value)}
      (hmode : (some "mode", .text (some "short_read")) ∈ members)
      (htwice : 2 ≤ (members.map Prod.fst).count (some "chunk_size")) : Repeats (.object members)

/-- A framing that lists its tag or its size twice is refused. -/
theorem Framing.ofJson?_eq_none {value : Value} (h : Repeats value) (levels : Nat) :
    ofJson? levels value = none := by
  unfold ofJson?
  by_cases hstored : value.isStorable levels = true
  · rw [if_pos hstored]
    cases h with
    | mode htwice => simp only [only?_eq_none htwice, Option.bind_eq_bind, Option.bind_none]
    -- The tag has been read by then, and it asks for the size.
    | @chunkSize members hmode htwice =>
        simp only [only?_eq_none htwice, Option.bind_eq_bind, Option.bind_none]
        cases honly : only? "mode" members with
        | none => rfl
        | some value =>
            rw [← eq_of_only? honly _ hmode]
            rfl
  · rw [if_neg hstored]

/-- An object in which a field of namespaces stands twice. -/
inductive Namespaces.Repeats : Value → Prop where
  | field {members : List (Option String × Value)} {name : String} (hname : name ∈ fieldNames)
      (htwice : 2 ≤ (members.map Prod.fst).count (some name)) : Repeats (.object members)

theorem Namespaces.ofJson?_eq_none {value : Value} (h : Repeats value) : ofJson? value = none := by
  cases h with
  | field hname htwice =>
      rw [ofJson?, record?_eq_none hname htwice]
      rfl

namespace ClientConfig

/-- An object in which a field of a configuration stands twice, or a field of
    the framing or the namespaces in it. -/
inductive Repeats : Value → Prop where
  | field {members : List (Option String × Value)} {name : String} (hname : name ∈ fieldNames)
      (htwice : 2 ≤ (members.map Prod.fst).count (some name)) : Repeats (.object members)
  | framing {members : List (Option String × Value)} {value : Value}
      (hmember : (some "framing", value) ∈ members) (hvalue : Framing.Repeats value) :
      Repeats (.object members)
  | namespaces {members : List (Option String × Value)} {value : Value}
      (hmember : (some "namespaces", value) ∈ members) (hvalue : Namespaces.Repeats value) :
      Repeats (.object members)

/-- What can be read has a framing and namespaces that can be read. -/
theorem parts_of_ofJson? {value : Value} {config : ClientConfig} (h : ofJson? value = some config) :
    ∃ field, value.record? fieldNames = some field ∧
      orDefault default (Framing.ofJson? (maxStoredNesting - 1)) (field "framing") =
        some config.framing ∧
      orDefault {} Namespaces.ofJson? (field "namespaces") = some config.namespaces := by
  simp only [ofJson?, Option.bind_eq_bind, Option.bind_eq_some_iff, Option.some.injEq] at h
  rcases h with ⟨field, hrecord, host, _, port, _, framing, hframing, namespaces, hnamespaces, rfl⟩
  exact ⟨field, hrecord, hframing, hnamespaces⟩

/-- A configuration with a field listed twice, at any level, is refused. -/
theorem ofJson?_eq_none {value : Value} (h : Repeats value) : ofJson? value = none := by
  rw [Option.eq_none_iff_forall_ne_some]
  intro config hconfig
  -- If it were read, each of its parts would have been.
  rcases parts_of_ofJson? hconfig with ⟨field, hrecord, hframing, hnamespaces⟩
  cases h with
  | field hname htwice =>
      rw [record?_eq_none hname htwice] at hrecord
      exact absurd hrecord.symm (Option.some_ne_none field)
  | framing hmember hvalue =>
      rw [lookup_of_record? hrecord (by decide) hmember, orDefault,
        Framing.ofJson?_eq_none hvalue] at hframing
      exact absurd hframing.symm (Option.some_ne_none _)
  | namespaces hmember hvalue =>
      rw [lookup_of_record? hrecord (by decide) hmember, orDefault,
        Namespaces.ofJson?_eq_none hvalue] at hnamespaces
      exact absurd hnamespaces.symm (Option.some_ne_none _)

/-- A document in which an object lists a configuration is read as what is
    listed of it, whatever else stands in the object and however it is laid
    out, and is refused only if that makes no sense. A document in which a field
    stands twice in its object is not read at all. -/
theorem parse_listed :
    (∀ (config : ClientConfig) (listed namesListed : String → Bool) (text : String) (value : Value),
      config.framing.FitsWord → Document text.toList value →
        config.Listed listed namesListed value →
          parse text = some (config.keep listed namesListed) ∧
            ((config.keep listed namesListed).validate = .ok () →
              ofText text = .ok (config.keep listed namesListed)) ∧
            ∀ setting, (config.keep listed namesListed).validate = .error setting →
              ofText text = .error (.invalid setting)) ∧
      ∀ (text : String) (value : Value), Document text.toList value → Repeats value →
        parse text = none ∧ ofText text = .error .malformed := by
  -- A document has one value, whatever its layout, so it is the value that
  -- counts.
  have hread {text : String} {value : Value} (hdocument : Document text.toList value) :
      parse text = ofJson? value := by
    have hparse := hdocument.parse_eq
    rw [String.ofList_toList] at hparse
    rw [parse, hparse]
    rfl
  refine ⟨fun config listed namesListed text value hfits hdocument hlisted => ?_,
    fun text value hdocument hrepeats => ?_⟩
  · have hparse : parse text = some (config.keep listed namesListed) := by
      rw [hread hdocument, ofJson?_listed hfits hlisted]
    refine ⟨hparse, fun hvalid => ?_, fun setting hrefused => ?_⟩
    · simp only [ofText, hparse, hvalid]
    · simp only [ofText, hparse, hrefused]
  · have hparse : parse text = none := by
      rw [hread hdocument, ofJson?_eq_none hrepeats]
    refine ⟨hparse, ?_⟩
    simp only [ofText, hparse]

/-- A member that is passed over, with blanks: an array with a number in it
    that no double has room for. -/
def passedOver : Member where
  before := [' ']
  key := quote "x"
  gap := [' ']
  name := some "x"
  element :=
    { before := [' ']
      core := ['[', 'n', 'u', 'l', 'l', ',', ' ', '1', '.', '5', 'e', '4', '0', '0', ']']
      after := []
      value := .array [.null, .number ⟨false, [1], [5], some 400⟩] }

/-- The framing after that, with the mode in the last place. -/
def modeLast : Member :=
  .compact "framing"
    (writeObject [writeMember "chunk_size" (Decimal.toChars 7),
      writeMember "mode" (quote "short_read")])
    (.record [("chunk_size", .number (.ofNat 7)), ("mode", .text (some "short_read"))])

/-- And one of the namespaces. -/
def keyOnly : Member :=
  .compact "namespaces" (writeObject [writeMember "menu_key" (quote "k")])
    (.record [("menu_key", .text (some "k"))])

theorem padded_passedOver : passedOver.Padded where
  before := blanks_space
  gap := blanks_space
  key := textLiteral_quote "x"
  element := ⟨blanks_space, blanks_nil⟩

theorem spells_passedOver : Spells passedOver.element.core passedOver.element.value := by
  have hwhole : WholePart ['1'] [1] := @WholePart.digits 1 [] (by decide) (by decide)
  have hfraction : FractionPart ['.', '5'] [5] :=
    @FractionPart.digits [5] (by decide) (by decide)
  -- The number is out of the range of floating point, which would matter only
  -- if something had to store it.
  have hexponent : ExponentPart ['e', '4', '0', '0'] (some 400) :=
    @ExponentPart.digits 'e' [] false [4, 0, 0] (.inl rfl) .absent (by decide) (by decide)
  have harray := @Spells.array ⟨[], ['n', 'u', 'l', 'l'], [], .null⟩
    [⟨[' '], ['1', '.', '5', 'e', '4', '0', '0'], [], .number ⟨false, [1], [5], some 400⟩⟩]
  refine harray ?_ ?_
  · simp only [List.forall_mem_cons, List.not_mem_nil, false_implies, implies_true, and_true]
    exact ⟨⟨blanks_nil, blanks_nil⟩, ⟨blanks_space, blanks_nil⟩⟩
  · simp only [List.forall_mem_cons, List.not_mem_nil, false_implies, implies_true, and_true]
    exact ⟨.null, .number (.plain hwhole hfraction hexponent)⟩

/-- A host that stands in no document, and the rest of which parts are listed. -/
def partlyListed : ClientConfig :=
  { host := "unlisted", framing := .shortRead 7, namespaces := { menuKey := "k" } }

/-- The document of the three members, in that order. -/
def reordered : String :=
  "\x7b \"x\" : [null, 1.5e400],\"framing\":\x7b\"chunk_size\":7,\"mode\":\"short_read\"\x7d," ++
    "\"namespaces\":\x7b\"menu_key\":\"k\"\x7d\x7d "

theorem document_reordered :
    Document reordered.toList (.object ([passedOver, modeLast, keyOnly].map Member.pair)) := by
  have hmode : Spells modeLast.element.core modeLast.element.value :=
    spells_writeObject (.cons "chunk_size" (spells_toChars 7)
      (.cons "mode" (spells_quote "short_read") .nil))
  have hkey : Spells keyOnly.element.core keyOnly.element.value :=
    spells_writeObject (.cons "menu_key" (spells_quote "k") .nil)
  -- There is a blank behind the object and none in front of it.
  have hobject := @Spells.object passedOver [modeLast, keyOnly]
    (List.forall_mem_cons.2 ⟨padded_passedOver, List.forall_mem_cons.2
      ⟨Member.padded_compact _ _ _, List.forall_mem_singleton.2 (Member.padded_compact _ _ _)⟩⟩)
    (List.forall_mem_cons.2 ⟨spells_passedOver, List.forall_mem_cons.2
      ⟨hmode, List.forall_mem_singleton.2 hkey⟩⟩)
  exact ⟨⟨[], _, [' '], _⟩, ⟨blanks_nil, blanks_space⟩, hobject, by decide +kernel, rfl⟩

theorem listed_reordered :
    partlyListed.Listed (fun name => name = "framing" ∨ name = "namespaces")
      (fun name => name = "menu_key")
      (.object ([passedOver, modeLast, keyOnly].map Member.pair)) := by
  refine ⟨modeLast.element.value, keyOnly.element.value,
    [("x", passedOver.element.value), ("framing", modeLast.element.value),
      ("namespaces", keyOnly.element.value)], ?_, ?_, ?_, rfl⟩
  · exact ⟨_, [], fun _ h => absurd h List.not_mem_nil, .swap _ _ _, rfl⟩
  · exact ⟨_, ⟨[], fun _ h => absurd h List.not_mem_nil, .refl _⟩, rfl⟩
  · refine ⟨[("x", passedOver.element.value)], ?_, ?_⟩
    · simp only [List.forall_mem_singleton]
      decide
    · exact (List.perm_append_singleton _ _).symm

/-- A document with two ports. -/
def twoPorts : String :=
  "\x7b\"port\":1,\"port\":2\x7d"

theorem parse_listed_reordered :
    partlyListed.framing.FitsWord ∧
      parse reordered = some { framing := .shortRead 7, namespaces := { menuKey := "k" } } ∧
      ofText reordered = .ok { framing := .shortRead 7, namespaces := { menuKey := "k" } } ∧
      parse twoPorts = none ∧ ofText twoPorts = .error .malformed := by
  have hfits : partlyListed.framing.FitsWord := by
    show 7 < Nat.pow 2 64
    decide
  -- The text with two ports is laid out as it would be written.
  have hports := spells_writeObject
    (.cons "port" (spells_toChars 1) (.cons "port" (spells_toChars 2) .nil))
  have htext : writeObject [writeMember "port" (Decimal.toChars 1),
      writeMember "port" (Decimal.toChars 2)] = twoPorts.toList := by decide +kernel
  rw [htext] at hports
  rcases parse_listed with ⟨hlisted, hrepeats⟩
  rcases hlisted partlyListed _ _ reordered _ hfits document_reordered listed_reordered with
    ⟨hparse, hvalid, -⟩
  exact ⟨hfits, hparse, hvalid rfl,
    hrepeats twoPorts _ hports.document (@Repeats.field _ "port" (by decide) (by decide))⟩

end ClientConfig

end RespBus
