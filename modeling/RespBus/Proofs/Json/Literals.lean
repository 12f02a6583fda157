import RespBus.Proofs.Decimal
import RespBus.Proofs.Json.Record
import RespBus.Proofs.Json.Text
import RespBus.Json.Token

/-!
# Literals of Documents

The grammar of numbers and strings, as relations between characters and what
they stand for, and the readers of literals against it. The grammar does not
mention the readers. A number is a sign, digits without a leading zero, and
perhaps a fraction and an exponent; a string is made of characters that stand
for themselves and of escapes, of which one escape may spell half a character.

What a string spells is again a relation, `Joins`: its code units are those of
the characters, some of them one by one and some as a surrogate pair. A string
that has no such characters is a literal all the same.

Every part of a number is read to where it ends, so the readers have to be
told what does not go on with it. For digits that is anything but a digit;
for the whole literal it is `Ends`.

## Main definitions

* `Json.Ends`: Characters that do not go on with a number.
* `Json.WholePart`, `Json.FractionPart`, `Json.ExponentPart`: The parts of a
  number.
* `Json.NumberLiteral`: The literals of a number.
* `Json.HexDigit`, `Json.Units`: The code units of a string's inside.
* `Json.Joins`: Code units that spell characters.
* `Json.TextLiteral`: The literals of a text, or of none.

## Theorems

* `Json.readNumber_append`: A number is read up to its end.
* `Json.readUnits_append`: The inside of a string is read to its code units.
* `Json.joinUnits_eq_some_iff`: Code units are joined to what they spell.
* `Json.readString_append`: A string is read up to its end.
-/

namespace RespBus

namespace Json

/-! ### Numbers -/

/-- What does not go on with digits that stand before it. -/
def Undigited (rest : List Char) : Prop :=
  ∀ c ∈ rest.head?, c.isDigit = false

/-- What does not go on with a number that stands before it. -/
def Ends (rest : List Char) : Prop :=
  ∀ c ∈ rest.head?, c.isDigit = false ∧ c ≠ '.' ∧ c ≠ 'e' ∧ c ≠ 'E'

/-- The digits before the point: a lone zero, or digits of which the first is
    another one. -/
inductive WholePart : List Char → List Nat → Prop where
  | zero : WholePart ['0'] [0]
  | digits {d : Nat} {ds : List Nat} (hfirst : d ≠ 0) (hdigits : ∀ digit ∈ d :: ds, digit < 10) :
      WholePart ((d :: ds).map Nat.digitChar) (d :: ds)

/-- A point and at least one digit, or nothing. -/
inductive FractionPart : List Char → List Nat → Prop where
  | absent : FractionPart [] []
  | digits {ds : List Nat} (hsome : ds ≠ []) (hdigits : ∀ digit ∈ ds, digit < 10) :
      FractionPart ('.' :: ds.map Nat.digitChar) ds

/-- The sign of an exponent, and whether it is negative. -/
inductive ExponentSign : List Char → Bool → Prop where
  | absent : ExponentSign [] false
  | plus : ExponentSign ['+'] false
  | minus : ExponentSign ['-'] true

/-- A letter, perhaps a sign, and at least one digit; or nothing. -/
inductive ExponentPart : List Char → Option Int → Prop where
  | absent : ExponentPart [] none
  | digits {letter : Char} {sign : List Char} {negative : Bool} {ds : List Nat}
      (hletter : letter = 'e' ∨ letter = 'E') (hsign : ExponentSign sign negative)
      (hsome : ds ≠ []) (hdigits : ∀ digit ∈ ds, digit < 10) :
      ExponentPart (letter :: (sign ++ ds.map Nat.digitChar))
        (some (if negative then -(Decimal.value ds : Int) else Decimal.value ds))

/-- The literals of a number, as it is spelled. -/
inductive NumberLiteral : List Char → Number → Prop where
  | plain {first second third : List Char} {whole fraction : List Nat} {exponent : Option Int}
      (hwhole : WholePart first whole) (hfraction : FractionPart second fraction)
      (hexponent : ExponentPart third exponent) :
      NumberLiteral (first ++ (second ++ third)) ⟨false, whole, fraction, exponent⟩
  | minus {first second third : List Char} {whole fraction : List Nat} {exponent : Option Int}
      (hwhole : WholePart first whole) (hfraction : FractionPart second fraction)
      (hexponent : ExponentPart third exponent) :
      NumberLiteral ('-' :: (first ++ (second ++ third))) ⟨true, whole, fraction, exponent⟩

theorem ends_nil : Ends [] := by
  intro c hc
  exact absurd hc (by simp only [List.head?_nil, Option.not_mem_none, not_false_eq_true])

/-- A literal may end before a character that no number goes on with. -/
theorem ends_cons {c : Char} (h : c.isDigit = false ∧ c ≠ '.' ∧ c ≠ 'e' ∧ c ≠ 'E')
    (rest : List Char) : Ends (c :: rest) := by
  intro d hd
  rw [List.head?_cons, Option.mem_some_iff] at hd
  exact hd ▸ h

/-- Where a literal ends no digit follows. -/
theorem Ends.undigited {rest : List Char} (h : Ends rest) : Undigited rest :=
  fun c hc => (h c hc).1

theorem undigited_cons {c : Char} (h : c.isDigit = false) (rest : List Char) :
    Undigited (c :: rest) := by
  intro d hd
  rw [List.head?_cons, Option.mem_some_iff] at hd
  exact hd ▸ h

theorem notMem_head? {c d : Char} (h : d ≠ c) (rest : List Char) : d ∉ (c :: rest).head? := by
  rw [List.head?_cons, Option.mem_some_iff]
  exact fun hsame => h hsame.symm

/-- A digit is told apart from everything else a literal can start with. -/
theorem digitChar_apart : ∀ d < 10,
    (Nat.digitChar d).isDigit = true ∧ (Nat.digitChar d).toNat - 48 = d ∧
      (Nat.digitChar d = '0' → d = 0) ∧ isBlank (Nat.digitChar d) = false ∧
      mark? (Nat.digitChar d) = none ∧ word? (Nat.digitChar d) = none ∧
      Nat.digitChar d ≠ '"' ∧ Nat.digitChar d ≠ '-' ∧ Nat.digitChar d ≠ '+' := by
  decide

/-- No digits are taken where there are none. -/
theorem takeWhile_of_undigited {rest : List Char} (h : Undigited rest) :
    rest.takeWhile Char.isDigit = [] ∧ rest.dropWhile Char.isDigit = rest := by
  rcases rest with _ | ⟨c, rest⟩
  · exact ⟨rfl, rfl⟩
  · have hdigit : ¬ c.isDigit = true := by
      rw [h c rfl]
      exact Bool.false_ne_true
    exact ⟨List.takeWhile_cons_of_neg hdigit, List.dropWhile_cons_of_neg hdigit⟩

/-- Digits are taken up to the first character that is none. -/
theorem spanDigits_append {ds : List Nat} (hds : ∀ d ∈ ds, d < 10) {rest : List Char}
    (hrest : Undigited rest) : spanDigits (ds.map Nat.digitChar ++ rest) = (ds, rest) := by
  have hdigit : ∀ c ∈ ds.map Nat.digitChar, c.isDigit = true := by
    intro c hc
    rcases List.mem_map.1 hc with ⟨d, hd, rfl⟩
    exact (digitChar_apart d (hds d hd)).1
  have hvalues : (ds.map Nat.digitChar).map (fun c => c.toNat - 48) = ds := by
    rw [List.map_map]
    refine (List.map_congr_left fun d hd => ?_).trans (List.map_id _)
    exact (digitChar_apart d (hds d hd)).2.1
  rw [spanDigits, List.takeWhile_append_of_pos hdigit, List.dropWhile_append_of_pos hdigit,
    (takeWhile_of_undigited hrest).1, (takeWhile_of_undigited hrest).2, List.append_nil, hvalues]

/-- A whole part is read as its digits. -/
theorem readWhole_append {input : List Char} {whole : List Nat} (h : WholePart input whole)
    {rest : List Char} (hrest : Undigited rest) :
    readWhole (input ++ rest) = some (whole, rest) := by
  cases h with
  | zero => rfl
  | @digits d ds hfirst hdigits =>
      have hspan := spanDigits_append hdigits hrest
      have hd := digitChar_apart d (hdigits d List.mem_cons_self)
      rw [List.map_cons, List.cons_append] at hspan ⊢
      rw [readWhole, if_neg fun hzero => hfirst (hd.2.2.1 hzero), if_pos hd.1, hspan]

/-- A fraction is read as its digits, and none is read where there is no point. -/
theorem readFraction_append {input : List Char} {fraction : List Nat}
    (h : FractionPart input fraction) {rest : List Char} (hrest : Undigited rest)
    (hpoint : '.' ∉ rest.head?) :
    readFraction (input ++ rest) = some (fraction, rest) := by
  cases h with
  | absent =>
      rcases rest with _ | ⟨c, rest⟩
      · rfl
      · rw [List.nil_append, readFraction, if_neg fun h => hpoint (by rw [h]; rfl)]
  | digits hsome hdigits =>
      have hspan := spanDigits_append hdigits hrest
      rw [List.cons_append, readFraction, if_pos rfl]
      simp only [hspan, if_neg hsome]

/-- A sign is read if there is one. -/
theorem readSign_append {sign : List Char} {negative : Bool} (h : ExponentSign sign negative)
    {rest : List Char} (hplus : '+' ∉ rest.head?) (hminus : '-' ∉ rest.head?) :
    readSign (sign ++ rest) = (negative, rest) := by
  cases h with
  | absent =>
      rcases rest with _ | ⟨c, rest⟩
      · rfl
      · rw [List.nil_append, readSign, if_neg fun h => hminus (by rw [h]; rfl),
          if_neg fun h => hplus (by rw [h]; rfl)]
  | plus => rfl
  | minus => rfl

/-- An exponent is read as its value. -/
theorem readExponent_append {input : List Char} {exponent : Option Int}
    (h : ExponentPart input exponent) {rest : List Char} (hrest : Ends rest) :
    readExponent (input ++ rest) = some (exponent, rest) := by
  cases h with
  | absent =>
      rcases rest with _ | ⟨c, rest⟩
      · rfl
      · rw [List.nil_append, readExponent, if_neg (by rw [not_or]; exact (hrest c rfl).2.2)]
  | @digits letter sign negative ds hletter hsign hsome hdigits =>
      have hspan := spanDigits_append hdigits hrest.undigited
      rcases ds with _ | ⟨d, ds⟩
      · exact absurd rfl hsome
      · rcases digitChar_apart d (hdigits d List.mem_cons_self) with
          ⟨-, -, -, -, -, -, -, hminus, hplus⟩
        -- The first digit is no sign, so the sign ends where the digits start.
        have hsigned : readSign (sign ++ ((d :: ds).map Nat.digitChar ++ rest)) =
            (negative, (d :: ds).map Nat.digitChar ++ rest) :=
          readSign_append hsign (notMem_head? hplus.symm _) (notMem_head? hminus.symm _)
        rw [List.cons_append, List.append_assoc, readExponent, if_pos hletter]
        simp only [hsigned, hspan, if_neg hsome]

-- What follows one part of a number is the next part that is there.
theorem exponent_follows {input : List Char} {exponent : Option Int}
    (h : ExponentPart input exponent) {rest : List Char} (hrest : Ends rest) :
    Undigited (input ++ rest) ∧ '.' ∉ (input ++ rest).head? := by
  cases h with
  | absent => exact ⟨hrest.undigited, fun hpoint => (hrest '.' hpoint).2.1 rfl⟩
  | digits hletter hsign hsome hdigits =>
      rcases hletter with rfl | rfl
      · exact ⟨undigited_cons (by decide) _, notMem_head? (by decide) _⟩
      · exact ⟨undigited_cons (by decide) _, notMem_head? (by decide) _⟩

/-- No digit of the whole part is left once the fraction begins. -/
theorem fraction_follows {input : List Char} {fraction : List Nat}
    (h : FractionPart input fraction) {rest : List Char} (hrest : Undigited rest) :
    Undigited (input ++ rest) := by
  cases h with
  | absent => exact hrest
  | digits hsome hdigits => exact undigited_cons (by decide) _

/-- A number is read up to its end. -/
theorem readNumber_append {first second third : List Char} {whole fraction : List Nat}
    {exponent : Option Int} (hwhole : WholePart first whole)
    (hfraction : FractionPart second fraction) (hexponent : ExponentPart third exponent)
    (negative : Bool) {rest : List Char} (hrest : Ends rest) :
    readNumber negative (first ++ (second ++ third) ++ rest) =
      some (.number ⟨negative, whole, fraction, exponent⟩, rest) := by
  rcases exponent_follows hexponent hrest with ⟨hundigited, hpoint⟩
  rw [readNumber, List.append_assoc, List.append_assoc,
    readWhole_append hwhole (fraction_follows hfraction hundigited)]
  simp only [readFraction_append hfraction hundigited hpoint, readExponent_append hexponent hrest,
    Option.bind_eq_bind, Option.bind_some]

/-! ### Strings -/

/-- A hexadecimal digit in either case. -/
def HexDigit (c : Char) (n : Nat) : Prop :=
  n < 16 ∧ (c = Nat.digitChar n ∨ c = (Nat.digitChar n).toUpper)

/-- The letters of short escapes, and the code units they stand for. -/
def shortEscapes : List (Char × Nat) :=
  [('"', 0x22), ('\\', 0x5C), ('/', 0x2F), ('b', 0x08), ('f', 0x0C), ('n', 0x0A), ('r', 0x0D),
    ('t', 0x09)]

/-- The inside of a string, and its code units. -/
inductive Units : List Char → List Nat → Prop where
  | nil : Units [] []
  | plain {c : Char} {input : List Char} {units : List Nat} (hquote : c ≠ '"') (hslash : c ≠ '\\')
      (hcontrol : 0x20 ≤ c.toNat) (htail : Units input units) :
      Units (c :: input) (c.toNat :: units)
  | short {letter : Char} {unit : Nat} {input : List Char} {units : List Nat}
      (hescape : (letter, unit) ∈ shortEscapes) (htail : Units input units) :
      Units ('\\' :: letter :: input) (unit :: units)
  | hex {a b c d : Char} {i j k l : Nat} {input : List Char} {units : List Nat}
      (ha : HexDigit a i) (hb : HexDigit b j) (hc : HexDigit c k) (hd : HexDigit d l)
      (htail : Units input units) :
      Units ('\\' :: 'u' :: a :: b :: c :: d :: input)
        ((4096 * i + 256 * j + 16 * k + l) :: units)

/-- The code units spell the characters. A character past U+FFFF may stand as
    a whole or as a surrogate pair. -/
inductive Joins : List Nat → List Char → Prop where
  | nil : Joins [] []
  | one {c : Char} {units : List Nat} {chars : List Char} (htail : Joins units chars) :
      Joins (c.toNat :: units) (c :: chars)
  | pair {high low : Nat} {c : Char} {units : List Nat} {chars : List Char}
      (hhigh : 0xD800 ≤ high ∧ high < 0xDC00) (hlow : 0xDC00 ≤ low ∧ low < 0xE000)
      (hc : c.toNat = 0x10000 + 0x400 * (high - 0xD800) + (low - 0xDC00))
      (htail : Joins units chars) : Joins (high :: low :: units) (c :: chars)

/-- The literals of a text; and of no text, if the literal has half a
    character in it. -/
def TextLiteral (input : List Char) (content : Option String) : Prop :=
  ∃ inside units, input = '"' :: (inside ++ ['"']) ∧ Units inside units ∧
    ∀ text, content = some text ↔ Joins units text.toList

theorem hexDigit_digitChar {n : Nat} (h : n < 16) : HexDigit (Nat.digitChar n) n :=
  ⟨h, .inl rfl⟩

/-- Both spellings of a digit are read. -/
theorem hexDigit?_eq {c : Char} {n : Nat} (h : HexDigit c n) : hexDigit? c = some n := by
  have hlower : ∀ n < 16, hexDigit? (Nat.digitChar n) = some n := by decide
  have hupper : ∀ n < 16, hexDigit? (Nat.digitChar n).toUpper = some n := by decide
  rcases h with ⟨hn, rfl | rfl⟩
  · exact hlower n hn
  · exact hupper n hn

/-- A short escape is read as its unit. -/
theorem readEscape_short {letter : Char} {unit : Nat} (h : (letter, unit) ∈ shortEscapes)
    (rest : List Char) : readEscape (letter :: rest) = some (unit, rest) := by
  simp only [shortEscapes, List.mem_cons, Prod.mk.injEq, List.not_mem_nil, or_false] at h
  rcases h with ⟨rfl, rfl⟩ | ⟨rfl, rfl⟩ | ⟨rfl, rfl⟩ | ⟨rfl, rfl⟩ | ⟨rfl, rfl⟩ | ⟨rfl, rfl⟩ |
    ⟨rfl, rfl⟩ | ⟨rfl, rfl⟩
  all_goals rfl

/-- Four digits are read as their unit. -/
theorem readEscape_hex {a b c d : Char} {i j k l : Nat} (ha : HexDigit a i) (hb : HexDigit b j)
    (hc : HexDigit c k) (hd : HexDigit d l) (rest : List Char) :
    readEscape ('u' :: a :: b :: c :: d :: rest) =
      some (4096 * i + 256 * j + 16 * k + l, rest) := by
  have hvalue : ((i * 16 + j) * 16 + k) * 16 + l = 4096 * i + 256 * j + 16 * k + l := by omega
  rw [readEscape, if_pos rfl]
  simp only [readHex, hexDigit?_eq ha, hexDigit?_eq hb, hexDigit?_eq hc, hexDigit?_eq hd,
    Option.bind_eq_bind, Option.bind_some, hvalue]

/-- The inside of a string is read to its code units. -/
theorem readUnits_append {inside : List Char} {units : List Nat} (h : Units inside units)
    (rest : List Char) :
    ∀ done, readUnits done (inside ++ '"' :: rest) = some (done.reverse ++ units, rest) := by
  -- The induction is on the units, and the reader takes one of them in each
  -- case.
  induction h with
  | nil =>
      intro done
      rw [List.nil_append, readUnits_end, List.append_nil]
  | plain hquote hslash hcontrol _ ih =>
      intro done
      rw [List.cons_append, readUnits_plain hquote hslash (Nat.not_lt.2 hcontrol), ih,
        List.reverse_cons, List.append_assoc, List.singleton_append]
  | short hescape _ ih =>
      intro done
      rw [List.cons_append, List.cons_append, readUnits_escape (readEscape_short hescape _), ih,
        List.reverse_cons, List.append_assoc, List.singleton_append]
  | hex ha hb hc hd _ ih =>
      intro done
      simp only [List.cons_append]
      rw [readUnits_escape (readEscape_hex ha hb hc hd _), ih, List.reverse_cons,
        List.append_assoc, List.singleton_append]

theorem lt_of_shortEscapes {letter : Char} {unit : Nat} (h : (letter, unit) ∈ shortEscapes) :
    unit < 0x80 := by
  have hall : ∀ escape ∈ shortEscapes, escape.2 < 0x80 := by decide
  exact hall _ h

/-- No unit is beyond the last code point. -/
theorem lt_of_units {inside : List Char} {units : List Nat} (h : Units inside units) :
    ∀ unit ∈ units, unit < 0x110000 := by
  induction h with
  | nil => exact fun unit h => absurd h List.not_mem_nil
  | @plain c _ _ _ _ _ _ ih =>
      -- The bound holds of every character.
      have hc : c.toNat < 0x110000 := by
        have hvalid : c.toNat < 0xD800 ∨ (0xDFFF < c.toNat ∧ c.toNat < 0x110000) := c.valid
        omega
      exact List.forall_mem_cons.2 ⟨hc, ih⟩
  | short hescape _ ih =>
      have := lt_of_shortEscapes hescape
      exact List.forall_mem_cons.2 ⟨by omega, ih⟩
  | hex ha hb hc hd _ ih =>
      have := ha.1
      have := hb.1
      have := hc.1
      have := hd.1
      exact List.forall_mem_cons.2 ⟨by omega, ih⟩

theorem isHighHalf_iff {unit : Nat} :
    isHighHalf unit = true ↔ 0xD800 ≤ unit ∧ unit < 0xDC00 := by
  rw [isHighHalf, Bool.and_eq_true, decide_eq_true_eq, decide_eq_true_eq]

theorem isLowHalf_iff {unit : Nat} :
    isLowHalf unit = true ↔ 0xDC00 ≤ unit ∧ unit < 0xE000 := by
  rw [isLowHalf, Bool.and_eq_true, decide_eq_true_eq, decide_eq_true_eq]

/-- Units that join to characters are read as these. -/
theorem joinUnits_of_joins {units : List Nat} {chars : List Char} (h : Joins units chars) :
    ∀ done, joinUnits done none units = some (done.reverse ++ chars) := by
  induction h with
  | nil =>
      intro done
      rw [List.append_nil]
      rfl
  | @one c _ _ _ ih =>
      intro done
      rcases not_half_toNat c with ⟨hhigh, hlow⟩
      simp only [joinUnits, hhigh, hlow, Bool.false_eq_true, if_false, Char.ofNat_toNat, ih,
        List.reverse_cons, List.append_assoc, List.singleton_append]
  | @pair high low c _ _ hhigh hlow hc _ ih =>
      intro done
      have hcode : 0x10000 + (high - 0xD800) * 0x400 + (low - 0xDC00) = c.toNat := by omega
      simp only [joinUnits, isHighHalf_iff.2 hhigh, isLowHalf_iff.2 hlow, if_true, hcode,
        Char.ofNat_toNat, ih, List.reverse_cons, List.append_assoc, List.singleton_append]

theorem toNat_ofNat_of_apart {n : Nat} (h : n < 0xD800 ∨ (0xDFFF < n ∧ n < 0x110000)) :
    (Char.ofNat n).toNat = n := by
  have hvalid : n.isValidChar := h
  rw [Char.ofNat, dif_pos hvalid]
  rfl

-- The half that waits stands before the units that are left. The induction
-- follows the reader, unit by unit.
theorem joins_of_joinUnits {done : List Char} {high : Option Nat} {units : List Nat}
    {chars : List Char} (hhigh : ∀ half ∈ high, 0xD800 ≤ half ∧ half < 0xDC00)
    (hunits : ∀ unit ∈ units, unit < 0x110000) (h : joinUnits done high units = some chars) :
    ∃ tail, Joins (high.toList ++ units) tail ∧ chars = done.reverse ++ tail := by
  fun_induction joinUnits done high units with
  | case1 done =>
      rw [Option.some.injEq] at h
      exact ⟨[], .nil, by rw [← h, List.append_nil]⟩
  | case2 => exact absurd h (by simp only [reduceCtorEq, not_false_eq_true])
  -- Two halves make a character beyond those with one unit.
  | case3 done unit rest half hlow code ih =>
      rw [List.forall_mem_cons] at hunits
      have hhalf := hhigh half rfl
      rw [isLowHalf_iff] at hlow
      rcases ih (fun _ hnone => absurd hnone (Option.not_mem_none _)) hunits.2 h with
        ⟨tail, hjoins, hchars⟩
      have hcode : (Char.ofNat code).toNat = code :=
        toNat_ofNat_of_apart (.inr ⟨by omega, by omega⟩)
      refine ⟨Char.ofNat code :: tail, .pair hhalf hlow (by omega) hjoins, ?_⟩
      rw [hchars, List.reverse_cons, List.append_assoc, List.singleton_append]
  | case4 => exact absurd h (by simp only [reduceCtorEq, not_false_eq_true])
  -- The first half of a pair waits for the second.
  | case5 done unit rest hhalf ih =>
      rw [List.forall_mem_cons] at hunits
      refine ih (fun half hsome => ?_) hunits.2 h
      rw [Option.mem_some_iff.1 hsome] at hhalf
      exact isHighHalf_iff.1 hhalf
  | case6 => exact absurd h (by simp only [reduceCtorEq, not_false_eq_true])
  -- A unit that is no half is a character.
  | case7 done unit rest hhalf hlow ih =>
      rw [List.forall_mem_cons] at hunits
      rw [isHighHalf_iff] at hhalf
      rw [isLowHalf_iff] at hlow
      rcases ih (fun _ hnone => absurd hnone (Option.not_mem_none _)) hunits.2 h with
        ⟨tail, hjoins, hchars⟩
      have hunit : (Char.ofNat unit).toNat = unit := toNat_ofNat_of_apart (by omega)
      have hone := Joins.one (c := Char.ofNat unit) hjoins
      rw [hunit] at hone
      refine ⟨Char.ofNat unit :: tail, hone, ?_⟩
      rw [hchars, List.reverse_cons, List.append_assoc, List.singleton_append]

/-- Code units are joined to what they spell. -/
theorem joinUnits_eq_some_iff {units : List Nat} (hunits : ∀ unit ∈ units, unit < 0x110000)
    {chars : List Char} : joinUnits [] none units = some chars ↔ Joins units chars := by
  constructor
  · intro h
    rcases joins_of_joinUnits (fun _ hnone => absurd hnone (Option.not_mem_none _)) hunits h with
      ⟨tail, hjoins, rfl⟩
    exact hjoins
  · intro h
    exact joinUnits_of_joins h []

/-- A string is read up to its end, to what it spells. -/
theorem readString_append {inside : List Char} {units : List Nat} {content : Option String}
    (hunits : Units inside units)
    (hcontent : ∀ text, content = some text ↔ Joins units text.toList) (rest : List Char) :
    readString (inside ++ '"' :: rest) = some (.text content, rest) := by
  have hread := readUnits_append hunits rest []
  -- A string that cannot be joined has no content, and is still a string.
  have hjoined : (joinUnits [] none units).map String.ofList = content := by
    refine Option.ext fun text => ?_
    rw [Option.map_eq_some_iff, hcontent]
    constructor
    · rintro ⟨chars, hjoin, rfl⟩
      rw [String.toList_ofList]
      exact (joinUnits_eq_some_iff (lt_of_units hunits)).1 hjoin
    · intro hjoins
      exact ⟨text.toList, joinUnits_of_joins hjoins [], String.ofList_toList⟩
  rw [List.reverse_nil, List.nil_append] at hread
  simp only [readString, hread, Option.bind_eq_bind, Option.bind_some, hjoined]

/-! ### Compact literals -/

/-- Only zero starts with a zero. -/
theorem digits_eq_cons (n : Nat) :
    ∃ d rest, Decimal.digits n = d :: rest ∧ (d = 0 → n = 0) := by
  induction n using Nat.strongRecOn with
  | ind n ih =>
      by_cases h : n < 10
      · exact ⟨n, [], Decimal.digits_of_lt h, id⟩
      · rcases ih (n / 10) (by omega) with ⟨d, rest, hquotient, hzero⟩
        refine ⟨d, rest ++ [n % 10], ?_, fun hd => ?_⟩
        · rw [Decimal.digits_append (by omega), hquotient, List.cons_append]
        · have := hzero hd
          omega

/-- A number that is written is a literal of it. -/
theorem numberLiteral_toChars (n : Nat) : NumberLiteral (Decimal.toChars n) (.ofNat n) := by
  have hwhole : WholePart (Decimal.toChars n) (Decimal.digits n) := by
    by_cases hn : n = 0
    · rw [hn, Decimal.toChars, Decimal.digits_of_lt (by omega)]
      exact .zero
    · rcases digits_eq_cons n with ⟨d, ds, hdigits, hzero⟩
      have hlt := Decimal.lt_of_mem_digits n
      rw [hdigits] at hlt
      rw [Decimal.toChars, hdigits]
      exact .digits (fun hd => hn (hzero hd)) hlt
  have hliteral := NumberLiteral.plain hwhole .absent .absent
  rw [List.append_nil, List.append_nil] at hliteral
  exact hliteral

/-- A written character is one unit, the number of its code point. -/
theorem units_quoteChar (c : Char) {input : List Char} {units : List Nat}
    (h : Units input units) : Units (quoteChar c ++ input) (c.toNat :: units) := by
  by_cases hshort : c ∈ shortlyEscaped
  · simp only [shortlyEscaped, List.mem_cons, List.not_mem_nil, or_false] at hshort
    rcases hshort with rfl | rfl | rfl | rfl | rfl | rfl | rfl
    all_goals exact .short (by decide) h
  · rw [quoteChar_of_notMem hshort]
    by_cases hcontrol : c.toNat < 0x20
    · -- The code of a control character has two digits that count.
      have hunit : 4096 * 0 + 256 * 0 + 16 * (c.toNat / 16) + c.toNat % 16 = c.toNat := by omega
      have hzero : HexDigit '0' 0 := hexDigit_digitChar (by omega)
      have hhex := Units.hex hzero hzero (hexDigit_digitChar (n := c.toNat / 16) (by omega))
        (hexDigit_digitChar (n := c.toNat % 16) (by omega)) h
      rw [hunit] at hhex
      rw [if_pos hcontrol]
      exact hhex
    · simp only [shortlyEscaped, List.mem_cons, List.not_mem_nil, or_false, not_or] at hshort
      rw [if_neg hcontrol]
      exact .plain hshort.1 hshort.2.1 (Nat.not_lt.1 hcontrol) h

/-- A text that is quoted has its characters as units. -/
theorem units_quoted (chars : List Char) :
    Units (chars.flatMap quoteChar) (chars.map Char.toNat) := by
  induction chars with
  | nil => exact .nil
  | cons c chars ih => exact units_quoteChar c ih

/-- Characters join to themselves. -/
theorem joins_toNat (chars : List Char) : Joins (chars.map Char.toNat) chars := by
  induction chars with
  | nil => exact .nil
  | cons c chars ih => exact .one ih

/-- Code units spell no two runs of characters. -/
theorem Joins.unique {units : List Nat} {chars other : List Char} (h : Joins units chars)
    (hother : Joins units other) : chars = other := by
  have hchars := joinUnits_of_joins h []
  rw [joinUnits_of_joins hother []] at hchars
  exact (Option.some.inj hchars).symm

/-- A text is spelled by its own literal. -/
theorem textLiteral_quote (text : String) : TextLiteral (quote text) (some text) := by
  refine ⟨_, _, rfl, units_quoted text.toList, fun other => ?_⟩
  constructor
  · intro h
    rw [← Option.some.inj h]
    exact joins_toNat text.toList
  · intro h
    rw [String.toList_inj.1 ((joins_toNat text.toList).unique h)]

end Json

end RespBus
