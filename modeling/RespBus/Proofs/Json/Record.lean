import RespBus.Json.Record
import RespBus.Proofs.Decimal

/-!
# Records Looked Up

A record written as an object names its fields, and where no name stands twice
each look-up finds the one field with its name. So there is one equation for
all look-ups: both of them are the look-up in the list of fields. It is enough
that the names which are looked up do not stand twice, so the fields may stand
among members with other names, and those may repeat. `Lists` is that
situation. Where a name that is looked up does stand twice, there is nothing
to be found.

The only values of such records are texts, natural numbers and records
again. All of them can be stored, a number because a double has room for
everything that a 64-bit word can hold. Rounding never doubles a number,
which is all that has to be known about it here: the bound for a double is
far away.

## Main definitions

* `Json.Number.ofNat`: The literal of a natural number.
* `Json.Value.record`: A record written as an object.
* `Json.Lists`: The fields of a record among members with other names.

## Theorems

* `Json.Number.natural?_ofNat`: A literal stands for its number.
* `Json.Number.isFinite_ofNat`: A word fits a double.
* `Json.Value.record?_of_count`: A record is looked up in its fields.
* `Json.only?_of_count`: So is a key that has to stand exactly once.
* `Json.Value.isStorable_record`: A record is stored if its fields are.
* `Json.Lists.lookup_eq`: A known name is looked up in the listed fields.
* `Json.record?_eq_none`, `Json.only?_eq_none`: A name that stands twice.
-/

namespace RespBus

namespace Json

/-- The literal of a natural number. -/
def Number.ofNat (n : Nat) : Number :=
  ⟨false, Decimal.digits n, [], none⟩

/-- A record written as an object. -/
def Value.record (fields : List (String × Value)) : Value :=
  .object (fields.map fun field => (some field.1, field.2))

/-! ### Numbers -/

/-- A natural number is read back from its literal. -/
theorem Number.natural?_ofNat (n : Nat) : (ofNat n).natural? = some n := by
  rw [natural?, if_pos ⟨rfl, rfl, rfl⟩, ofNat, Decimal.value_digits]

/-- A natural number below the bound is read back. -/
theorem Value.naturalBelow?_ofNat {n bound : Nat} (h : n < bound) :
    naturalBelow? bound (.number (.ofNat n)) = some n := by
  rw [naturalBelow?, Number.natural?_ofNat]
  exact if_pos h

theorem Value.text?_text (content : String) : text? (.text (some content)) = some content := rfl

theorem takeDigits_nil (word : Nat) : takeDigits word [] = (word, []) := rfl

theorem takeDigits_cons (word d : Nat) (rest : List Nat) :
    takeDigits word (d :: rest) =
      if 10 * word + d < Nat.pow 2 64 then takeDigits (10 * word + d) rest
      else (word, d :: rest) := rfl

/-- More digits make no number smaller. -/
theorem le_foldl_digits (ds : List Nat) :
    ∀ word, word ≤ ds.foldl (fun v d => 10 * v + d) word := by
  induction ds with
  | nil =>
      intro word
      exact Nat.le_refl word
  | cons d ds ih =>
      intro word
      have := ih (10 * word + d)
      rw [List.foldl_cons]
      omega

-- No digit is left over, since the word is never larger than in the end.
theorem takeDigits_of_lt {ds : List Nat} :
    ∀ {word : Nat}, ds.foldl (fun v d => 10 * v + d) word < Nat.pow 2 64 →
      takeDigits word ds = (ds.foldl (fun v d => 10 * v + d) word, []) := by
  induction ds with
  | nil =>
      intro word _
      exact takeDigits_nil word
  | cons d ds ih =>
      intro word h
      rw [List.foldl_cons] at h ⊢
      have hroom := Nat.lt_of_le_of_lt (le_foldl_digits ds (10 * word + d)) h
      rw [takeDigits_cons, if_pos hroom, ih h]

/-- All digits of a word are taken. -/
theorem takeDigits_digits {n : Nat} (h : n < Nat.pow 2 64) :
    takeDigits 0 (Decimal.digits n) = (n, []) := by
  have hvalue := Decimal.value_digits n
  rw [Decimal.value] at hvalue
  rw [takeDigits_of_lt (by rw [hvalue]; exact h), hvalue]

/-- Rounding to the nearest at most doubles a number. -/
theorem roundBits_le {n : Nat} (h : n ≠ 0) : roundBits n ≤ 2 * n := by
  -- The unit of rounding is not larger than the number itself.
  have hunit : Nat.pow 2 (n.log2 - 52) ≤ n :=
    Nat.le_trans (Nat.pow_le_pow_right (by omega) (Nat.sub_le n.log2 52)) (Nat.log2_self_le h)
  have hquotient := Nat.div_mul_le_self n (Nat.pow 2 (n.log2 - 52))
  simp only [roundBits]
  split
  · omega
  · rw [Nat.succ_mul]
    omega

theorem roundBits_one : roundBits 1 = 1 := by
  decide +kernel

/-- A word fits a double: even twice the largest one is far below the bound. -/
theorem Number.isFinite_ofNat {n : Nat} (h : n < Nat.pow 2 64) : (ofNat n).isFinite = true := by
  have hbound : 2 * Nat.pow 2 64 < overflow := by decide +kernel
  have hscaled : n = 0 ∨ roundBits n * roundBits (Nat.pow 10 0) < overflow := by
    by_cases hn : n = 0
    · exact .inl hn
    · have hround := roundBits_le hn
      have hone : roundBits (Nat.pow 10 0) = 1 := roundBits_one
      rw [hone]
      omega
  simp only [isFinite, ofNat, takeDigits_digits h, takeDigits_nil, List.length_nil,
    Option.getD_none, Bool.or_eq_true, Bool.and_eq_true, beq_iff_eq, decide_eq_true_eq]
  rcases hscaled with hn | hlt
  · exact .inl (.inl hn)
  · exact .inr ⟨by decide, hlt⟩

/-! ### Look-ups -/

/-- A field of a record is looked up by its name. -/
theorem lookup_record (fields : List (String × Value)) (name : String) :
    (fields.map fun field => (some field.1, field.2)).lookup (some name) =
      fields.lookup name := by
  induction fields with
  | nil => rfl
  | cons field fields ih =>
      rw [List.map_cons, List.lookup_cons, List.lookup_cons, ih]
      rfl

/-- A record in which no name to be looked up stands twice is looked up in its
    fields. -/
theorem Value.record?_of_count {fields : List (String × Value)} {names : List String}
    (h : ∀ name ∈ names, (fields.map Prod.fst).count name ≤ 1) :
    (record fields).record? names = some fun name => fields.lookup name := by
  -- All names of a record can be read, so only how often they occur is left to
  -- ask.
  have hkeys : (fields.map fun field => (some field.1, field.2)).map Prod.fst =
      (fields.map Prod.fst).map some := by
    rw [List.map_map, List.map_map]
    rfl
  have hcount : ∀ name ∈ names, ((fields.map Prod.fst).map some).count (some name) ≤ 1 := by
    intro name hname
    rw [List.count, List.countP_map]
    exact h name hname
  have hkey : ((fields.map Prod.fst).map some).all Option.isSome = true := by
    rw [List.all_map]
    exact List.all_eq_true.2 fun key _ => rfl
  simp only [record, record?, hkeys, hkey, Bool.true_and]
  rw [if_pos (List.all_eq_true.2 fun name hname => decide_eq_true (hcount name hname))]
  simp only [lookup_record]

/-- A key that does not stand twice is looked up in the fields. -/
theorem only?_of_count {fields : List (String × Value)} {key : String}
    (h : (fields.map Prod.fst).count key ≤ 1) :
    only? key (fields.map fun field => (some field.1, field.2)) = fields.lookup key := by
  induction fields with
  | nil => rfl
  | cons field fields ih =>
      rw [List.map_cons, List.count_cons] at h
      have htail := ih (by omega)
      rw [only?] at htail ⊢
      rw [List.map_cons, List.lookup_cons]
      by_cases hkey : key = field.1
      · -- Nothing else in the record has the name of its first field.
        have hsame : (key == field.1) = true := beq_iff_eq.2 hkey
        have hfirst : (some field.1 == some key) = true := by rw [hkey, beq_self_eq_true]
        have hcount : (fields.map Prod.fst).count key = 0 := by
          rw [if_pos (beq_iff_eq.2 hkey.symm)] at h
          omega
        have hnone : (fields.map fun field => (some field.1, field.2)).filter
            (fun member => member.1 == some key) = [] := by
          rw [List.filter_eq_nil_iff]
          intro member hmember hfound
          rcases List.mem_map.1 hmember with ⟨other, hother, rfl⟩
          rw [beq_iff_eq, Option.some.injEq] at hfound
          exact List.count_eq_zero.1 hcount (hfound ▸ List.mem_map_of_mem hother)
        simp only [List.filter_cons, hfirst, if_true, hnone, hsame]
      · have hfirst : (some field.1 == some key) = false := by
          rw [beq_eq_false_iff_ne, ne_eq, Option.some.injEq]
          exact fun h => hkey h.symm
        have hother : (key == field.1) = false := beq_eq_false_iff_ne.2 hkey
        simp only [List.filter_cons, hfirst, Bool.false_eq_true, if_false, htail, hother]

theorem Value.isStorable_record (levels : Nat) (fields : List (String × Value)) :
    (record fields).isStorable (levels + 1) =
      fields.all fun field => field.2.isStorable levels := by
  rw [record, isStorable, List.all_map]
  rfl

/-! ### Fields among other members -/

/-- The members are the given fields, in some order and among any others, of
    which none has a known name. -/
def Lists (known : List String) (fields all : List (String × Value)) : Prop :=
  ∃ others : List (String × Value), (∀ other ∈ others, other.1 ∉ known) ∧
    all.Perm (fields ++ others)

/-- A name that occurs once is looked up just if it is there. -/
theorem lookup_eq_some_iff_mem {κ : Type} [BEq κ] [LawfulBEq κ] {fields : List (κ × Value)}
    {name : κ} {value : Value} (h : (fields.map Prod.fst).count name ≤ 1) :
    fields.lookup name = some value ↔ (name, value) ∈ fields := by
  induction fields with
  | nil => simp only [List.lookup_nil, reduceCtorEq, List.not_mem_nil]
  | cons field fields ih =>
      rw [List.map_cons, List.count_cons] at h
      rw [List.lookup_cons, List.mem_cons]
      by_cases hname : name = field.1
      · have hcount : (fields.map Prod.fst).count name = 0 := by
          rw [if_pos (beq_iff_eq.2 hname.symm)] at h
          omega
        -- The first field has the name, so no other has it.
        have hnone : (name, value) ∉ fields := fun hmem =>
          List.count_eq_zero.1 hcount (List.mem_map_of_mem (f := Prod.fst) hmem)
        simp only [beq_iff_eq.2 hname, Option.some.injEq, hnone, or_false]
        rw [Prod.ext_iff]
        exact ⟨fun h => ⟨hname, h.symm⟩, fun h => h.2.symm⟩
      · have hother : (name, value) ≠ field := fun h => hname (congrArg Prod.fst h)
        simp only [beq_eq_false_iff_ne.2 hname, hother, false_or]
        exact ih (by omega)

namespace Lists

variable {known : List String} {fields all : List (String × Value)}

/-- The members that are passed over make no difference to how often a field is
    listed. -/
theorem count_eq (h : Lists known fields all) {name : String} (hname : name ∈ known) :
    (all.map Prod.fst).count name = (fields.map Prod.fst).count name := by
  rcases h with ⟨others, hothers, hperm⟩
  have hnone : (others.map Prod.fst).count name = 0 := by
    refine List.count_eq_zero.2 fun hmem => ?_
    rcases List.mem_map.1 hmem with ⟨other, hother, rfl⟩
    exact hothers other hother hname
  rw [(hperm.map Prod.fst).count_eq, List.map_append, List.count_append, hnone, Nat.add_zero]

/-- A known name is looked up in the fields. -/
theorem lookup_eq (h : Lists known fields all) (hnodup : (fields.map Prod.fst).Nodup)
    {name : String} (hname : name ∈ known) : all.lookup name = fields.lookup name := by
  have hcount := List.nodup_iff_count.1 hnodup name
  have hall := h.count_eq hname
  rcases h with ⟨others, hothers, hperm⟩
  refine Option.ext fun value => ?_
  rw [lookup_eq_some_iff_mem (by omega), lookup_eq_some_iff_mem hcount, hperm.mem_iff,
    List.mem_append]
  exact or_iff_left fun hmem => hothers _ hmem hname

/-- A record is read if no field is listed twice. -/
theorem record?_eq (h : Lists known fields all) (hnodup : (fields.map Prod.fst).Nodup) :
    (Value.record all).record? known = some fun name => all.lookup name := by
  refine Value.record?_of_count fun name hname => ?_
  rw [h.count_eq hname]
  exact List.nodup_iff_count.1 hnodup name

/-- A field of a listing is found among all members. -/
theorem only?_eq (h : Lists known fields all) (hnodup : (fields.map Prod.fst).Nodup)
    {name : String} (hname : name ∈ known) :
    only? name (all.map fun field => (some field.1, field.2)) = fields.lookup name := by
  rw [only?_of_count (by rw [h.count_eq hname]; exact List.nodup_iff_count.1 hnodup name),
    h.lookup_eq hnodup hname]

end Lists

/-- Of some fields only those listed are looked up. -/
theorem lookup_filter (fields : List (String × Value)) (listed : String → Bool) (name : String) :
    (fields.filter fun field => listed field.1).lookup name =
      if listed name then fields.lookup name else none := by
  induction fields with
  | nil => rw [List.filter_nil, List.lookup_nil, ite_self]
  | cons field fields ih =>
      rw [List.filter_cons, List.lookup_cons]
      -- The first field is the one that is looked up, or it stands in no one's
      -- way.
      by_cases hname : name = field.1
      · by_cases hlisted : listed field.1 = true
        · rw [if_pos hlisted, List.lookup_cons, hname, if_pos hlisted]
          simp only [beq_self_eq_true]
        · rw [if_neg hlisted, ih, hname, if_neg hlisted, if_neg hlisted]
      · have hother : (name == field.1) = false := beq_eq_false_iff_ne.2 hname
        simp only [hother]
        split
        · rw [List.lookup_cons, hother]
          exact ih
        · exact ih

/-! ### Names that stand twice -/

/-- A record with a field listed twice is refused. -/
theorem record?_eq_none {names : List String} {members : List (Option String × Value)}
    {name : String} (hname : name ∈ names) (htwice : 2 ≤ (members.map Prod.fst).count (some name)) :
    (Value.object members).record? names = none := by
  have hmany : names.all (fun name => (members.map Prod.fst).count (some name) ≤ 1) = false := by
    rw [List.all_eq_false]
    exact ⟨name, hname, by rw [decide_eq_true_eq]; omega⟩
  simp only [Value.record?, hmany, Bool.and_false, Bool.false_eq_true, if_false]

/-- A member listed twice is not found. -/
theorem only?_eq_none {key : String} {members : List (Option String × Value)}
    (htwice : 2 ≤ (members.map Prod.fst).count (some key)) : only? key members = none := by
  rw [List.count, List.countP_map, List.countP_eq_length_filter] at htwice
  have hmany : 2 ≤ (members.filter fun member => member.1 == some key).length := htwice
  rw [only?]
  split
  · rename_i member hsingle
    rw [hsingle, List.length_singleton] at hmany
    exact absurd hmany (by decide)
  · rfl

end Json

end RespBus
