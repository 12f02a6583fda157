import RespBus.Decimal

/-!
# Decimal Numbers Read Back

What is written in digits reads back as the number that was written. The
digits come most significant first, so both directions go by the last one: it
is the remainder by ten, and the digits before it are those of the quotient.
`digits_append` is that step, and the inductions are on the quotient.

A digit and its byte are told apart by nothing, as all digits are below ten,
so `values_toBytes` gives the digits back. Whoever reads bytes has only to
say what the values of digit bytes spell. The characters of a number are as
many bytes, and the same ones.

How many digits there are can be counted without producing them. The first of
them is zero for the number zero only.

## Theorems

* `Decimal.value_digits`: The digits of a number spell it.
* `Decimal.isDigit_of_mem_toBytes`: A number is written in digits only.
* `Decimal.values_toBytes`: The bytes of a number have its digits as values.
* `Decimal.toBytes_injective`: No two numbers are written alike.
* `Decimal.length_toBytes`: A number is written in as many bytes as are counted.
* `Decimal.width_le_iff`: How large a number of so many digits can be.
* `Decimal.head?_toBytes`: A number other than zero has no leading zero.
* `Decimal.ofText_toText`: A number as a text has the bytes of its digits.
-/

namespace RespBus

namespace Decimal

theorem digits_of_lt {n : Nat} (h : n < 10) : digits n = [n] := by
  rw [digits, if_pos h]

/-- A number of several digits has those of its tenth, and one more. -/
theorem digits_append {n : Nat} (h : 10 ≤ n) : digits n = digits (n / 10) ++ [n % 10] := by
  rw [digits, if_neg (by omega)]

theorem toBytes_of_lt {n : Nat} (h : n < 10) : toBytes n = [digitByte n] := by
  rw [toBytes, digits_of_lt h, List.map_singleton]

theorem toBytes_append {n : Nat} (h : 10 ≤ n) :
    toBytes n = toBytes (n / 10) ++ [digitByte (n % 10)] := by
  rw [toBytes, digits_append h, List.map_append, List.map_singleton, toBytes]

theorem digits_ne_nil (n : Nat) : digits n ≠ [] := by
  by_cases h : n < 10
  · rw [digits_of_lt h]
    exact List.cons_ne_nil n []
  · rw [digits_append (by omega)]
    exact List.append_ne_nil_of_right_ne_nil _ (List.cons_ne_nil (n % 10) [])

theorem lt_of_mem_digits : ∀ (n d : Nat), d ∈ digits n → d < 10 := by
  intro n
  induction n using Nat.strongRecOn with
  | ind n ih =>
      intro d hd
      by_cases h : n < 10
      · rw [digits_of_lt h, List.mem_singleton] at hd
        omega
      · rw [digits_append (by omega), List.mem_append, List.mem_singleton] at hd
        rcases hd with hd | hd
        · exact ih (n / 10) (by omega) d hd
        · omega

/-- A number has the value of its digits. -/
theorem value_digits (n : Nat) : value (digits n) = n := by
  induction n using Nat.strongRecOn with
  | ind n ih =>
      -- The induction is on the number, along the division by ten that gives
      -- its digits.
      by_cases h : n < 10
      · rw [digits_of_lt h]
        simp only [value, List.foldl_cons, List.foldl_nil]
        omega
      · have hquotient := ih (n / 10) (by omega)
        unfold value at hquotient ⊢
        rw [digits_append (by omega), List.foldl_append, hquotient]
        simp only [List.foldl_cons, List.foldl_nil]
        omega

theorem toNat_digitByte {d : Nat} (h : d < 10) : (digitByte d).toNat = 48 + d := by
  unfold digitByte
  rw [UInt8.toNat_ofNat']
  omega

theorem isDigit_digitByte {d : Nat} (h : d < 10) : isDigit (digitByte d) = true := by
  have hvalue := toNat_digitByte h
  simp only [isDigit, Bool.and_eq_true, decide_eq_true_eq, UInt8.le_iff_toNat_le, hvalue,
    UInt8.reduceToNat]
  omega

theorem isDigit_of_mem_toBytes {n : Nat} {b : UInt8} (h : b ∈ toBytes n) : isDigit b = true := by
  rcases List.mem_map.1 h with ⟨d, hd, rfl⟩
  exact isDigit_digitByte (lt_of_mem_digits n d hd)

theorem toBytes_ne_nil (n : Nat) : toBytes n ≠ [] := by
  intro h
  exact digits_ne_nil n (List.map_eq_nil_iff.1 h)

theorem values_toBytes (n : Nat) : (toBytes n).map (fun b => b.toNat - 48) = digits n := by
  unfold toBytes
  rw [List.map_map]
  refine (List.map_congr_left fun d hd => ?_).trans (List.map_id _)
  have hvalue := toNat_digitByte (lt_of_mem_digits n d hd)
  simp only [Function.comp_apply, hvalue, id_eq]
  omega

/-- No two numbers are written alike. -/
theorem toBytes_injective {m n : Nat} (h : toBytes m = toBytes n) : m = n := by
  rw [← value_digits m, ← value_digits n, ← values_toBytes m, ← values_toBytes n, h]

theorem width_of_lt {n : Nat} (h : n < 10) : width n = 1 := by
  rw [width, if_pos h]

theorem width_of_le {n : Nat} (h : 10 ≤ n) : width n = width (n / 10) + 1 := by
  rw [width, if_neg (by omega)]

theorem one_le_width (n : Nat) : 1 ≤ width n := by
  by_cases h : n < 10
  · exact Nat.le_of_eq (width_of_lt h).symm
  · rw [width_of_le (by omega)]
    omega

/-- The width is the number of digits. -/
theorem length_digits (n : Nat) : (digits n).length = width n := by
  induction n using Nat.strongRecOn with
  | ind n ih =>
      by_cases h : n < 10
      · rw [digits_of_lt h, width_of_lt h, List.length_singleton]
      · rw [digits_append (by omega), width_of_le (by omega), List.length_append,
          ih (n / 10) (by omega), List.length_singleton]

/-- A number is written in as many bytes as are counted. -/
theorem length_toBytes (n : Nat) : (toBytes n).length = width n := by
  rw [toBytes, List.length_map, length_digits]

/-- How large a number of so many digits can be. -/
theorem width_le_iff {k : Nat} : ∀ {n : Nat}, width n ≤ k + 1 ↔ n < Nat.pow 10 (k + 1) := by
  -- The induction is on the number of digits allowed, and the number loses its
  -- last one in each step.
  induction k with
  | zero =>
      intro n
      have hten : Nat.pow 10 (0 + 1) = 10 := rfl
      by_cases h : n < 10
      · rw [width_of_lt h]
        omega
      · have hrest := one_le_width (n / 10)
        rw [width_of_le (by omega)]
        omega
  | succ k ih =>
      intro n
      have hpow : Nat.pow 10 (k + 1 + 1) = Nat.pow 10 (k + 1) * 10 := rfl
      by_cases h : n < 10
      · have hpos : 0 < Nat.pow 10 (k + 1) := Nat.pow_pos (by omega)
        rw [width_of_lt h]
        omega
      · rw [width_of_le (by omega), Nat.add_le_add_iff_right, ih]
        omega

/-- Only zero starts with a zero. -/
theorem head?_digits (n : Nat) : (digits n).head? = some 0 ↔ n = 0 := by
  induction n using Nat.strongRecOn with
  | ind n ih =>
      by_cases h : n < 10
      · rw [digits_of_lt h, List.head?_cons, Option.some.injEq]
      · have hquotient := ih (n / 10) (by omega)
        rcases List.exists_cons_of_ne_nil (digits_ne_nil (n / 10)) with ⟨first, rest, hdigits⟩
        rw [hdigits, List.head?_cons] at hquotient
        rw [digits_append (by omega), hdigits, List.cons_append, List.head?_cons, hquotient]
        omega

/-- A number other than zero has no leading zero. -/
theorem head?_toBytes (n : Nat) : (toBytes n).head? = some 48 ↔ n = 0 := by
  rw [← head?_digits, ← values_toBytes, List.head?_map]
  rcases hhead : (toBytes n).head? with _ | b
  · simp only [reduceCtorEq, Option.map_none]
  · have hdigit := isDigit_of_mem_toBytes (List.mem_of_mem_head? (Option.mem_def.2 hhead))
    simp only [isDigit, Bool.and_eq_true, decide_eq_true_eq, UInt8.le_iff_toNat_le,
      UInt8.reduceToNat] at hdigit
    simp only [Option.map_some, Option.some.injEq, ← UInt8.toNat_inj, UInt8.reduceToNat]
    omega

theorem utf8EncodeChar_digitChar {d : Nat} (h : d < 10) :
    String.utf8EncodeChar (Nat.digitChar d) = [digitByte d] := by
  have hall : ∀ d < 10, String.utf8EncodeChar (Nat.digitChar d) = [digitByte d] := by decide
  exact hall d h

/-- A number as a text has the bytes of its digits. -/
theorem ofText_toText (n : Nat) : Bytes.ofText (toText n) = toBytes n := by
  have hbytes : (digits n).map (fun d => String.utf8EncodeChar (Nat.digitChar d)) =
      (digits n).map fun d => [digitByte d] :=
    List.map_congr_left fun d hd => utf8EncodeChar_digitChar (lt_of_mem_digits n d hd)
  rw [Bytes.ofText, toText, String.toList_ofList, toChars, List.flatMap_map, toBytes,
    List.map_eq_flatMap, List.flatMap_def, hbytes, List.flatMap_def]

end Decimal

end RespBus
