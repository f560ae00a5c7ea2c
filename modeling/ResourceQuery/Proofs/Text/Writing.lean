import Mathlib.Data.Nat.Digits.Defs
import ResourceQuery.Proofs.Text.Digits

/-!
# The numbers that texts write

A number is written by its decimal digits, with any number of zeros in front of them. A count may
have a plus in front of that, an integer a plus or a minus. Nothing else writes a number: no blank,
no second sign, no sign without a digit.

These are relations between a text and a number of any size, and say nothing of how a text is read.
Both readers take exactly the texts that write a number of their 64-bit range, and take each of them
for this number: digits are never lost, and a number beyond the range is not brought into it.

## Main definitions

* `IsNumeral`, `Writes`, `WritesInteger`: the texts that write a number, a count, an integer.

## Main statements

* `map_toNat_count?_eq_some_iff`: a text is read as the count that it writes.
* `map_toInt_integer?_eq_some_iff`: a text is read as the integer that it writes.
-/

namespace ResourceQuery.Text

/-! ### Counts -/

/-- One or more digits stand for a number to the base of ten, the ones at the end. -/
def IsNumeral (cs : List Char) (n : Nat) : Prop :=
  cs ≠ [] ∧ (∀ c ∈ cs, c.isDigit = true) ∧ Nat.ofDigits 10 (cs.reverse.map digitValue) = n

/-- A number is written by its digits, with any number of zeros and perhaps a plus in front. -/
inductive Writes : List Char → Nat → Prop
  | bare {cs : List Char} {n : Nat} : IsNumeral cs n → Writes cs n
  | signed {cs : List Char} {n : Nat} : IsNumeral cs n → Writes ('+' :: cs) n

/-- What is no digit begins no digits. -/
theorem not_isNumeral_cons {c : Char} {cs : List Char} {n : Nat} (hc : ¬c.isDigit = true) :
    ¬IsNumeral (c :: cs) n :=
  fun h => hc (h.2.1 c List.mem_cons_self)

/-- What writes a number is not empty. -/
theorem Writes.ne_nil {cs : List Char} {n : Nat} (h : Writes cs n) : cs ≠ [] := by
  cases h with
  | bare h => exact h.1
  | signed _ => exact List.cons_ne_nil _ _

/-- Digits have the same value from either end. -/
theorem value_eq_ofDigits (cs : List Char) :
    value cs = Nat.ofDigits 10 (cs.reverse.map digitValue) := by
  induction cs using List.reverseRecOn with
  | nil => rfl
  | append_singleton cs c ih =>
      rw [value_append_singleton, List.reverse_append, List.reverse_singleton,
        List.singleton_append, List.map_cons, Nat.ofDigits_cons, ← ih, Nat.add_comm]

/-- A text is read as a number exactly when it is a numeral of it. -/
theorem natural?_eq_some_iff {cs : List Char} {n : Nat} :
    natural? cs = some n ↔ IsNumeral cs n := by
  rw [natural?, Option.ite_none_right_eq_some, List.all_eq_true, value_eq_ofDigits, and_assoc,
    Option.some.injEq, IsNumeral]

/-- Only the numbers in the range are counts, and they stay as they are. -/
theorem map_toNat_countOf?_eq_some_iff {k n : Nat} :
    (countOf? k).map UInt64.toNat = some n ↔ k = n ∧ n < 2 ^ 64 := by
  rw [countOf?]
  split
  · next h =>
      rw [Option.map_some, UInt64.toNat_ofNatLT, Option.some.injEq]
      exact ⟨fun heq => ⟨heq, heq ▸ h⟩, And.left⟩
  · next h =>
      refine iff_of_false (by simp) ?_
      rintro ⟨rfl, hlt⟩
      exact h hlt

/-- **A text is read as a count exactly when it writes a number in the range**, however many digits
it has. -/
theorem map_toNat_count?_eq_some_iff {cs : List Char} {n : Nat} :
    (count? cs).map UInt64.toNat = some n ↔ Writes cs n ∧ n < 2 ^ 64 := by
  have hdigits : ∀ ds, ((natural? ds).bind countOf?).map UInt64.toNat = some n ↔
      IsNumeral ds n ∧ n < 2 ^ 64 := by
    intro ds
    rw [Option.map_bind, Option.bind_eq_some_iff]
    constructor
    · rintro ⟨k, hk, hn⟩
      obtain ⟨rfl, hlt⟩ := map_toNat_countOf?_eq_some_iff.mp hn
      exact ⟨natural?_eq_some_iff.mp hk, hlt⟩
    · rintro ⟨hnumeral, hlt⟩
      exact ⟨n, natural?_eq_some_iff.mpr hnumeral, map_toNat_countOf?_eq_some_iff.mpr ⟨rfl, hlt⟩⟩
  rw [count?.eq_def, hdigits]
  refine and_congr_left fun _ => ⟨fun h => ?_, fun h => ?_⟩
  · split at h
    · exact .signed h
    · exact .bare h
  · cases h with
    | signed h => exact h
    | bare h =>
        split
        · exact absurd h (not_isNumeral_cons (by decide))
        · exact h

/-- The last number of the range is read, with a plus and zeros in front, and the next one is not. -/
example : count? "+0018446744073709551615".toList = some (UInt64.ofNat (2 ^ 64 - 1)) ∧
    count? "18446744073709551616".toList = none := by
  decide

/-! ### Integers -/

/-- An integer is written as a count is, or by a minus in front of the digits. -/
inductive WritesInteger : List Char → Int → Prop
  | positive {cs : List Char} {n : Nat} : Writes cs n → WritesInteger cs n
  | negative {cs : List Char} {n : Nat} : IsNumeral cs n → WritesInteger ('-' :: cs) (-n)

/-- **An integer is written by a sign, which may be left out, and digits.** -/
theorem writesInteger_iff_splitSign {cs : List Char} {n : Int} :
    WritesInteger cs n ↔ ∃ k : Nat, IsNumeral (splitSign cs).2 k ∧
      (if (splitSign cs).1 = true then -(k : Int) else k) = n := by
  constructor
  · intro h
    cases h with
    | negative h => exact ⟨_, h, rfl⟩
    | positive h =>
        cases h with
        | signed h => exact ⟨_, h, rfl⟩
        | bare h =>
            fun_cases splitSign cs with
            | case1 => exact absurd h (not_isNumeral_cons (by decide))
            | case2 => exact absurd h (not_isNumeral_cons (by decide))
            | case3 => exact ⟨_, h, rfl⟩
  · rintro ⟨k, hk, rfl⟩
    revert hk
    fun_cases splitSign cs with
    | case1 => exact .negative
    | case2 => exact fun hk => .positive (.signed hk)
    | case3 => exact fun hk => .positive (.bare hk)

/-- A bounded integer is within its own bounds. -/
theorem int64Of?_toInt (i : Int64) : int64Of? i.toInt = some i := by
  have hrange : Int64.minValue.toInt ≤ i.toInt ∧ i.toInt ≤ Int64.maxValue.toInt :=
    ⟨Int64.minValue_le_toInt i, Int64.toInt_le i⟩
  rw [int64Of?, dif_pos hrange]
  simp

/-- A bounded integer is made of the number that it stands for, and of no other. -/
theorem int64Of?_eq_some_iff {n : Int} {i : Int64} : int64Of? n = some i ↔ n = i.toInt := by
  constructor
  · intro h
    rw [int64Of?] at h
    split at h
    · next hrange =>
        obtain rfl := Option.some.inj h
        rw [Int64.toInt_ofIntLE]
    · cases h
  · rintro rfl
    exact int64Of?_toInt i

/-- Only the integers in the range are read, and they stay as they are. -/
theorem map_toInt_int64Of?_eq_some_iff {k n : Int} :
    (int64Of? k).map Int64.toInt = some n ↔ k = n ∧ -2 ^ 63 ≤ n ∧ n < 2 ^ 63 := by
  rw [Option.map_eq_some_iff]
  constructor
  · rintro ⟨i, hi, rfl⟩
    exact ⟨int64Of?_eq_some_iff.mp hi, Int64.le_toInt i, Int64.toInt_lt i⟩
  · rintro ⟨rfl, hlow, hhigh⟩
    have hinside : (Int64.ofInt k).toInt = k := Int64.toInt_ofInt_of_le hlow hhigh
    exact ⟨Int64.ofInt k, int64Of?_eq_some_iff.mpr hinside.symm, hinside⟩

/-- **A text is read as an integer exactly when it writes a number in the range**, which reaches one
further down than it does up. -/
theorem map_toInt_integer?_eq_some_iff {cs : List Char} {n : Int} :
    (integer? cs).map Int64.toInt = some n ↔ WritesInteger cs n ∧ -2 ^ 63 ≤ n ∧ n < 2 ^ 63 := by
  rw [integer?, Option.map_bind, Option.bind_eq_some_iff, writesInteger_iff_splitSign]
  constructor
  · rintro ⟨k, hk, hn⟩
    obtain ⟨rfl, hrange⟩ := map_toInt_int64Of?_eq_some_iff.mp hn
    exact ⟨⟨k, natural?_eq_some_iff.mp hk, rfl⟩, hrange⟩
  · rintro ⟨⟨k, hk, rfl⟩, hrange⟩
    exact ⟨k, natural?_eq_some_iff.mpr hk, map_toInt_int64Of?_eq_some_iff.mpr ⟨rfl, hrange⟩⟩

/-- Down to the lowest number of the range a text is read, and no further; a sign alone is not. -/
example : integer? "-009223372036854775808".toList = some Int64.minValue ∧
    integer? "-9223372036854775809".toList = none ∧
    integer? "9223372036854775808".toList = none ∧ integer? "-".toList = none := by
  decide

end ResourceQuery.Text
