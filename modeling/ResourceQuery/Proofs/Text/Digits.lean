import Mathlib.Algebra.Order.Ring.Nat
import Mathlib.Data.List.Basic
import Mathlib.Data.List.Induction
import Mathlib.Tactic.Ring
import ResourceQuery.Text.Digits

/-!
# Values of digit strings

Digit strings are valued from the left: a string behind another one shifts the first one by its
length. Zeros in front do not count, and zeros behind are powers of ten. The number of digits that a
number is written with bounds it from both sides.

## Main statements

* `value_append`: the value of a joined digit string.
* `lt_pow_length_digits`, `pow_length_digits_le`: the bounds that the number of digits gives.
-/

namespace ResourceQuery.Text

/-- A digit string behind another one shifts it by its length. -/
theorem value_append (ds es : List Char) :
    value (ds ++ es) = value ds * 10 ^ es.length + value es := by
  induction es using List.reverseRecOn with
  | nil => simp [value]
  | append_singleton es c ih =>
      rw [← List.append_assoc, value_append_singleton, ih, value_append_singleton,
        List.length_append, List.length_singleton, pow_succ]
      ring

/-- Zeros have the value zero. -/
theorem value_replicate_zero (k : Nat) : value (List.replicate k '0') = 0 := by
  induction k with
  | zero => rfl
  | succ k ih =>
      rw [List.replicate_succ', value_append_singleton, ih]
      rfl

/-- A number is less than the power of ten that its digits count. -/
theorem lt_pow_length_digits (n : Nat) : n < 10 ^ (digits n).length := by
  induction n using Nat.strongRecOn with
  | ind n ih =>
      rw [digits]
      split
      · next h => simpa using h
      · next h =>
          have hrest := ih (n / 10) (by omega)
          rw [List.length_append, List.length_singleton, pow_succ]
          omega

/-- A positive number reaches the power of ten of its first digit. -/
theorem pow_length_digits_le {n : Nat} (h : 0 < n) : 10 ^ ((digits n).length - 1) ≤ n := by
  induction n using Nat.strongRecOn with
  | ind n ih =>
      rw [digits]
      split
      · exact h
      · next hlarge =>
          have hrest := ih (n / 10) (by omega) (by omega)
          have hne : 0 < (digits (n / 10)).length := List.length_pos_iff.mpr (digits_ne_nil _)
          have hpow : 10 ^ (digits (n / 10)).length = 10 ^ ((digits (n / 10)).length - 1) * 10 := by
            rw [← pow_succ, Nat.sub_add_cancel hne]
          rw [List.length_append, List.length_singleton, Nat.add_sub_cancel, hpow]
          omega

/-- Only zero is written with a zero in front. -/
theorem eq_zero_of_head?_digits {n : Nat} (h : (digits n).head? = some '0') : n = 0 := by
  induction n using Nat.strongRecOn with
  | ind n ih =>
      rw [digits] at h
      split at h
      · next hn =>
          have hdigit := congrArg digitValue (Option.some.inj h)
          rwa [digitValue_digitChar hn] at hdigit
      · next hn =>
          rw [List.head?_append_of_ne_nil _ (digits_ne_nil _)] at h
          have hzero := ih (n / 10) (by omega) h
          omega

end ResourceQuery.Text
