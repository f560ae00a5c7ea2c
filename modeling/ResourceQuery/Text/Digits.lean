/-!
# Whole numbers in decimal

Writing a natural number with the ten digits, and reading digit strings of any length. The two
bounded readers are those of the library: a *count* is an unsigned 64-bit number with an optional
`+` in front, an *integer* a signed one with an optional `+` or `-`. Leading zeros are allowed,
only the digits `0` to `9` count, and a value outside the range is refused.

## Main statements

* `value_digits`: reading what was written gives the number back.
-/

namespace ResourceQuery.Text

/-- The character of a digit below ten. -/
def digitChar (d : Nat) : Char :=
  Char.ofNat ('0'.toNat + d)

/-- The number that a digit stands for. -/
def digitValue (c : Char) : Nat :=
  c.toNat - '0'.toNat

/-- The decimal digits of a number, without leading zeros; zero has the one digit `0`. -/
def digits (n : Nat) : List Char :=
  if n < 10 then [digitChar n] else digits (n / 10) ++ [digitChar (n % 10)]
termination_by n

/-- The number that a digit string stands for, read from the left. -/
def value (cs : List Char) : Nat :=
  cs.foldl (fun n c => 10 * n + digitValue c) 0

/-- A natural number is written by one or more digits. -/
def natural? (cs : List Char) : Option Nat :=
  if cs ≠ [] ∧ cs.all Char.isDigit then some (value cs) else none

/-- The decimal text of an integer: a `-` in front of the digits of a negative one. -/
def integerText : Int → List Char
  | .ofNat n => digits n
  | .negSucc n => '-' :: digits (n + 1)

/-- Splits a sign from the front of a text; `+` and no sign at all say the same. -/
def splitSign : List Char → Bool × List Char
  | '-' :: cs => (true, cs)
  | '+' :: cs => (false, cs)
  | cs => (false, cs)

/-- The count `n`, if it fits into 64 bits. -/
def countOf? (n : Nat) : Option UInt64 :=
  if h : n < UInt64.size then some (UInt64.ofNatLT n h) else none

/-- The integer `i`, if it fits into 64 bits with a sign. -/
def int64Of? (i : Int) : Option Int64 :=
  if h : Int64.minValue.toInt ≤ i ∧ i ≤ Int64.maxValue.toInt then some (Int64.ofIntLE i h.1 h.2)
  else none

/-- A count is written by an optional `+` and digits. -/
def count? (cs : List Char) : Option UInt64 :=
  (natural? (match cs with | '+' :: rest => rest | _ => cs)).bind countOf?

/-- An integer is written by an optional sign and digits. -/
def integer? (cs : List Char) : Option Int64 :=
  let (negative, rest) := splitSign cs
  (natural? rest).bind fun n => int64Of? (if negative then -(n : Int) else n)

/-- One more digit at the end makes ten of what was there, and adds its value. -/
theorem value_append_singleton (cs : List Char) (c : Char) :
    value (cs ++ [c]) = 10 * value cs + digitValue c := by
  simp [value, List.foldl_append]

/-- The character of a digit has its value. -/
theorem digitValue_digitChar {d : Nat} (h : d < 10) : digitValue (digitChar d) = d :=
  (by decide : ∀ d < 10, digitValue (digitChar d) = d) d h

/-- The character of a digit is a digit. -/
theorem isDigit_digitChar {d : Nat} (h : d < 10) : (digitChar d).isDigit = true :=
  (by decide : ∀ d < 10, (digitChar d).isDigit = true) d h

/-- The digits of a number have its value. -/
theorem value_digits (n : Nat) : value (digits n) = n := by
  induction n using Nat.strongRecOn with
  | ind n ih =>
    rw [digits]
    split
    · next h => simp [value, digitValue_digitChar h]
    · next h =>
      rw [value_append_singleton, ih (n / 10) (by omega), digitValue_digitChar (by omega)]
      omega

/-- Every number has a digit. -/
theorem digits_ne_nil (n : Nat) : digits n ≠ [] := by
  rw [digits]; split <;> simp

/-- The digits of a number are digits. -/
theorem isDigit_of_mem_digits {n : Nat} {c : Char} (h : c ∈ digits n) : c.isDigit = true := by
  induction n using Nat.strongRecOn with
  | ind n ih =>
    rw [digits] at h
    split at h
    · next hn => simp only [List.mem_singleton] at h; subst h; exact isDigit_digitChar hn
    · next hn =>
      rcases List.mem_append.1 h with h | h
      · exact ih (n / 10) (by omega) h
      · simp only [List.mem_singleton] at h; subst h; exact isDigit_digitChar (by omega)

/-- A number is read from its digits. -/
theorem natural?_digits (n : Nat) : natural? (digits n) = some n := by
  simp only [natural?, value_digits]
  rw [if_pos ⟨digits_ne_nil n, List.all_eq_true.2 fun c hc => isDigit_of_mem_digits hc⟩]

end ResourceQuery.Text
