import ResourceQuery.Filter.Scalar
import ResourceQuery.Proofs.Text.Cutting
import ResourceQuery.Text.Digits

/-!
# Reading the decimal text of an integer

The decimal text of an integer has digits, and in front of them a minus if the integer is negative.
Nothing in it is blank and nothing changes its case, so the readers of texts see it as it is, and
each of them makes of it what the integer itself stands for: a signed number when it fits into 64
bits, a count when it is not negative and fits, and a truth value when it is zero or one.

## Main statements

* `integerText_injective`: different integers have different texts.
* `integer?_integerText`, `count?_integerText`: the text as a signed number and as a count.
* `Scalar.booleanOfText?_integerText`: the text as a truth value.
-/

namespace ResourceQuery

namespace Text

/-- There are ten digits. -/
theorem exists_eq_digitChar {c : Char} (h : c.isDigit = true) : ∃ d < 10, c = digitChar d := by
  have hrange : 48 ≤ c.toNat ∧ c.toNat ≤ 57 := by
    simpa [Char.isDigit, UInt32.le_iff_toNat_le] using h
  have hzero : '0'.toNat = 48 := rfl
  refine ⟨c.toNat - 48, by omega, ?_⟩
  rw [digitChar, hzero, Nat.add_sub_cancel' hrange.1, Char.ofNat_toNat]

/-- A digit is not blank, and small already. -/
theorem plain_of_isDigit {c : Char} (h : c.isDigit = true) :
    isBlank c = false ∧ c.toLower = c := by
  obtain ⟨d, hd, rfl⟩ := exists_eq_digitChar h
  exact (by decide : ∀ d < 10, isBlank (digitChar d) = false ∧ (digitChar d).toLower = digitChar d)
    d hd

/-- A character of a decimal text is a digit or the minus. -/
theorem isDigit_or_eq_of_mem_integerText {i : Int} {c : Char} (h : c ∈ integerText i) :
    c.isDigit = true ∨ c = '-' := by
  cases i with
  | ofNat n => exact Or.inl (isDigit_of_mem_digits h)
  | negSucc n =>
      rcases List.mem_cons.mp h with rfl | h
      · exact Or.inr rfl
      · exact Or.inl (isDigit_of_mem_digits h)

/-- The text of an integer has no blanks. -/
theorem isBlank_of_mem_integerText {i : Int} {c : Char} (h : c ∈ integerText i) :
    isBlank c = false := by
  rcases isDigit_or_eq_of_mem_integerText h with hdigit | rfl
  · exact (plain_of_isDigit hdigit).1
  · decide

/-- The text of an integer has a character. -/
theorem integerText_ne_nil (i : Int) : integerText i ≠ [] := by
  cases i with
  | ofNat n => exact digits_ne_nil n
  | negSucc n => exact List.cons_ne_nil _ _

/-- A text without a blank is not trimmed. -/
theorem trim_eq_self {cs : List Char} (h : ∀ c ∈ cs, isBlank c = false) : trim cs = cs := by
  have hstart : trimStart cs = cs := by
    cases cs with
    | nil => rfl
    | cons c cs => exact List.dropWhile_cons_of_neg (by simp [h c List.mem_cons_self])
  rw [trim, hstart, trimEnd_eq_self h]

/-- The text of an integer is trimmed already. -/
theorem trim_integerText (i : Int) : trim (integerText i) = integerText i :=
  trim_eq_self fun _ => isBlank_of_mem_integerText

/-- The text of an integer is not blank. -/
theorem isBlankText_integerText (i : Int) :
    isBlankText (String.ofList (integerText i)) = false := by
  obtain ⟨c, cs, hcs⟩ := List.exists_cons_of_ne_nil (integerText_ne_nil i)
  have hc : isBlank c = false := isBlank_of_mem_integerText (hcs ▸ List.mem_cons_self)
  simp [isBlankText, hcs, hc]

/-- The text of an integer has no capital letters. -/
theorem lowercase_integerText (i : Int) :
    lowercase (String.ofList (integerText i)) = String.ofList (integerText i) := by
  have hlower : ∀ c ∈ integerText i, c.toLower = c := by
    intro c hc
    rcases isDigit_or_eq_of_mem_integerText hc with hdigit | rfl
    · exact (plain_of_isDigit hdigit).2
    · decide
  rw [lowercase, String.toList_ofList, List.map_congr_left hlower, List.map_id']

/-! ### What the text is read as -/

/-- Numbers with the same digits are the same. -/
theorem digits_injective : Function.Injective digits := by
  intro m n h
  rw [← value_digits m, h, value_digits]

/-- There is no minus sign among the digits of a number. -/
theorem minus_notMem_digits (n : Nat) : '-' ∉ digits n :=
  fun h => absurd (isDigit_of_mem_digits h) (by decide)

/-- **Different integers have different texts.** -/
theorem integerText_injective : Function.Injective integerText := by
  intro i j h
  cases i with
  | ofNat m =>
      cases j with
      | ofNat n => rw [digits_injective h]
      | negSucc n =>
          have hdigits : digits m = '-' :: digits (n + 1) := h
          exact absurd (hdigits ▸ List.mem_cons_self) (minus_notMem_digits m)
  | negSucc m =>
      cases j with
      | ofNat n =>
          have hdigits : '-' :: digits (m + 1) = digits n := h
          exact absurd (hdigits ▸ List.mem_cons_self) (minus_notMem_digits n)
      | negSucc n =>
          have hdigits : m + 1 = n + 1 := digits_injective (List.cons.inj h).2
          rw [Nat.succ.inj hdigits]

/-- Digits begin with no sign. -/
theorem splitSign_digits (n : Nat) : splitSign (digits n) = (false, digits n) := by
  rw [splitSign.eq_def]
  split
  · next heq => exact absurd (heq ▸ List.mem_cons_self) (minus_notMem_digits n)
  · next heq =>
      have hplus : '+' ∈ digits n := heq ▸ List.mem_cons_self
      exact absurd (isDigit_of_mem_digits hplus) (by decide)
  · rfl

/-- An integer is read from its sign and its digits, within the bounds of 64 bits. -/
theorem integer?_of_splitSign {cs rest : List Char} {negative : Bool}
    (h : splitSign cs = (negative, rest)) :
    integer? cs
      = (natural? rest).bind fun n => int64Of? (if negative = true then -(n : Int) else n) := by
  rw [integer?, h]

/-- **The text of an integer is read as the integer**, if it fits into 64 bits. -/
theorem integer?_integerText (i : Int) : integer? (integerText i) = int64Of? i := by
  cases i with
  | ofNat n =>
      rw [integerText, integer?_of_splitSign (splitSign_digits n), natural?_digits,
        Option.bind_some, if_neg Bool.false_ne_true, Int.ofNat_eq_natCast]
  | negSucc n =>
      have hsign : splitSign ('-' :: digits (n + 1)) = (true, digits (n + 1)) := rfl
      rw [integerText, integer?_of_splitSign hsign, natural?_digits, Option.bind_some, if_pos rfl,
        Int.natCast_succ, ← Int.negSucc_eq]

/-- **The text of an integer is read as a count exactly when the integer is one.** -/
theorem count?_integerText (i : Int) :
    count? (integerText i) = (Json.Number.integer i).count? := by
  rw [count?.eq_def]
  split
  · next rest hplus =>
      have hmem : '+' ∈ integerText i := hplus ▸ List.mem_cons_self
      rcases isDigit_or_eq_of_mem_integerText hmem with h | h
      · exact absurd h (by decide)
      · exact absurd h (by decide)
  · cases i with
    | ofNat n =>
        rw [integerText, natural?_digits]
        rfl
    | negSucc n =>
        have hminus : natural? ('-' :: digits (n + 1)) = none :=
          if_neg fun h => absurd (List.all_eq_true.mp h.2 '-' List.mem_cons_self) (by decide)
        rw [integerText, hminus]
        rfl

end Text

/-- **The text of an integer is read as a truth value exactly when it is zero or one.** -/
theorem Scalar.booleanOfText?_integerText (i : Int) :
    booleanOfText? (String.ofList (Text.integerText i))
      = if i = 1 then some true else if i = 0 then some false else none := by
  have hword : Text.lowercase (Text.trimmed (String.ofList (Text.integerText i)))
      = String.ofList (Text.integerText i) := by
    rw [Text.trimmed, String.toList_ofList, Text.trim_integerText, Text.lowercase_integerText]
  have hletters : ∀ {c : Char} {cs : List Char}, c.isDigit = false → c ≠ '-' →
      String.ofList (Text.integerText i) ≠ String.ofList (c :: cs) := by
    intro c cs hdigit hminus heq
    have hm : c ∈ Text.integerText i := by
      rw [String.ofList_injective heq]
      exact List.mem_cons_self
    rcases Text.isDigit_or_eq_of_mem_integerText hm with h | h
    · rw [hdigit] at h
      cases h
    · exact hminus h
  have hdigit : ∀ d < 10, String.ofList (Text.integerText i) = String.ofList [Text.digitChar d] ↔
      i = d := by
    intro d hd
    have htext : Text.integerText d = [Text.digitChar d] := by
      rw [← Int.ofNat_eq_natCast, Text.integerText, Text.digits, if_pos hd]
    rw [← htext, String.ofList_inj]
    exact Text.integerText_injective.eq_iff
  have hone : String.ofList (Text.integerText i) = "1" ↔ i = 1 := hdigit 1 (by decide)
  have hzero : String.ofList (Text.integerText i) = "0" ↔ i = 0 := hdigit 0 (by decide)
  have htrue : String.ofList (Text.integerText i) ≠ "true" := hletters (by decide) (by decide)
  have hfalse : String.ofList (Text.integerText i) ≠ "false" := hletters (by decide) (by decide)
  simp only [booleanOfText?, hword, htrue, hfalse, hone, hzero, false_or]

end ResourceQuery
