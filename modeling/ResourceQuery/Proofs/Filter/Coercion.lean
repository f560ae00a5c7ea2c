import ResourceQuery.Proofs.Filter.Scalar
import ResourceQuery.Proofs.Text.Numerals
import ResourceQuery.Proofs.Text.Writing

/-!
# Coercion and texts

A query string has texts only, so the text of a scalar must be as good as the scalar itself. For
every type but that of doubles it is: an integer and a truth value are coerced to the same as their
texts are, and what was coerced is found again from its own text. Blanks around a text do not
matter, except to the type of strings, which keeps every character.

Which strings are integers is said without the reader, by `Text.WritesInteger`. Many strings write
one integer, with zeros or a plus in front, and its text is only one of them; so coercion forgets
how an integer was spelt, but not which one it was.

## Main statements

* `Scalar.coerce?_text`: a scalar is found again from its text.
* `Scalar.coerce?_between`: blanks around a string do not matter.
* `Scalar.coerce?_integer_string_iff`: a string is coerced to the integer that it writes.
* `Scalar.coerce?_survives_text`: the three of them, with the type of what is coerced.
-/

namespace ResourceQuery.Scalar

/-- **A truth value and its text are coerced to the same.** -/
theorem coerce?_boolean_text {t : ScalarType} (ht : t ≠ .float) (b : Bool) :
    coerce? t (.boolean b) = coerce? t (.string (Scalar.boolean b).text) := by
  cases t with
  | float => exact absurd rfl ht
  | string => rfl
  | integer => cases b <;> rfl
  | boolean => cases b <;> rfl

/-- **An integer and its text are coerced to the same.** -/
theorem coerce?_integer_text {t : ScalarType} (ht : t ≠ .float) (i : Int64) :
    coerce? t (.integer i) = coerce? t (.string (Scalar.integer i).text) := by
  cases t with
  | float => exact absurd rfl ht
  | string => rfl
  | integer =>
      rw [coerce?, coerce?, text, String.toList_ofList, Text.trim_integerText,
        Text.integer?_integerText, Text.int64Of?_toInt]
      rfl
  | boolean =>
      have hone : i.toInt = 1 ↔ i = 1 := Int64.toInt_inj (y := 1)
      have hzero : i.toInt = 0 ↔ i = 0 := Int64.toInt_inj (y := 0)
      rw [coerce?, coerce?, text, booleanOfText?_integerText]
      simp only [hone, hzero]
      split
      · rfl
      · split <;> rfl

/-- **A scalar is found again from its text**, unless it is a double. -/
theorem coerce?_text {w : Scalar} (hw : w.type ≠ .float) :
    coerce? w.type (.string w.text) = some w := by
  cases w with
  | boolean b => rw [← coerce?_boolean_text hw, coerce?_type]
  | integer i => rw [← coerce?_integer_text hw, coerce?_type]
  | float d => exact absurd rfl hw
  | string s => rfl

/-- Of a string, only what is left without outer blanks is coerced, except to a string. -/
theorem coerce?_string_congr {t : ScalarType} (ht : t ≠ .string) {s s' : String}
    (h : Text.trim s.toList = Text.trim s'.toList) :
    coerce? t (.string s) = coerce? t (.string s') := by
  cases t with
  | string => exact absurd rfl ht
  | integer => rw [coerce?, coerce?, h]
  | float => rw [coerce?, coerce?, h]
  | boolean =>
      have hword : Text.trimmed s = Text.trimmed s' := congrArg String.ofList h
      rw [coerce?, coerce?, booleanOfText?, booleanOfText?, hword]

/-- **Blanks around a string do not matter**, except to the type of strings. -/
theorem coerce?_between {t : ScalarType} (ht : t ≠ .string) {before after : String}
    (hbefore : Text.isBlankText before = true) (hafter : Text.isBlankText after = true)
    (s : String) : coerce? t (.string (before ++ s ++ after)) = coerce? t (.string s) := by
  refine coerce?_string_congr ht ?_
  rw [String.toList_append, String.toList_append, Text.trim_between hbefore hafter]

/-- **A string is coerced to an integer exactly when it writes one**, but for outer blanks, and one
that fits into 64 bits. -/
theorem coerce?_integer_string_iff {s : String} {n : Int} :
    (∃ i : Int64, coerce? .integer (.string s) = some (.integer i) ∧ i.toInt = n) ↔
      Text.WritesInteger (Text.trim s.toList) n ∧ -2 ^ 63 ≤ n ∧ n < 2 ^ 63 := by
  rw [← Text.map_toInt_integer?_eq_some_iff, Option.map_eq_some_iff, coerce?]
  simp only [Option.map_eq_some_iff, Scalar.integer.injEq, exists_eq_right]

/-- **Coercion is sound and stable, and survives texts.** What a scalar is coerced to has the type
that was asked for and is coerced to itself; it is also found from its own text, unless it is a
double, and an integer or a truth value from its text between any blanks. And a string is coerced to
an integer exactly when, but for outer blanks, it writes one with an optional sign and digits, and
this number fits into 64 bits; the integer is then this number. -/
theorem coerce?_survives_text :
    (∀ (t : ScalarType) (v w : Scalar), coerce? t v = some w →
      w.type = t ∧ coerce? t w = some w ∧
      (t ≠ .float → coerce? t (.string w.text) = some w) ∧
      (t = .integer ∨ t = .boolean → ∀ before after : String,
        Text.isBlankText before = true → Text.isBlankText after = true →
        coerce? t (.string (before ++ w.text ++ after)) = some w)) ∧
    ∀ (s : String) (n : Int),
      (∃ i : Int64, coerce? .integer (.string s) = some (.integer i) ∧ i.toInt = n) ↔
        Text.WritesInteger (Text.trim s.toList) n ∧ -2 ^ 63 ≤ n ∧ n < 2 ^ 63 := by
  refine ⟨fun t v w h => ?_, fun s n => coerce?_integer_string_iff⟩
  obtain rfl : w.type = t := type_of_coerce? h
  refine ⟨rfl, coerce?_type w, coerce?_text, fun ht before after hbefore hafter => ?_⟩
  have hfloat : w.type ≠ .float := by rcases ht with ht | ht <;> rw [ht] <;> decide
  have hstring : w.type ≠ .string := by rcases ht with ht | ht <;> rw [ht] <;> decide
  rw [coerce?_between hstring hbefore hafter, coerce?_text hfloat]

/-- The lowest integer, given with zeros in front, is found again from its text between blanks. -/
theorem coerce?_survives_text_lowest :
    coerce? .integer (.string " -0009223372036854775808\n") = some (.integer Int64.minValue) ∧
    coerce? .integer (.string ("\t" ++ (Scalar.integer Int64.minValue).text ++ "\u3000"))
      = some (.integer Int64.minValue) := by
  have hcoerce : coerce? .integer (.string " -0009223372036854775808\n")
      = some (.integer Int64.minValue) := by decide
  obtain ⟨-, -, -, hbetween⟩ := coerce?_survives_text.1 _ _ _ hcoerce
  exact ⟨hcoerce, hbetween (Or.inl rfl) "\t" "\u3000" (by decide) (by decide)⟩

end ResourceQuery.Scalar
