import Mathlib.Data.List.Infix
import ResourceQuery.Proofs.Sql.Parts

/-!
# What patterns find

What a pattern stands for is said here by rules, one for each thing that a pattern can say
(`Pattern.Matches`); the matcher, which tries every end of a text behind a `%`, follows them. In the
pattern of a text each character stands for itself, since those that mean something else have a
backslash in front. So with a `%` on both sides it stands for the texts in which the text occurs.

A condition with such a pattern is then a question about texts: an assignment of texts to columns
gives it its truth, whatever the truth of the other tests is.

## Main definitions

* `Pattern.Matches`, `Pattern.WellFormed`: what a pattern stands for, and when it is one.
* `Condition.Assignment.ofTexts`: the truth of tests, given the texts of columns.

## Main statements

* `Pattern.accepts_iff_matches`: the matcher follows the rules.
* `Pattern.literal_eq_replaced`: escaping one special character after the other.
* `Pattern.matches_containing_iff`: the pattern of a text stands for the texts that contain it.
* `Statement.finds_occurrences`: what the conditions of searches and of `contains` ask for.
-/

namespace ResourceQuery

namespace Pattern

/-- **The texts that a pattern stands for.** -/
inductive Matches : List Char → List Char → Prop
  | nil : Matches [] []
  /-- A `%` stands for any run of characters, the empty one included. -/
  | run {pattern rest : List Char} (skipped : List Char) :
      Matches pattern rest → Matches ('%' :: pattern) (skipped ++ rest)
  /-- A `_` stands for any one character. -/
  | one {pattern rest : List Char} (c : Char) :
      Matches pattern rest → Matches ('_' :: pattern) (c :: rest)
  /-- Behind a backslash a character stands for itself. -/
  | escaped {pattern rest : List Char} (c : Char) :
      Matches pattern rest → Matches ('\\' :: c :: pattern) (c :: rest)
  /-- So does every character that means nothing else. -/
  | itself {pattern rest : List Char} {c : Char} :
      isSpecial c = false → Matches pattern rest → Matches (c :: pattern) (c :: rest)

/-- A pattern is well formed if each backslash has a character behind it. -/
inductive WellFormed : List Char → Prop
  | nil : WellFormed []
  | escaped {pattern : List Char} (c : Char) :
      WellFormed pattern → WellFormed ('\\' :: c :: pattern)
  | other {pattern : List Char} {c : Char} :
      c ≠ '\\' → WellFormed pattern → WellFormed (c :: pattern)

/-! ### What each rule says of a text -/

variable {pattern text : List Char} {c : Char}

/-- The empty pattern stands for the empty text. -/
theorem matches_nil_iff : Matches [] text ↔ text = [] := by
  constructor
  · intro h
    cases h with
    | nil => rfl
  · rintro rfl
    exact .nil

/-- A run stands for any characters in front of the rest. -/
theorem matches_run_iff :
    Matches ('%' :: pattern) text ↔ ∃ rest, rest <:+ text ∧ Matches pattern rest := by
  constructor
  · intro h
    cases h with
    | run skipped h => exact ⟨_, List.suffix_append _ _, h⟩
    | itself hplain _ => exact absurd hplain (by decide)
  · rintro ⟨rest, ⟨skipped, rfl⟩, h⟩
    exact .run skipped h

/-- A character behind a backslash stands for itself. -/
theorem matches_escaped_iff :
    Matches ('\\' :: c :: pattern) text ↔ ∃ rest, text = c :: rest ∧ Matches pattern rest := by
  constructor
  · intro h
    cases h with
    | escaped _ h => exact ⟨_, rfl, h⟩
    | itself hplain _ => exact absurd hplain (by decide)
  · rintro ⟨rest, rfl, h⟩
    exact .escaped c h

/-- A backslash at the end of a pattern stands for nothing. -/
theorem not_matches_backslash : ¬Matches ['\\'] text := by
  intro h
  cases h with
  | itself hplain _ => exact absurd hplain (by decide)

/-- Any other character stands for itself, and `_` for any one character. -/
theorem matches_cons_iff (hrun : c ≠ '%') (hescape : c ≠ '\\') :
    Matches (c :: pattern) text ↔
      ∃ d rest, text = d :: rest ∧ (c = '_' ∨ c = d) ∧ Matches pattern rest := by
  constructor
  · intro h
    cases h with
    | run _ _ => exact absurd rfl hrun
    | one d h => exact ⟨d, _, rfl, Or.inl rfl, h⟩
    | escaped _ _ => exact absurd rfl hescape
    | itself _ h => exact ⟨c, _, rfl, Or.inr rfl, h⟩
  · rintro ⟨d, rest, rfl, hc, h⟩
    by_cases hone : c = '_'
    · subst hone
      exact .one d h
    · obtain rfl := hc.resolve_left hone
      exact .itself (by simp [isSpecial, hrun, hescape, hone]) h

/-! ### The matcher -/

/-- Some end of a text passes a test when one of its suffixes does. -/
theorem someSuffix_iff {test : List Char → Bool} :
    someSuffix test text = true ↔ ∃ rest, rest <:+ text ∧ test rest = true := by
  induction text with
  | nil => simp [someSuffix]
  | cons d text ih => simp [someSuffix, ih, List.suffix_cons_iff, or_and_right, exists_or]

/-- A character that is neither `%` nor a backslash is compared with the next one of the text. -/
theorem accepts_cons (hrun : c ≠ '%') (hescape : c ≠ '\\') (text : List Char) :
    accepts (c :: pattern) text =
      match text with
      | [] => false
      | d :: rest => (c = '_' || c = d) && accepts pattern rest := by
  cases text <;> rw [accepts] <;> simp [hrun, hescape]

/-- **The matcher follows the rules.** -/
theorem accepts_iff_matches (pattern text : List Char) :
    accepts pattern text = true ↔ Matches pattern text := by
  match pattern with
  | [] => simp [accepts, matches_nil_iff]
  | c :: pattern =>
      by_cases hrun : c = '%'
      · subst hrun
        simp only [accepts, someSuffix_iff, matches_run_iff, accepts_iff_matches pattern]
      by_cases hescape : c = '\\'
      · subst hescape
        match pattern with
        | [] => simp [accepts, not_matches_backslash]
        | d :: pattern =>
            rw [matches_escaped_iff]
            cases text with
            | nil => simp [accepts]
            | cons e rest => simp [accepts, accepts_iff_matches pattern, @eq_comm _ d e]
      · rw [matches_cons_iff hrun hescape, accepts_cons hrun hescape]
        cases text with
        | nil => simp
        | cons d rest => simp [accepts_iff_matches pattern]

/-! ### The pattern of a text -/

/-- A text with a backslash in front of each occurrence of one character. -/
def replaced (special : Char) (text : List Char) : List Char :=
  text.flatMap fun c => if c = special then ['\\', c] else [c]

/-- **Escaping one special character after the other.** The backslash comes first, so none is put in
front of those that the escaping has written. -/
theorem literal_eq_replaced (text : List Char) :
    literal text = replaced '_' (replaced '%' (replaced '\\' text)) := by
  rw [replaced, replaced, replaced, literal, List.flatMap_assoc, List.flatMap_assoc]
  refine List.flatMap_congr fun c _ => ?_
  by_cases hescape : c = '\\'
  · subst hescape
    rfl
  by_cases hrun : c = '%'
  · subst hrun
    rfl
  by_cases hone : c = '_' <;> simp [escapeChar, isSpecial, hescape, hrun, hone]

/-- A character as it stands for itself stands for nothing else. -/
theorem matches_escapeChar_append :
    Matches (escapeChar c ++ pattern) text ↔ ∃ rest, text = c :: rest ∧ Matches pattern rest := by
  rw [escapeChar]
  split
  · exact matches_escaped_iff
  · next hplain =>
      simp only [isSpecial, Bool.or_eq_true, decide_eq_true_eq, not_or] at hplain
      obtain ⟨⟨hescape, hrun⟩, hone⟩ := hplain
      simp [matches_cons_iff hrun hescape, hone]

/-- A text stands in front of a pattern for itself. -/
theorem matches_literal_append (v : List Char) :
    Matches (literal v ++ pattern) text ↔ ∃ rest, text = v ++ rest ∧ Matches pattern rest := by
  induction v generalizing text with
  | nil => simp [literal]
  | cons c v ih =>
      have hcons : literal (c :: v) ++ pattern = escapeChar c ++ (literal v ++ pattern) := by
        simp [literal]
      rw [hcons, matches_escapeChar_append]
      constructor
      · rintro ⟨_, rfl, h⟩
        obtain ⟨rest, rfl, hrest⟩ := ih.mp h
        exact ⟨rest, rfl, hrest⟩
      · rintro ⟨rest, rfl, hrest⟩
        exact ⟨v ++ rest, rfl, ih.mpr ⟨rest, rfl, hrest⟩⟩

/-- A literal in front of a well-formed pattern is well-formed. -/
theorem WellFormed.literal_append (v : List Char) (h : WellFormed pattern) :
    WellFormed (literal v ++ pattern) := by
  induction v with
  | nil => exact h
  | cons c v ih =>
      rw [literal, List.flatMap_cons, List.append_assoc, escapeChar]
      split
      · exact .escaped c ih
      · next hplain =>
          refine .other ?_ ih
          rintro rfl
          exact hplain rfl

/-- The pattern of the texts that contain a text is well-formed. -/
theorem wellFormed_containing (v : String) : WellFormed (containing v).toList := by
  rw [containing, String.toList_ofList]
  exact .other (by decide) ((WellFormed.other (by decide) .nil).literal_append _)

/-- **The pattern of a text stands for the texts that contain it.** -/
theorem matches_containing_iff (v : String) (text : List Char) :
    Matches (containing v).toList text ↔ v.toList <:+: text := by
  have hall : ∀ rest, Matches ['%'] rest := fun rest =>
    matches_run_iff.mpr ⟨[], List.nil_suffix, .nil⟩
  rw [containing, String.toList_ofList, matches_run_iff, List.infix_iff_prefix_suffix]
  refine exists_congr fun behind => ?_
  rw [matches_literal_append, and_comm]
  refine and_congr_left' ?_
  constructor
  · rintro ⟨rest, rfl, -⟩
    exact List.prefix_append _ _
  · rintro ⟨rest, rfl⟩
    exact ⟨rest, rfl, hall rest⟩

end Pattern

/-! ### Conditions on texts -/

namespace Condition

/-- The truth of tests when columns have texts: a column is like a pattern if the pattern stands for
its text. The other tests may have any truth. -/
def Assignment.ofTexts (texts : Column → String) (others : Assignment) : Assignment where
  atom
    | .like column pattern => Pattern.accepts pattern.toList (texts column).toList
    | t => others.atom t
  member := others.member
  between := others.between

/-- The test of a column for a text is true when the column's text contains it. -/
theorem atom_containing_iff (texts : Column → String) (others : Assignment) (column : Column)
    (v : String) :
    (Assignment.ofTexts texts others).atom (containing column v) = true ↔
      v.toList <:+: (texts column).toList := by
  rw [← Pattern.matches_containing_iff, ← Pattern.accepts_iff_matches, containing]
  simp only [Assignment.ofTexts]

end Condition

namespace Statement

open Condition (Assignment)

/-- **A search and a `contains` find exactly the occurrences of their text.** The pattern of a text
is the text with its special characters escaped one after the other, between two `%`. It is well
formed and stands for the texts in which the text occurs, whatever characters it has. So when
columns have texts, the condition that a search adds, if it asks for anything, is true when the text
of one of its fields contains its value; and the condition of `contains` is true when the text of
its field contains the text of its operand. -/
theorem finds_occurrences (statement : Statement) (texts : Column → String) (others : Assignment) :
    (∀ v : String,
      (Pattern.containing v).toList
        = '%' :: (Pattern.replaced '_' (Pattern.replaced '%' (Pattern.replaced '\\' v.toList))
            ++ ['%']) ∧
      Pattern.WellFormed (Pattern.containing v).toList ∧
      ∀ text, Pattern.Matches (Pattern.containing v).toList text ↔ v.toList <:+: text) ∧
    (∀ term : SearchTerm, term.isNoop = false →
      ∃ c, (statement.apply (.search term)).conditions = statement.conditions ++ [c] ∧
        (c.holds (.ofTexts texts others) = true ↔ ∃ field ∈ term.fields,
          term.value.toList <:+: (texts (Column.ofField statement.table field)).toList)) ∧
    (∀ (field : String) (v : Scalar),
      ∃ c, (statement.apply (.filter ⟨field, .contains, .scalar v⟩)).conditions
          = statement.conditions ++ [c] ∧
        (c.holds (.ofTexts texts others) = true ↔
          v.text.toList <:+: (texts (Column.ofField statement.table field)).toList)) := by
  refine ⟨fun v => ⟨?_, Pattern.wellFormed_containing v, Pattern.matches_containing_iff v⟩,
    fun term hterm => ?_, fun field v => ?_⟩
  · rw [Pattern.containing, String.toList_ofList, Pattern.literal_eq_replaced]
  · refine ⟨.ofSearch statement.table term, by simp [apply, restrict, hterm], ?_⟩
    simp [Condition.ofSearch, Condition.holds, Condition.atom_containing_iff]
  · exact ⟨_, rfl, Condition.atom_containing_iff texts others _ _⟩

/-- A search for special characters in two columns of a name. -/
def specials : SearchTerm := ⟨"name", ["name", "owner.name"], "%_\\"⟩

/-- The texts of the two columns. -/
def names (name owner : String) (column : Column) : String :=
  if column = ⟨"owner", "name"⟩ then owner else name

/-- Special characters are searched for as they are: they are found at the end of a text, and not in
a text that they would stand for without their backslashes. -/
theorem finds_occurrences_specials :
    specials.isNoop = false ∧
      ∃ c, ((start "people").apply (.search specials)).conditions = [c] ∧
        ∀ others : Assignment, c.holds (.ofTexts (names "Ada" "100%_\\") others) = true ∧
          c.holds (.ofTexts (names "Ada" "%x\\") others) = false := by
  refine ⟨rfl, _, rfl, fun others => ⟨?_, ?_⟩⟩
  · obtain ⟨c, hc, hholds⟩ :=
      (finds_occurrences (start "people") (names "Ada" "100%_\\") others).2.1 specials rfl
    obtain rfl := List.singleton_inj.mp hc
    exact hholds.mpr ⟨"owner.name", by decide, "100".toList, [], by decide⟩
  · obtain ⟨c, hc, hholds⟩ :=
      (finds_occurrences (start "people") (names "Ada" "%x\\") others).2.1 specials rfl
    obtain rfl := List.singleton_inj.mp hc
    rw [← Bool.not_eq_true, hholds]
    decide

end Statement

end ResourceQuery
