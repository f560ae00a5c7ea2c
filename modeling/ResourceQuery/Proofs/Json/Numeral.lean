import Mathlib.Data.List.TakeWhile
import ResourceQuery.Json.Token
import ResourceQuery.Json.Writer
import ResourceQuery.Proofs.Binary64.Shortest

/-!
# The numerals of what is written

Each number is written as the text of a numeral, and the text of a numeral is read as this numeral,
so nothing but the numeral is told. A whole number is told by its sign and its digits. A double is
told by its sign and by the value of the numeral, however the digits are laid out: the value is that
of the decimal with the fewest digits, which lies in the interval of one double only. Whole numbers
have neither a fraction nor an exponent, and doubles have at least one of the two.

## Main definitions

* `Json.Numeral.text`: a numeral as it is written. `Json.Numeral.absValue`: its value, up to the
  sign.
* `Json.Numeral.ofDouble`, `Json.numeral`, `Json.Number.numeral`: the numerals of numbers.
* `Json.InBounds`: the whole numbers that are read as such.

## Main statements

* `Json.Numeral.ofChars?_text`: the text of a numeral is read as that numeral.
* `Json.Numeral.absValue_positional`, `Json.Numeral.absValue_exponential`: the two layouts of digits
  have one value.
* `Json.Number.text_numeral`, `Json.Number.numeral_injective`: a number is written as the text of
  its numeral, which determines it.
-/

namespace ResourceQuery

namespace Json.Numeral

/-! ### The text of a numeral -/

/-- A text of digits only. -/
def AllDigits (ds : List Char) : Prop :=
  ∀ c ∈ ds, c.isDigit = true

/-- The digits behind the point, with the point. -/
def fractionText : Option (List Char) → List Char
  | none => []
  | some ds => '.' :: ds

/-- The exponent with its sign. -/
def exponentText : Option Int → List Char
  | none => []
  | some e => 'e' :: (if 0 ≤ e then '+' else '-') :: Text.digits e.natAbs

/-- A numeral without its sign. -/
def unsignedText (n : Numeral) : List Char :=
  n.whole ++ (fractionText n.fraction ++ exponentText n.exponent)

/-- A numeral as it is written, with the sign of the exponent always shown. -/
def text (n : Numeral) : List Char :=
  if n.negative then '-' :: n.unsignedText else n.unsignedText

/-- A numeral that can be written: there are digits in front of a point and behind it, and no
needless zero in front. -/
structure WellFormed (n : Numeral) : Prop where
  whole : AllDigits n.whole
  ne_nil : n.whole ≠ []
  eq_zero : n.whole.head? = some '0' → n.whole = ['0']
  fraction : ∀ ds, n.fraction = some ds → AllDigits ds ∧ ds ≠ []

/-- A text that does not begin with a digit. -/
def EndsDigits (rest : List Char) : Prop :=
  ∀ c ∈ rest.head?, c.isDigit = false

/-- Taking the digits at the front takes all digits in front of something else. -/
theorem takeWhile_append {ds rest : List Char} (h : AllDigits ds) (hrest : EndsDigits rest) :
    (ds ++ rest).takeWhile Char.isDigit = ds := by
  rw [List.takeWhile_append_of_pos h]
  cases rest with
  | nil => simp
  | cons c rest => rw [List.takeWhile_cons_of_neg (by simp [hrest c rfl]), List.append_nil]

/-- Dropping the digits at the front leaves what stands behind them. -/
theorem dropWhile_append {ds rest : List Char} (h : AllDigits ds) (hrest : EndsDigits rest) :
    (ds ++ rest).dropWhile Char.isDigit = rest := by
  rw [List.dropWhile_append_of_pos h]
  cases rest with
  | nil => rfl
  | cons c rest => rw [List.dropWhile_cons_of_neg (by simp [hrest c rfl])]

/-- An exponent ends the digits in front of it. -/
theorem endsDigits_exponentText (exponent : Option Int) : EndsDigits (exponentText exponent) := by
  cases exponent <;> simp [exponentText, EndsDigits]

/-- A fraction and an exponent end the digits in front of them. -/
theorem endsDigits_fractionText (fraction : Option (List Char)) (exponent : Option Int) :
    EndsDigits (fractionText fraction ++ exponentText exponent) := by
  cases fraction with
  | none => exact endsDigits_exponentText exponent
  | some ds => simp [fractionText, EndsDigits]

/-- The first character behind the sign is a digit, so it is no sign. -/
theorem not_minus {n : Numeral} (h : n.WellFormed) (rest : List Char) :
    n.unsignedText = '-' :: rest → False := by
  intro heq
  obtain ⟨first, others, hwhole⟩ := List.exists_cons_of_ne_nil h.ne_nil
  rw [unsignedText, hwhole] at heq
  obtain ⟨rfl, -⟩ := List.cons.inj heq
  exact absurd (h.whole '-' (by simp [hwhole])) (by decide)

/-- A fraction is split off in front of an exponent. -/
theorem splitFraction?_fractionText {fraction : Option (List Char)} (exponent : Option Int)
    (h : ∀ ds, fraction = some ds → AllDigits ds ∧ ds ≠ []) :
    splitFraction? (fractionText fraction ++ exponentText exponent)
      = some (fraction, exponentText exponent) := by
  cases fraction with
  | none => cases exponent <;> rfl
  | some ds =>
      obtain ⟨hdigits, hne⟩ := h ds rfl
      have hend := endsDigits_exponentText exponent
      rw [fractionText, List.cons_append, splitFraction?, takeWhile_append hdigits hend,
        dropWhile_append hdigits hend]
      simp [hne]

/-- An exponent that is written is read. -/
theorem exponentPart?_exponentText (e : Int) :
    Binary64.exponentPart? (exponentText (some e)) = some e := by
  rw [exponentText, Binary64.exponentPart?, if_pos (Or.inl rfl)]
  by_cases h : 0 ≤ e
  · have hvalue : (e.natAbs : Int) = e := Int.natAbs_of_nonneg h
    simp only [if_pos h, Text.splitSign, Text.natural?_digits]
    exact congrArg some hvalue
  · have hvalue : -(e.natAbs : Int) = e := by omega
    simp only [if_neg h, Text.splitSign, Text.natural?_digits]
    exact congrArg some hvalue

/-- A sign in front of an unsigned text says nothing else. -/
theorem ofChars?_minus {cs : List Char} (h : ∀ rest, cs = '-' :: rest → False) :
    ofChars? ('-' :: cs) = (ofChars? cs).map fun n => { n with negative := true } := by
  rw [ofChars?, ofChars?]
  · split
    · rfl
    · split
      · rfl
      · rfl
      · rw [Option.map_map]
        rfl
  · exact h

/-- A numeral that is written without its sign is read without its sign. -/
theorem ofChars?_unsignedText {n : Numeral} (h : n.WellFormed) :
    ofChars? n.unsignedText = some { n with negative := false } := by
  have hend := endsDigits_fractionText n.fraction n.exponent
  have hgood : ¬(n.whole = [] ∨ (n.whole.head? = some '0' ∧ n.whole ≠ ['0'])) := by
    rintro (hnil | ⟨hhead, hlong⟩)
    · exact h.ne_nil hnil
    · exact hlong (h.eq_zero hhead)
  rw [ofChars?]
  · simp only [unsignedText, takeWhile_append h.whole hend, dropWhile_append h.whole hend,
      splitFraction?_fractionText n.exponent h.fraction, if_neg hgood]
    cases n.exponent with
    | none => rfl
    | some e =>
        change (Binary64.exponentPart? (exponentText (some e))).map _ = _
        rw [exponentPart?_exponentText]
        rfl
  · exact not_minus h

/-- **The text of a numeral is read as that numeral.** -/
theorem ofChars?_text {n : Numeral} (h : n.WellFormed) : ofChars? n.text = some n := by
  rw [text]
  split
  · next hnegative =>
      rw [ofChars?_minus (not_minus h), ofChars?_unsignedText h, Option.map_some, ← hnegative]
  · next hpositive =>
      rw [ofChars?_unsignedText h, ← Bool.eq_false_of_not_eq_true hpositive]

/-! ### Values -/

/-- The value of a numeral without its sign. -/
def absValue (n : Numeral) : ℚ :=
  Text.value (n.whole ++ n.fraction.getD [])
    * 10 ^ (n.exponent.getD 0 - (n.fraction.getD []).length)

/-- Digits with the point in place, and with a fraction in any case. -/
def positional (negative : Bool) (ds : List Char) : Int → Numeral
  | .negSucc k => ⟨negative, ['0'], some (List.replicate k '0' ++ ds), none⟩
  | .ofNat k =>
    if ds.length ≤ k + 1 then
      ⟨negative, ds ++ List.replicate (k + 1 - ds.length) '0', some ['0'], none⟩
    else ⟨negative, ds.take (k + 1), some (ds.drop (k + 1)), none⟩

/-- Digits with the point behind the first one, and an exponent. -/
def exponential (negative : Bool) (ds : List Char) (e : Int) : Numeral :=
  match ds with
  | first :: second :: others => ⟨negative, [first], some (second :: others), some e⟩
  | short => ⟨negative, short, none, some e⟩

section Digits

variable {ds : List Char}

/-- The positional form of a numeral is the positional text of its digits. -/
theorem unsignedText_positional (negative : Bool) (ds : List Char) (e : Int) :
    (positional negative ds e).unsignedText = positionalText true ds e := by
  cases e with
  | negSucc k => simp [positional, positionalText, unsignedText, fractionText, exponentText]
  | ofNat k =>
      rw [positional, positionalText]
      split <;> simp [unsignedText, fractionText, exponentText]

/-- The exponential form of a numeral is the exponential text of its digits. -/
theorem unsignedText_exponential (negative : Bool) (ds : List Char) (e : Int) :
    (exponential negative ds e).unsignedText = exponentialText ds e := by
  match ds with
  | [] => rfl
  | [_] => rfl
  | _ :: _ :: _ => rfl

/-- The positional form has the sign that it was made with. -/
theorem negative_positional (negative : Bool) (ds : List Char) (e : Int) :
    (positional negative ds e).negative = negative := by
  unfold positional
  split
  · rfl
  · split <;> rfl

/-- The exponential form has the sign that it was made with. -/
theorem negative_exponential (negative : Bool) (ds : List Char) (e : Int) :
    (exponential negative ds e).negative = negative := by
  unfold exponential
  split <;> rfl

/-- Digits with the point in place have the value that the exponent gives them. -/
theorem absValue_positional (negative : Bool) (ds : List Char) (e : Int) :
    (positional negative ds e).absValue = Text.value ds * 10 ^ (e + 1 - ds.length) := by
  cases e with
  | negSucc k =>
      have hexponent : (0 : Int) - ((k + ds.length : Nat) : Int)
          = Int.negSucc k + 1 - ds.length := by
        push_cast
        omega
      have hvalue : Text.value ('0' :: (List.replicate k '0' ++ ds)) = Text.value ds := by
        rw [← List.cons_append, ← List.replicate_succ, Text.value_append, Text.value_replicate_zero]
        simp
      simp only [positional, absValue, Option.getD_some, Option.getD_none, List.singleton_append,
        hvalue, List.length_append, List.length_replicate, hexponent]
  | ofNat k =>
      rw [positional]
      split
      · next hle =>
          have hexponent : Int.ofNat k + 1 - ds.length
              = ((k + 1 - ds.length : Nat) : Int) := by
            rw [Int.ofNat_eq_natCast]
            omega
          have hvalue : Text.value (ds ++ List.replicate (k + 1 - ds.length) '0' ++ ['0'])
              = Text.value ds * 10 ^ (k + 1 - ds.length) * 10 := by
            rw [Text.value_append_singleton, Text.value_append, Text.value_replicate_zero,
              List.length_replicate]
            simp [Text.digitValue, mul_comm]
          rw [hexponent, zpow_natCast, absValue]
          simp only [Option.getD_some, Option.getD_none, hvalue]
          push_cast
          rw [mul_assoc]
          norm_num
      · next hlt =>
          have hexponent : (0 : Int) - ((ds.length - (k + 1) : Nat) : Int)
              = Int.ofNat k + 1 - ds.length := by
            rw [Int.ofNat_eq_natCast]
            omega
          simp only [absValue, Option.getD_some, Option.getD_none, List.take_append_drop,
            List.length_drop, hexponent]

/-- Digits with an exponent have the value that it gives them. -/
theorem absValue_exponential (negative : Bool) (hne : ds ≠ []) (e : Int) :
    (exponential negative ds e).absValue = Text.value ds * 10 ^ (e + 1 - ds.length) := by
  match ds, hne with
  | [first], _ => simp [exponential, absValue]
  | first :: second :: others, _ =>
      have hexponent : e - ((others.length + 1 : Nat) : Int)
          = e + 1 - ((others.length + 1 + 1 : Nat) : Int) := by
        push_cast
        omega
      simp only [exponential, absValue, Option.getD_some, List.singleton_append, List.length_cons,
        hexponent]

/-- The positional form of digits is well formed, wherever the point is put. -/
theorem wellFormed_positional (negative : Bool) (hdigits : AllDigits ds) (hne : ds ≠ [])
    (hhead : ds.head? ≠ some '0') (e : Int) : (positional negative ds e).WellFormed := by
  have hzeros (k : Nat) : AllDigits (List.replicate k '0') := by
    intro c hc
    rw [(List.mem_replicate.mp hc).2]
    decide
  cases e with
  | negSucc k =>
      exact ⟨by simp [AllDigits, positional], by simp [positional], by simp [positional], by
        rintro _ ⟨⟩
        exact ⟨List.forall_mem_append.mpr ⟨hzeros k, hdigits⟩, by simp [hne]⟩⟩
  | ofNat k =>
      rw [positional]
      split
      · refine ⟨List.forall_mem_append.mpr ⟨hdigits, hzeros _⟩, by simp [hne], fun h => ?_, ?_⟩
        · rw [List.head?_append_of_ne_nil _ hne] at h
          exact absurd h hhead
        · rintro _ ⟨⟩
          simp [AllDigits]
      · next hlt =>
          refine ⟨fun c hc => hdigits c (List.mem_of_mem_take hc), by simp [hne], fun h => ?_, ?_⟩
          · rw [List.head?_take] at h
            exact absurd h hhead
          · rintro _ ⟨⟩
            exact ⟨fun c hc => hdigits c (List.mem_of_mem_drop hc), by simp; omega⟩

/-- The exponential form of digits is well formed, whatever the exponent. -/
theorem wellFormed_exponential (negative : Bool) (hdigits : AllDigits ds) (hne : ds ≠ [])
    (hhead : ds.head? ≠ some '0') (e : Int) : (exponential negative ds e).WellFormed := by
  match ds, hne with
  | [first], hone => exact ⟨hdigits, hone, fun h => absurd h hhead, by rintro _ ⟨⟩⟩
  | first :: second :: others, _ =>
      obtain ⟨hfirst, hothers⟩ := List.forall_mem_cons.mp hdigits
      refine ⟨by simpa [AllDigits, exponential] using hfirst, by simp [exponential],
        fun h => absurd h hhead, ?_⟩
      rintro _ ⟨⟩
      exact ⟨hothers, List.cons_ne_nil _ _⟩

end Digits

end Json.Numeral

/-! ### The digits of a decimal -/

namespace Decimal

/-- Zeros at the end are all that a decimal is written without. -/
theorem exists_digits_eq (d : Decimal) :
    ∃ k, Text.digits d.significand = d.digits ++ List.replicate k '0' := by
  refine ⟨((Text.digits d.significand).reverse.takeWhile (· = '0')).length, ?_⟩
  have hzeros : ((Text.digits d.significand).reverse.takeWhile (· = '0')).reverse
      = List.replicate ((Text.digits d.significand).reverse.takeWhile (· = '0')).length '0' := by
    refine List.eq_replicate_iff.mpr ⟨List.length_reverse, fun c hc => ?_⟩
    simpa using List.mem_takeWhile_imp (List.mem_reverse.mp hc)
  rw [← hzeros, digits, ← List.reverse_append, List.takeWhile_append_dropWhile,
    List.reverse_reverse]

/-- What is written of a decimal that is not zero. -/
theorem digits_spec {d : Decimal} (h : 0 < d.significand) :
    Json.Numeral.AllDigits d.digits ∧ d.digits ≠ [] ∧ d.digits.head? ≠ some '0' ∧
      d.toRat = Text.value d.digits * 10 ^ (d.leading + 1 - d.digits.length) := by
  obtain ⟨k, hk⟩ := d.exists_digits_eq
  have hvalue : d.significand = Text.value d.digits * 10 ^ k := by
    have hall := congrArg Text.value hk
    rwa [Text.value_digits, Text.value_append, Text.value_replicate_zero, List.length_replicate,
      Nat.add_zero] at hall
  have hne : d.digits ≠ [] := by
    intro hnil
    rw [hvalue, hnil] at h
    simp [Text.value] at h
  refine ⟨fun c hc => ?_, hne, fun hhead => ?_, ?_⟩
  · refine Text.isDigit_of_mem_digits (n := d.significand) ?_
    rw [hk]
    exact List.mem_append_left _ hc
  · refine h.ne' (Text.eq_zero_of_head?_digits ?_)
    rw [hk, List.head?_append_of_ne_nil _ hne, hhead]
  · have hexponent : d.leading + 1 - d.digits.length = k + d.exponent := by
      rw [leading, hk, List.length_append, List.length_replicate]
      push_cast
      omega
    have hvalue : (d.significand : ℚ) = Text.value d.digits * 10 ^ k := by exact_mod_cast hvalue
    rw [toRat, hvalue, hexponent, zpow_add₀ (by norm_num), zpow_natCast]
    ring

end Decimal

/-! ### The numerals of doubles -/

namespace Json.Numeral

/-- The numeral that a double is written as. -/
def ofDouble (d : Binary64) : Numeral :=
  let decimal := d.shortest Layout.json.tie
  if d.isZero then ⟨d.negative, ['0'], some ['0'], none⟩
  else if Layout.json.isPositional decimal.leading then
    positional d.negative decimal.digits decimal.leading
  else exponential d.negative decimal.digits decimal.leading

/-- The numeral of a double has the sign of the double. -/
theorem negative_ofDouble (d : Binary64) : (ofDouble d).negative = d.negative := by
  rw [ofDouble]
  split
  · rfl
  · split
    · exact negative_positional _ _ _
    · exact negative_exponential _ _ _

/-- What a finite double is written as is the text of its numeral. -/
theorem text_ofDouble {d : Binary64} (h : d.isFinite = true) :
    d.text .json = (ofDouble d).text := by
  have hnumber : d.isNaN = false := by
    rw [Binary64.isFinite, decide_eq_true_eq] at h
    rw [Binary64.isNaN, decide_eq_false_iff_not]
    omega
  have hunsigned : d.absText .json = (ofDouble d).unsignedText := by
    rw [Binary64.absText, ofDouble]
    split
    · rfl
    · split
      · next hplace =>
          rw [unsignedText_positional]
          exact if_pos hplace
      · next hplace =>
          rw [unsignedText_exponential]
          exact if_neg hplace
  rw [Binary64.text, text, hnumber, h, negative_ofDouble, ← hunsigned]
  rfl

/-- The shortest digits of a double that is not zero are not zero. -/
theorem significand_shortest_pos {d : Binary64} (h : d.isZero = false) (tie : Tie) :
    0 < (d.shortest tie).significand := by
  have hpos := Binary64.pos_of_contains h (Binary64.contains_shortest tie h)
  by_contra hzero
  rw [Decimal.toRat, Nat.eq_zero_of_not_pos hzero] at hpos
  simp at hpos

/-- The numeral of a double is well formed. -/
theorem wellFormed_ofDouble (d : Binary64) : (ofDouble d).WellFormed := by
  rw [ofDouble]
  split
  · exact ⟨by simp [AllDigits], by simp, fun _ => rfl, by rintro _ ⟨⟩; simp [AllDigits]⟩
  · next hzero =>
      have hpos := significand_shortest_pos (Bool.eq_false_of_not_eq_true hzero) Layout.json.tie
      obtain ⟨hdigits, hne, hhead, -⟩ := Decimal.digits_spec hpos
      split
      · exact wellFormed_positional _ hdigits hne hhead _
      · exact wellFormed_exponential _ hdigits hne hhead _

/-- The numeral of a double has the value of the decimal that is written. -/
theorem absValue_ofDouble {d : Binary64} (h : d.isZero = false) :
    (ofDouble d).absValue = (d.shortest Layout.json.tie).toRat := by
  obtain ⟨-, hne, -, hvalue⟩ := Decimal.digits_spec (significand_shortest_pos h Layout.json.tie)
  rw [ofDouble, if_neg (by simp [h]), hvalue]
  split
  · exact absValue_positional _ _ _
  · exact absValue_exponential _ hne _

/-- Only zero has a numeral of the value zero. -/
theorem absValue_ofDouble_eq_zero_iff (d : Binary64) :
    (ofDouble d).absValue = 0 ↔ d.isZero = true := by
  cases h : d.isZero with
  | true =>
      rw [ofDouble, if_pos h]
      simp [absValue, Text.value, Text.digitValue]
  | false =>
      have hpos := Binary64.pos_of_contains h (Binary64.contains_shortest Layout.json.tie h)
      simp [absValue_ofDouble h, hpos.ne']

/-- **A double is determined by its numeral**: by the sign, and by the value, which lies in the
interval of one magnitude only. -/
theorem ofDouble_injective : Function.Injective ofDouble := by
  intro d d' h
  have hsign : d.negative = d'.negative := by
    rw [← negative_ofDouble d, ← negative_ofDouble d', h]
  have hzero : d.isZero = d'.isZero := by
    rw [Bool.eq_iff_iff, ← absValue_ofDouble_eq_zero_iff, ← absValue_ofDouble_eq_zero_iff, h]
  have hmagnitude : d.magnitude = d'.magnitude := by
    cases hd : d.isZero with
    | true =>
        have hd' := hzero.symm.trans hd
        rw [Binary64.isZero, decide_eq_true_eq] at hd hd'
        exact Fin.ext (hd.trans hd'.symm)
    | false =>
        have hd' := hzero.symm.trans hd
        have hcontains := Binary64.contains_shortest Layout.json.tie hd
        rw [← absValue_ofDouble hd, h, absValue_ofDouble hd'] at hcontains
        exact Binary64.magnitude_eq_of_contains hd hd' hcontains
          (Binary64.contains_shortest Layout.json.tie hd')
  obtain ⟨negative, magnitude⟩ := d
  obtain ⟨negative', magnitude'⟩ := d'
  obtain rfl : negative = negative' := hsign
  obtain rfl : magnitude = magnitude' := hmagnitude
  rfl

/-- A double is written with a fraction or with an exponent. -/
theorem fraction_or_exponent_ofDouble (d : Binary64) :
    (ofDouble d).fraction ≠ none ∨ (ofDouble d).exponent ≠ none := by
  rw [ofDouble]
  split
  · exact Or.inl (by simp)
  · split
    · refine Or.inl ?_
      unfold positional
      split
      · simp
      · split <;> simp
    · refine Or.inr ?_
      unfold exponential
      split <;> simp

end Json.Numeral

/-! ### The numerals of numbers -/

namespace Json

/-- The numeral that a whole number is written as. -/
def numeral : Int → Numeral
  | .ofNat n => ⟨false, Text.digits n, none, none⟩
  | .negSucc n => ⟨true, Text.digits (n + 1), none, none⟩

/-- The whole numbers that are read as such: from `-2 ^ 63` on, and below `2 ^ 64`. -/
def InBounds (i : Int) : Prop :=
  -9223372036854775808 ≤ i ∧ i < 18446744073709551616

/-- The value of the numeral of a whole number within the bounds is this number. -/
theorem number?_numeral {i : Int} (h : InBounds i) :
    (numeral i).number? = some (.integer i) := by
  cases i with
  | ofNat n =>
      have hlarge := h.2
      rw [Int.ofNat_eq_natCast] at hlarge
      simp [numeral, Numeral.number?, Text.value_digits]
      omega
  | negSucc n =>
      have hsmall := h.1
      rw [Int.negSucc_eq] at hsmall
      simp [numeral, Numeral.number?, Text.value_digits, Int.negSucc_eq]
      omega

/-- Numbers with the same numeral are the same. -/
theorem numeral_injective : Function.Injective numeral := by
  intro i i' h
  have hdigits {n n' : Nat} (hds : Text.digits n = Text.digits n') : n = n' := by
    rw [← Text.value_digits n, hds, Text.value_digits]
  cases i <;> cases i' <;> simp only [numeral, Numeral.mk.injEq] at h
  · rw [hdigits h.2.1]
  · exact absurd h.1 (by decide)
  · exact absurd h.1 (by decide)
  · rw [Nat.succ.inj (hdigits h.2.1)]

/-- Whole numbers are written without a fraction and without an exponent. -/
theorem fraction_numeral (i : Int) : (numeral i).fraction = none ∧ (numeral i).exponent = none := by
  cases i <;> exact ⟨rfl, rfl⟩

namespace Number

/-- The numeral that a number is written as. -/
def numeral : Number → Numeral
  | .integer i => Json.numeral i
  | .double d => Numeral.ofDouble d.val

/-- **A number is written as the text of its numeral.** -/
theorem text_numeral (n : Number) : n.numeral.text = Writer.number n := by
  cases n with
  | integer i =>
      cases i <;> simp [numeral, Json.numeral, Numeral.text, Numeral.unsignedText,
        Numeral.fractionText, Numeral.exponentText, Writer.number, Text.integerText]
  | double d => exact (Numeral.text_ofDouble d.property).symm

/-- The numeral of a number is well formed. -/
theorem wellFormed_numeral (n : Number) : n.numeral.WellFormed := by
  have hdigits (negative : Bool) (n : Nat) :
      Numeral.WellFormed ⟨negative, Text.digits n, none, none⟩ := by
    refine ⟨fun c hc => Text.isDigit_of_mem_digits hc, Text.digits_ne_nil n, fun h => ?_,
      by rintro _ ⟨⟩⟩
    rw [Text.eq_zero_of_head?_digits h]
    simp [Text.digits, Text.digitChar]
  cases n with
  | integer i =>
      cases i with
      | ofNat n => exact hdigits false n
      | negSucc n => exact hdigits true (n + 1)
  | double d => exact Numeral.wellFormed_ofDouble d.val

/-- **A number is determined by its numeral**, and so is whether it is whole. -/
theorem numeral_injective : Function.Injective numeral := by
  have hdistinct (i : Int) (d : Binary64) : Json.numeral i ≠ Numeral.ofDouble d := by
    intro h
    obtain ⟨hfraction, hexponent⟩ := fraction_numeral i
    rw [h] at hfraction hexponent
    exact (Numeral.fraction_or_exponent_ofDouble d).elim (· hfraction) (· hexponent)
  intro n n' h
  cases n with
  | integer i =>
      cases n' with
      | integer i' => rw [Json.numeral_injective h]
      | double d' => exact absurd h (hdistinct i d'.val)
  | double d =>
      cases n' with
      | integer i' => exact absurd h.symm (hdistinct i' d.val)
      | double d' => rw [Subtype.ext (Numeral.ofDouble_injective h)]

end Number

end Json

end ResourceQuery
