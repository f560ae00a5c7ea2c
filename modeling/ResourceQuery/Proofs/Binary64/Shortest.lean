import Mathlib.Algebra.Order.Field.Power
import Mathlib.Data.Nat.Cast.Order.Field
import Mathlib.Tactic.FieldSimp
import Mathlib.Tactic.Linarith
import Mathlib.Tactic.Positivity
import Mathlib.Tactic.Ring
import ResourceQuery.Binary64.Shortest
import ResourceQuery.Proofs.Text.Digits

/-!
# The decimal of a double lies in its interval

A double is written by a decimal that lies in the interval of numbers nearest to it. The intervals
of two doubles of one sign have no number in common: their ends meet at most, and where they do, the
significand of one of them is odd, so that its ends do not count. Therefore the value of the decimal
tells which double was written.

The decimal is searched for on finer and finer grids. A grid has a number in the interval unless its
step is as long as the interval, and the grid of seventeen digits is finer than that: a significand
has 53 bits, and `4 * 2 ^ 53 < 4 * 10 ^ 16`; for a power of two, whose interval is shorter, the
significand is `2 ^ 52`.

Lengths are counted in quarters of the distance between neighbouring doubles, so that all ends are
whole.

## Main definitions

* `Binary64.Interval.Contains`: whether a number lies in an interval.
* `Binary64.lower`, `Binary64.upper`: the ends of the interval of a double.
* `Binary64.Precedes`: one interval ends where the other one begins, or in front of it.

## Main statements

* `Binary64.magnitude_eq_of_contains`: no number lies in the intervals of two doubles.
* `Binary64.Interval.onGrid?_spec`: the search on one grid.
* `Binary64.contains_shortest`: the decimal that is written lies in the interval.
-/

namespace ResourceQuery

/-- The value of a decimal. -/
def Decimal.toRat (d : Decimal) : ℚ :=
  d.significand * 10 ^ d.exponent

namespace Binary64

/-! ### Significands and exponents -/

/-- The number `2 ^ 52`, written out. -/
theorem two_pow_fifty_two : Nat.pow 2 52 = 4503599627370496 :=
  rfl

/-- A significand has no more than 53 bits. -/
theorem significand_lt (d : Binary64) : d.significand < 9007199254740992 := by
  rw [significand, two_pow_fifty_two]
  split <;> omega

/-- Only zero has a significand that is zero. -/
theorem significand_pos {d : Binary64} (h : d.isZero = false) : 0 < d.significand := by
  rw [isZero, decide_eq_false_iff_not] at h
  rw [significand, two_pow_fifty_two]
  split <;> omega

/-- A larger magnitude has a larger significand with the same exponent, or a larger exponent and the
hidden bit. -/
theorem significand_lt_or_exponent_lt {d d' : Binary64}
    (h : d.magnitude.val < d'.magnitude.val) :
    (d.exponent = d'.exponent ∧ d.significand < d'.significand) ∨
      (d.exponent < d'.exponent ∧ 4503599627370496 ≤ d'.significand ∧ -1074 < d'.exponent) := by
  simp only [significand, exponent, two_pow_fifty_two]
  split <;> split <;> omega

/-! ### The ends of an interval -/

/-- A quarter of the distance between neighbouring doubles with this exponent. -/
def quarter (d : Binary64) : ℚ :=
  2 ^ (d.exponent - 2)

/-- The distance from a double down to the end of its interval, in quarters. -/
def gap (d : Binary64) : Nat :=
  if d.significand = 4503599627370496 ∧ -1074 < d.exponent then 1 else 2

/-- A quarter of a unit in the last place is positive. -/
theorem quarter_pos (d : Binary64) : 0 < d.quarter := by
  rw [quarter]
  positivity

/-- The interval holds the numbers of quarters, scaled by one factor to whole numbers. -/
theorem exists_interval_eq (d : Binary64) : ∃ num den : Nat, 0 < num ∧ 0 < den ∧
    (num : ℚ) = d.quarter * den ∧
    d.interval = ⟨(4 * d.significand - d.gap) * num, 4 * d.significand * num,
      (4 * d.significand + 2) * num, den, decide (d.significand % 2 = 0)⟩ := by
  rw [interval, gap, quarter]
  rcases d.exponent - 2 with k | k
  · refine ⟨2 ^ k, 1, by positivity, Nat.one_pos, ?_, rfl⟩
    simp
  · refine ⟨1, 2 ^ (k + 1), Nat.one_pos, by positivity, ?_, rfl⟩
    rw [zpow_negSucc]
    push_cast
    field_simp

/-- The lower end of the interval of a double. -/
def lower (d : Binary64) : ℚ :=
  (4 * d.significand - d.gap) * d.quarter

/-- The upper end of the interval of a double. -/
def upper (d : Binary64) : ℚ :=
  (4 * d.significand + 2) * d.quarter

/-- Whether a number lies in an interval. -/
def Interval.Contains (i : Interval) (x : ℚ) : Prop :=
  if i.closed then (i.low : ℚ) ≤ x * i.den ∧ x * i.den ≤ i.high
  else (i.low : ℚ) < x * i.den ∧ x * i.den < i.high

/-- The gap below a double is at most two quarters of a unit. -/
theorem gap_le_two (d : Binary64) : d.gap ≤ 2 := by
  rw [gap]
  split <;> decide

/-- The gap below a double is not empty. -/
theorem one_le_gap (d : Binary64) : 1 ≤ d.gap := by
  rw [gap]
  split <;> decide

/-- The gap below a double does not reach beyond zero. -/
theorem gap_le {d : Binary64} (h : d.isZero = false) : d.gap ≤ 4 * d.significand := by
  have hpos := significand_pos h
  have hle := d.gap_le_two
  omega

/-- A number lies in the interval of a double when it lies between the ends; an end only counts
when the significand is even. -/
theorem contains_interval_iff {d : Binary64} (h : d.isZero = false) (x : ℚ) :
    d.interval.Contains x ↔
      if d.significand % 2 = 0 then d.lower ≤ x ∧ x ≤ d.upper else d.lower < x ∧ x < d.upper := by
  obtain ⟨num, den, _, hden, hnum, hinterval⟩ := d.exists_interval_eq
  have hgap := gap_le h
  have hpos : (0 : ℚ) < den := by exact_mod_cast hden
  have hlow : (((4 * d.significand - d.gap) * num : Nat) : ℚ) = d.lower * den := by
    rw [Nat.cast_mul, hnum, Nat.cast_sub hgap, lower]
    push_cast
    ring
  have hhigh : (((4 * d.significand + 2) * num : Nat) : ℚ) = d.upper * den := by
    rw [Nat.cast_mul, hnum, upper]
    push_cast
    ring
  rw [hinterval, Interval.Contains]
  simp only [hlow, hhigh, decide_eq_true_eq, mul_le_mul_iff_left₀ hpos, mul_lt_mul_iff_left₀ hpos]

/-! ### No number lies in two intervals -/

/-- The interval of the first double ends where that of the second one begins, or in front of it;
and where they meet, the end belongs to one of them at most. -/
def Precedes (d d' : Binary64) : Prop :=
  d.upper ≤ d'.lower ∧
    (d.upper = d'.lower → d.significand % 2 = 0 → d'.significand % 2 = 0 → False)

/-- With the same exponent, significands differ by one at least, and where the intervals meet, by
one exactly. -/
theorem precedes_of_significand_lt {d d' : Binary64} (hexponent : d.exponent = d'.exponent)
    (hlt : d.significand < d'.significand) : d.Precedes d' := by
  have hquarter := d.quarter_pos
  have hgap : (d'.gap : ℚ) ≤ 2 := by exact_mod_cast d'.gap_le_two
  have hsame : d'.quarter = d.quarter := by rw [quarter, quarter, hexponent]
  have hsucc : (d.significand : ℚ) + 1 ≤ d'.significand := by exact_mod_cast hlt
  have hends : (4 * d.significand + 2 : ℚ) ≤ 4 * d'.significand - d'.gap := by linarith
  rw [Precedes, upper, lower, hsame]
  refine ⟨mul_le_mul_of_nonneg_right hends hquarter.le, fun hmeet heven heven' => ?_⟩
  have hmeet := mul_right_cancel₀ hquarter.ne' hmeet
  have hnext : (d'.significand : ℚ) ≤ d.significand + 1 := by linarith
  have hnext : d'.significand ≤ d.significand + 1 := by exact_mod_cast hnext
  omega

/-- In quarters of a smaller exponent, an interval with the hidden bit does not begin before the
largest significand of that exponent ends. -/
theorem largest_le_lower {d d' : Binary64} (hexponent : d.exponent < d'.exponent)
    (hhidden : 4503599627370496 ≤ d'.significand) (hnormal : -1074 < d'.exponent) :
    (4 * 9007199254740991 + 2) * d.quarter ≤ d'.lower := by
  have hquarter := d.quarter_pos
  have hdouble : 2 * d.quarter ≤ d'.quarter := by
    have hpow : (2 : ℚ) ^ (d.exponent - 2 + 1) ≤ 2 ^ (d'.exponent - 2) :=
      zpow_le_zpow_right₀ one_le_two (by omega)
    rwa [zpow_add_one₀ two_ne_zero, mul_comm] at hpow
  -- only the smallest significand has the shorter gap below it
  have hnat : 18014398509481983 + d'.gap ≤ 4 * d'.significand := by
    have hle := d'.gap_le_two
    rw [gap] at hle ⊢
    split <;> omega
  have hcast : (18014398509481983 + d'.gap : ℚ) ≤ 4 * d'.significand := by exact_mod_cast hnat
  calc (4 * 9007199254740991 + 2) * d.quarter = 18014398509481983 * (2 * d.quarter) := by ring
    _ ≤ (4 * d'.significand - d'.gap) * d'.quarter :=
        mul_le_mul (by linarith) hdouble (by positivity) (by linarith)

/-- With a larger exponent, the intervals meet only when the first significand is the largest one,
and this one is odd. -/
theorem precedes_of_exponent_lt {d d' : Binary64} (hexponent : d.exponent < d'.exponent)
    (hhidden : 4503599627370496 ≤ d'.significand) (hnormal : -1074 < d'.exponent) :
    d.Precedes d' := by
  have hquarter := d.quarter_pos
  have hlower := largest_le_lower hexponent hhidden hnormal
  have hlt := d.significand_lt
  have hsignificand : (d.significand : ℚ) ≤ 9007199254740991 := by
    exact_mod_cast Nat.le_of_lt_succ hlt
  have hupper : d.upper ≤ (4 * 9007199254740991 + 2) * d.quarter :=
    mul_le_mul_of_nonneg_right (by linarith) hquarter.le
  refine ⟨hupper.trans hlower, fun hmeet heven _ => ?_⟩
  rw [← hmeet, upper] at hlower
  have hlargest := le_of_mul_le_mul_right hlower hquarter
  have hlargest : (9007199254740991 : ℚ) ≤ d.significand := by linarith
  have hlargest : 9007199254740991 ≤ d.significand := by exact_mod_cast hlargest
  omega

/-- **Intervals follow one another** as the magnitudes do. -/
theorem precedes_of_lt {d d' : Binary64} (h : d.magnitude.val < d'.magnitude.val) :
    d.Precedes d' := by
  rcases significand_lt_or_exponent_lt h with ⟨hexponent, hlt⟩ | ⟨hexponent, hhidden, hnormal⟩
  · exact precedes_of_significand_lt hexponent hlt
  · exact precedes_of_exponent_lt hexponent hhidden hnormal

/-- No number is in the intervals of two doubles, one of which precedes the other. -/
theorem Precedes.not_contains {d d' : Binary64} (hprecedes : d.Precedes d')
    (hd : d.isZero = false) (hd' : d'.isZero = false) {x : ℚ} (h : d.interval.Contains x)
    (h' : d'.interval.Contains x) : False := by
  obtain ⟨hle, hmeet⟩ := hprecedes
  rw [contains_interval_iff hd] at h
  rw [contains_interval_iff hd'] at h'
  split at h <;> split at h'
  · next heven heven' => exact hmeet (le_antisymm hle (h'.1.trans h.2)) heven heven'
  all_goals linarith [h.1, h.2, h'.1, h'.2]

/-- **No number lies in the intervals of two doubles** of one sign. -/
theorem magnitude_eq_of_contains {d d' : Binary64} (hd : d.isZero = false)
    (hd' : d'.isZero = false) {x : ℚ} (h : d.interval.Contains x) (h' : d'.interval.Contains x) :
    d.magnitude = d'.magnitude := by
  rcases Nat.lt_trichotomy d.magnitude.val d'.magnitude.val with hlt | heq | hgt
  · exact ((precedes_of_lt hlt).not_contains hd hd' h h').elim
  · exact Fin.ext heq
  · exact ((precedes_of_lt hgt).not_contains hd' hd h' h).elim

/-- Zero lies in no interval but its own. -/
theorem pos_of_contains {d : Binary64} (hd : d.isZero = false) {x : ℚ}
    (h : d.interval.Contains x) : 0 < x := by
  have hlower : 0 < d.lower := by
    have hpos : (1 : ℚ) ≤ d.significand := by exact_mod_cast significand_pos hd
    have hgap : (d.gap : ℚ) ≤ 2 := by exact_mod_cast d.gap_le_two
    exact mul_pos (by linarith) d.quarter_pos
  rw [contains_interval_iff hd] at h
  split at h <;> linarith [h.1]

/-! ### Grids -/

namespace Interval

/-- Whether the first number may stand in front of the second one, as an end of the interval. -/
def within (i : Interval) (first second : Nat) : Bool :=
  if i.closed then first ≤ second else first < second

/-- A number below another is within it as a bound, whether or not the interval is closed. -/
theorem within_of_lt (i : Interval) {first second : Nat} (h : first < second) :
    i.within first second = true := by
  rw [within]
  split <;> simp [h, h.le]

/-- A number that is not within a bound is not below it. -/
theorem le_of_not_within {i : Interval} {first second : Nat} (h : i.within first second = false) :
    second ≤ first := by
  rw [within] at h
  split at h
  · exact (Nat.lt_of_not_le (of_decide_eq_false h)).le
  · exact Nat.le_of_not_lt (of_decide_eq_false h)

/-- A number on a grid lies in an interval, if it does after both are scaled. -/
theorem contains_of_within {i : Interval} {factor step n : Nat} {e : Int} (hfactor : 0 < factor)
    (hstep : (step : ℚ) = 10 ^ e * (i.den * factor))
    (hlow : i.within (i.low * factor) (n * step) = true)
    (hhigh : i.within (n * step) (i.high * factor) = true) :
    i.Contains (Decimal.toRat ⟨n, e⟩) := by
  have hpos : (0 : ℚ) < factor := by exact_mod_cast hfactor
  have hscaled : ((n * step : Nat) : ℚ) = Decimal.toRat ⟨n, e⟩ * i.den * factor := by
    rw [Nat.cast_mul, hstep, Decimal.toRat]
    ring
  rw [within] at hlow hhigh
  rw [Contains]
  split
  · next hclosed =>
      rw [if_pos hclosed, decide_eq_true_eq] at hlow hhigh
      rw [← mul_le_mul_iff_left₀ hpos, ← mul_le_mul_iff_left₀ hpos (c := (i.high : ℚ)), ← hscaled]
      exact ⟨by exact_mod_cast hlow, by exact_mod_cast hhigh⟩
  · next hopen =>
      rw [if_neg hopen, decide_eq_true_eq] at hlow hhigh
      rw [← mul_lt_mul_iff_left₀ hpos, ← mul_lt_mul_iff_left₀ hpos (c := (i.high : ℚ)), ← hscaled]
      exact ⟨by exact_mod_cast hlow, by exact_mod_cast hhigh⟩

/-- The search on a grid: both sides are scaled by a factor, so that the step of the grid becomes
whole, and the two neighbours of the middle are tried. -/
theorem exists_onGrid?_eq (i : Interval) (tie : Tie) (e : Int) (hden : 0 < i.den) :
    ∃ (factor step : Nat) (lower : Bool), 0 < factor ∧ 0 < step ∧
      (step : ℚ) = 10 ^ e * (i.den * factor) ∧
      i.onGrid? tie e =
        let floor := i.middle * factor / step
        let belowIn := i.within (i.low * factor) (floor * step)
        let aboveIn := i.within (floor * step + step) (i.high * factor)
        if belowIn && aboveIn then some ⟨if lower then floor else floor + 1, e⟩
        else if belowIn then some ⟨floor, e⟩
        else if aboveIn then some ⟨floor + 1, e⟩
        else none := by
  cases e with
  | ofNat k =>
      refine ⟨1, 10 ^ k * i.den, _, Nat.one_pos, by positivity, ?_, rfl⟩
      simp
  | negSucc k =>
      refine ⟨10 ^ (k + 1), i.den, _, by positivity, hden, ?_, rfl⟩
      rw [zpow_negSucc]
      push_cast
      field_simp

/-- **A number that is found lies in the interval**, and one is found unless the step of the grid
is as long as the interval. -/
theorem onGrid?_spec {i : Interval} (tie : Tie) (e : Int) (hden : 0 < i.den)
    (hlow : i.low < i.middle) (hhigh : i.middle < i.high) :
    match i.onGrid? tie e with
    | some found => i.Contains found.toRat
    | none => (i.high - i.low : ℚ) ≤ 10 ^ e * i.den := by
  obtain ⟨factor, step, lower, hfactor, hpos, hstep, heq⟩ := i.exists_onGrid?_eq tie e hden
  have hfloor : i.middle * factor / step * step ≤ i.middle * factor := Nat.div_mul_le_self _ _
  have hnext : i.middle * factor < i.middle * factor / step * step + step :=
    Nat.lt_div_mul_add hpos
  have hlow : i.low * factor < i.middle * factor := Nat.mul_lt_mul_of_pos_right hlow hfactor
  have hhigh : i.middle * factor < i.high * factor := Nat.mul_lt_mul_of_pos_right hhigh hfactor
  rw [heq]
  generalize i.middle * factor / step = floor at hfloor hnext ⊢
  have hsucc : floor * step + step = (floor + 1) * step := (Nat.succ_mul floor step).symm
  -- each neighbour of the middle is on its side of the other end already
  have hbelow (h : i.within (i.low * factor) (floor * step) = true) :
      i.Contains (Decimal.toRat ⟨floor, e⟩) :=
    contains_of_within hfactor hstep h (i.within_of_lt (hfloor.trans_lt hhigh))
  have habove (h : i.within (floor * step + step) (i.high * factor) = true) :
      i.Contains (Decimal.toRat ⟨floor + 1, e⟩) := by
    rw [hsucc] at h hnext
    exact contains_of_within hfactor hstep (i.within_of_lt (hlow.trans hnext)) h
  cases hB : i.within (i.low * factor) (floor * step) <;>
    cases hA : i.within (floor * step + step) (i.high * factor) <;>
    simp only [hB, hA, Bool.and_true, Bool.and_false, Bool.false_eq_true, if_true, if_false]
  · -- both neighbours miss it, so it is not longer than the step between them
    have hlength : i.high * factor ≤ i.low * factor + step := by
      have hmissed := le_of_not_within hB
      have hmissed' := le_of_not_within hA
      omega
    have hlength : (i.high * factor : ℚ) ≤ i.low * factor + step := by exact_mod_cast hlength
    have hscale : (0 : ℚ) < factor := by exact_mod_cast hfactor
    rw [hstep] at hlength
    exact le_of_mul_le_mul_right (by linarith) hscale
  · exact habove hA
  · exact hbelow hB
  · cases lower
    · exact habove hA
    · exact hbelow hB

end Interval

/-! ### Seventeen digits -/

/-- The leading power of ten is not beyond the quotient. -/
theorem pow_leadingExponent_le {num den : Nat} (hnum : 0 < num) (hden : 0 < den) :
    (10 : ℚ) ^ leadingExponent num den * den ≤ num := by
  rw [leadingExponent, if_neg hnum.ne']
  split
  · next hle =>
      have hdigits : 0 < (Text.digits (num / den)).length :=
        List.length_pos_iff.mpr (Text.digits_ne_nil _)
      have hexponent : ((Text.digits (num / den)).length : Int) - 1
          = ((Text.digits (num / den)).length - 1 : Nat) := by omega
      have hpow := Text.pow_length_digits_le (Nat.div_pos hle hden)
      rw [hexponent, zpow_natCast]
      exact_mod_cast (Nat.le_div_iff_mul_le hden).mp hpow
  · next hlt =>
      have hquotient : 0 < (den - 1) / num := Nat.div_pos (by omega) hnum
      have hpow := Text.lt_pow_length_digits ((den - 1) / num)
      have hden : den ≤ num * 10 ^ (Text.digits ((den - 1) / num)).length := by
        have hmul := (Nat.div_lt_iff_lt_mul hnum).mp hpow
        rw [Nat.mul_comm] at hmul
        omega
      have hden : (den : ℚ) ≤ num * 10 ^ (Text.digits ((den - 1) / num)).length := by
        exact_mod_cast hden
      rw [if_neg hquotient.ne', zpow_neg, zpow_natCast, inv_mul_le_iff₀ (by positivity), mul_comm]
      exact hden

/-- The step of the grid of seventeen digits is shorter than the interval. -/
theorem pow_lt_length {d : Binary64} (h : d.isZero = false) :
    (10 : ℚ) ^ (leadingExponent d.interval.middle d.interval.den - 16) * d.interval.den
      < d.interval.high - d.interval.low := by
  obtain ⟨num, den, hnum, hden, hquarter, hinterval⟩ := d.exists_interval_eq
  have hpos := significand_pos h
  have hmiddle : 0 < 4 * d.significand * num := by positivity
  have hle := pow_leadingExponent_le hmiddle hden
  have hgap := gap_le h
  -- seventeen digits tell apart more than the 53 bits of a significand
  have hdigits : 4 * d.significand < (d.gap + 2) * 10 ^ 16 := by
    have hlt := d.significand_lt
    rw [gap]
    split <;> omega
  have hlength : (((4 * d.significand + 2) * num : Nat) : ℚ)
      - ((4 * d.significand - d.gap) * num : Nat) = (d.gap + 2) * num := by
    rw [Nat.cast_mul, Nat.cast_mul, Nat.cast_sub hgap]
    push_cast
    ring
  rw [hinterval]
  calc (10 : ℚ) ^ (leadingExponent (4 * d.significand * num) den - 16) * den
      = 10 ^ leadingExponent (4 * d.significand * num) den * den / 10 ^ 16 := by
        rw [zpow_sub₀ (by norm_num)]
        norm_cast
        ring
    _ ≤ ((4 * d.significand * num : Nat) : ℚ) / 10 ^ 16 := by gcongr
    _ = (4 * d.significand : Nat) / 10 ^ 16 * num := by
        push_cast
        ring
    _ < (d.gap + 2) * num := by
        have hscale : (0 : ℚ) < num := by exact_mod_cast hnum
        refine mul_lt_mul_of_pos_right ?_ hscale
        rw [div_lt_iff₀ (by positivity)]
        exact_mod_cast hdigits
    _ = _ := hlength.symm

/-- **The decimal that is written lies in the interval.** -/
theorem contains_shortest (tie : Tie) {d : Binary64} (h : d.isZero = false) :
    d.interval.Contains (d.shortest tie).toRat := by
  obtain ⟨num, den, hnum, hden, hquarter, hinterval⟩ := d.exists_interval_eq
  have hpos := significand_pos h
  have hgap := d.one_le_gap
  have hden : 0 < d.interval.den := by rwa [hinterval]
  have hlow : d.interval.low < d.interval.middle := by
    rw [hinterval]
    exact Nat.mul_lt_mul_of_pos_right (by omega) hnum
  have hhigh : d.interval.middle < d.interval.high := by
    rw [hinterval]
    exact Nat.mul_lt_mul_of_pos_right (by omega) hnum
  have hspec (e : Int) := Interval.onGrid?_spec tie e hden hlow hhigh
  rw [shortest]
  cases hfound : ((List.range 17).map fun (n : Nat) =>
      leadingExponent d.interval.middle d.interval.den - (n : Int)).findSome?
        (d.interval.onGrid? tie) with
  | none =>
      -- the last grid cannot have missed the interval
      have hlast := List.findSome?_eq_none_iff.mp hfound
        (leadingExponent d.interval.middle d.interval.den - 16)
        (List.mem_map.mpr ⟨16, by decide, rfl⟩)
      have hmissed := hspec (leadingExponent d.interval.middle d.interval.den - 16)
      rw [hlast] at hmissed
      exact absurd hmissed (not_le.mpr (pow_lt_length h))
  | some found =>
      obtain ⟨e, -, he⟩ := List.exists_of_findSome?_eq_some hfound
      have hcontains := hspec e
      rw [he] at hcontains
      exact hcontains

end Binary64

end ResourceQuery
