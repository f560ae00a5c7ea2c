import ResourceQuery.Binary64.Nearest

/-!
# The fewest digits that read back

A finite double is written with the fewest significant digits from which the nearest double is
the same one again; among the numbers with that many digits, the nearest to its value. The
numbers that round to a double form an interval around its value, which contains its ends exactly
when the significand is even. For each number of digits the only candidates are the value's two
neighbours on the grid of numbers with that many digits: if any number of the grid lies in the
interval, one of these two does.

Two candidates can be equally near. Which one is taken then is up to the format that is written,
so it is a parameter, `Tie`.

## Main definitions

* `Decimal`: a whole number times a power of ten.
* `Binary64.Interval`: the interval of numbers that round to a double, over one denominator.
* `Binary64.shortest`: the decimal that is written.
-/

namespace ResourceQuery

/-- The number `significand · 10 ^ exponent`. -/
structure Decimal where
  significand : Nat
  exponent : Int
deriving DecidableEq

/-- Which of two equally near candidates is taken. -/
inductive Tie
  /-- The one with the even last digit. -/
  | even
  /-- The larger one. -/
  | up
deriving DecidableEq

namespace Binary64

/-- The numbers that round to one double: those between `low / den` and `high / den`, the ends
included when `closed`. The double's own value is `middle / den`. -/
structure Interval where
  low : Nat
  middle : Nat
  high : Nat
  den : Nat
  closed : Bool

/-- The interval of a finite double's absolute value. The ends lie halfway to the neighbouring
doubles; below a power of two the neighbour is only half as far away. -/
def interval (d : Binary64) : Interval :=
  let m := d.significand
  let gap := if m = Nat.pow 2 52 ∧ -1074 < d.exponent then 1 else 2
  let unit : Nat × Nat :=
    match d.exponent - 2 with
    | .ofNat k => (Nat.pow 2 k, 1)
    | .negSucc k => (1, Nat.pow 2 (k + 1))
  { low := (4 * m - gap) * unit.1
    middle := 4 * m * unit.1
    high := (4 * m + 2) * unit.1
    den := unit.2
    closed := m % 2 = 0 }

/-- The exponent `e` with `10 ^ e ≤ num / den < 10 ^ (e + 1)`, for a quotient that is not zero. -/
def leadingExponent (num den : Nat) : Int :=
  if den ≤ num then (Text.digits (num / den)).length - 1
  else if num = 0 then 0
  else -(if (den - 1) / num = 0 then 0 else ((Text.digits ((den - 1) / num)).length : Int))

/-- The nearest number of the interval on the grid of multiples of `10 ^ e`, if one of the two
neighbours of the middle lies in the interval. -/
def Interval.onGrid? (i : Interval) (tie : Tie) (e : Int) : Option Decimal :=
  let (factor, step) : Nat × Nat :=
    match e with
    | .ofNat k => (1, Nat.pow 10 k * i.den)
    | .negSucc k => (Nat.pow 10 (k + 1), i.den)
  let low := i.low * factor
  let middle := i.middle * factor
  let high := i.high * factor
  let floor := middle / step
  let below := floor * step
  let above := below + step
  let belowIn : Bool := if i.closed then low ≤ below else low < below
  let aboveIn : Bool := if i.closed then above ≤ high else above < high
  let fromBelow := middle - below
  let fromAbove := above - middle
  if belowIn && aboveIn then
    let lower : Bool :=
      if fromBelow = fromAbove then tie = .even && floor % 2 = 0 else fromBelow < fromAbove
    some ⟨if lower then floor else floor + 1, e⟩
  else if belowIn then some ⟨floor, e⟩
  else if aboveIn then some ⟨floor + 1, e⟩
  else none

/-- The decimal with the fewest digits that reads back as the absolute value of a finite double.
Seventeen digits always do. -/
def shortest (tie : Tie) (d : Binary64) : Decimal :=
  let i := d.interval
  let e := leadingExponent i.middle i.den
  let grids := (List.range 17).map fun (n : Nat) => e - (n : Int)
  (grids.findSome? (i.onGrid? tie)).getD ⟨0, 0⟩

end Binary64

end ResourceQuery
