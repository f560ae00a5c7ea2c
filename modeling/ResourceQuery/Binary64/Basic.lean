/-!
# Double precision numbers

A double is kept by the fields of its 64-bit form: the sign, and the exponent and fraction fields
read as one number, its *magnitude*. Magnitudes increase with the absolute value, so neighbouring
doubles have neighbouring magnitudes; from `infiniteMagnitude` on there is no finite value.

A finite double stands for `significand · 2 ^ exponent`, up to its sign. Nothing here computes
with machine floats: all values are exact, so equality of doubles is decidable. Powers of natural
numbers are written with `Nat.pow`, which means the same whatever a module imports.

## Main definitions

* `Binary64`: sign and magnitude.
* `Binary64.significand`, `Binary64.exponent`: the value of a finite double.
* `FiniteBinary64`: a double that is neither infinite nor a NaN.
-/

namespace ResourceQuery

/-- A double, by the fields of its 64-bit form. -/
structure Binary64 where
  /-- The sign bit. -/
  negative : Bool
  /-- The exponent field and the fraction field, read as one number. -/
  magnitude : Fin (Nat.pow 2 63)
deriving DecidableEq

namespace Binary64

/-- The magnitude of the infinities; larger ones are those of NaNs. -/
def infiniteMagnitude : Nat := 2047 * Nat.pow 2 52

/-- The double with a given sign and a magnitude below `2 ^ 63`. -/
def ofMagnitude (negative : Bool) (magnitude : Nat) : Binary64 :=
  ⟨negative, Fin.ofNat (Nat.pow 2 63) magnitude⟩

/-- Zero, with a sign. -/
def zero (negative : Bool) : Binary64 := ofMagnitude negative 0

/-- Infinity, with a sign. -/
def infinity (negative : Bool) : Binary64 := ofMagnitude negative infiniteMagnitude

/-- The quiet NaN without a payload. -/
def nan : Binary64 := ofMagnitude false (infiniteMagnitude + Nat.pow 2 51)

/-- Neither infinite nor a NaN. -/
def isFinite (d : Binary64) : Bool := d.magnitude.val < infiniteMagnitude

/-- Not a number. -/
def isNaN (d : Binary64) : Bool := infiniteMagnitude < d.magnitude.val

/-- Zero of either sign. -/
def isZero (d : Binary64) : Bool := d.magnitude.val = 0

/-- The whole number `m` of the value `m · 2 ^ exponent`: the fraction field, with the hidden bit
when the exponent field is not zero. -/
def significand (d : Binary64) : Nat :=
  if d.magnitude.val < Nat.pow 2 52 then d.magnitude.val
  else Nat.pow 2 52 + d.magnitude.val % Nat.pow 2 52

/-- The power of two that the significand is scaled by. -/
def exponent (d : Binary64) : Int :=
  if d.magnitude.val < Nat.pow 2 52 then -1074
  else (d.magnitude.val / Nat.pow 2 52 : Nat) - 1075

end Binary64

/-- A double that has a value: neither infinite nor a NaN. -/
abbrev FiniteBinary64 := { d : Binary64 // d.isFinite = true }

/-- The double as a finite one, if it is finite. -/
def Binary64.finite? (d : Binary64) : Option FiniteBinary64 :=
  if h : d.isFinite = true then some ⟨d, h⟩ else none

end ResourceQuery
