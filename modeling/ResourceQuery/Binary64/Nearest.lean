import ResourceQuery.Binary64.Basic
import ResourceQuery.Text.Digits

/-!
# The nearest double

Reading a number as a double takes the double that is nearest to its exact value. Of two that are
equally near, the one with the even significand is taken; a value that would need an exponent
beyond the largest becomes infinite. The quotient and the decimal forms are both read exactly, in
whole numbers.

## Main definitions

* `roundHalfEven`: a quotient rounded to the nearest whole number.
* `Binary64.ofRatio`, `Binary64.ofDecimal`: the nearest double to a quotient, or to a whole number
  times a power of ten.
* `Binary64.ofInt`: the nearest double to an integer.
* `Binary64.ofText?`: the free form in which a request may write a number.
-/

namespace ResourceQuery

/-- The quotient rounded to the nearest whole number, a half to the even one. -/
def roundHalfEven (num den : Nat) : Nat :=
  let floor := num / den
  let twice := 2 * (num % den)
  if twice < den ∨ (twice = den ∧ floor % 2 = 0) then floor else floor + 1

/-- The quotient `num / den` divided by `2 ^ e`, as a quotient. -/
def scaleDown (num den : Nat) (e : Int) : Nat × Nat :=
  match e with
  | .ofNat k => (num, den * Nat.pow 2 k)
  | .negSucc k => (num * Nat.pow 2 (k + 1), den)

namespace Binary64

/-- The magnitude of the double nearest to `num / den`. The exponent is the smallest at which the
significand stays below `2 ^ 53`; adding the significand to the exponent field lets a significand
that rounds up to `2 ^ 53` carry into the next exponent. -/
def nearestMagnitude (num den : Nat) : Nat :=
  if num = 0 then 0
  else
    let low : Int := max (-1074) ((Nat.log2 num : Int) - (Nat.log2 den : Int) - 53)
    let (n, d) := scaleDown num den low
    let e := if Nat.pow 2 53 * d ≤ n then low + 1 else low
    let (n, d) := scaleDown num den e
    min infiniteMagnitude ((e + 1074).toNat * Nat.pow 2 52 + roundHalfEven n d)

/-- The double nearest to `num / den`, with a sign. -/
def ofRatio (negative : Bool) (num den : Nat) : Binary64 :=
  ofMagnitude negative (nearestMagnitude num den)

/-- The double nearest to `significand · 10 ^ exponent`, with a sign. Numbers of more than 310
places before the point are infinite, and numbers with more than 400 zeros behind it are zero. -/
def ofDecimal (negative : Bool) (significand : Nat) (exponent : Int) : Binary64 :=
  if significand = 0 then zero negative
  else
    let places : Int := (Text.digits significand).length + exponent
    if 310 < places then infinity negative
    else if places < -400 then zero negative
    else
      match exponent with
      | .ofNat k => ofRatio negative (significand * Nat.pow 10 k) 1
      | .negSucc k => ofRatio negative significand (Nat.pow 10 (k + 1))

/-- The double nearest to an integer. -/
def ofInt (i : Int) : Binary64 :=
  ofRatio (i < 0) i.natAbs 1

/-- The exponent part of a decimal number: `e` or `E`, an optional sign, digits; or nothing. -/
def exponentPart? : List Char → Option Int
  | [] => some 0
  | c :: cs =>
    if c = 'e' ∨ c = 'E' then
      let (negative, rest) := Text.splitSign cs
      (Text.natural? rest).map fun n => if negative then -(n : Int) else n
    else none

/-- The unsigned free form: digits with a point anywhere among them, before them or behind them,
and an exponent part; or one of the words `inf`, `infinity` and `nan`, in any case. -/
def ofUnsignedText? (negative : Bool) (cs : List Char) : Option Binary64 :=
  let word := cs.map Char.toLower
  if word = "inf".toList ∨ word = "infinity".toList then some (infinity negative)
  else if word = "nan".toList then some { nan with negative }
  else
    let whole := cs.takeWhile Char.isDigit
    let rest := cs.dropWhile Char.isDigit
    let (fraction, rest) :=
      match rest with
      | '.' :: rest => (rest.takeWhile Char.isDigit, rest.dropWhile Char.isDigit)
      | _ => ([], rest)
    if whole = [] ∧ fraction = [] then none
    else
      (exponentPart? rest).map fun exponent =>
        ofDecimal negative (Text.value (whole ++ fraction)) (exponent - fraction.length)

/-- The free form of a number, with an optional sign in front. -/
def ofText? (cs : List Char) : Option Binary64 :=
  let (negative, rest) := Text.splitSign cs
  ofUnsignedText? negative rest

end Binary64

end ResourceQuery
