import ResourceQuery.Binary64.Shortest

/-!
# Laying out the digits of a double

The digits say which number is written; the layout says how. A layout gives the range of decimal
exponents that are written with a point in place, whether a whole number keeps a fraction, and
which of two equally short and near digit strings is taken. The library has two layouts: the one
of JSON texts, and the plain one of SQL texts and of messages, which never shows an exponent.

## Main definitions

* `Layout`, `Layout.json`, `Layout.plain`: the two ways to write a double.
* `Binary64.text`: a double in a layout.
-/

namespace ResourceQuery

/-- How the digits of a double are laid out. -/
structure Layout where
  /-- The decimal exponents `e` that are written without an exponent: those with
  `first ≤ e < last`, or all when there is no range. -/
  positional : Option (Int × Int)
  /-- Whether a number without a fraction is written with `.0`. -/
  keepsFraction : Bool
  /-- Which of two equally near candidates is taken. -/
  tie : Tie

/-- JSON texts write `0.00001` and `1000000000000000.0` with the point in place, smaller and larger
numbers with an exponent that always shows its sign. -/
def Layout.json : Layout := ⟨some (-5, 16), true, .even⟩

/-- SQL texts and messages never write an exponent, nor a fraction that is zero. -/
def Layout.plain : Layout := ⟨none, false, .up⟩

/-- Whether numbers with this decimal exponent have the point in place. -/
def Layout.isPositional (layout : Layout) (e : Int) : Bool :=
  match layout.positional with
  | none => true
  | some (first, last) => first ≤ e && e < last

/-- The digits of a decimal without its trailing zeros. -/
def Decimal.digits (d : Decimal) : List Char :=
  (((Text.digits d.significand).reverse.dropWhile (· = '0')).reverse)

/-- The exponent `e` of the scientific form `a.bc · 10 ^ e`. -/
def Decimal.leading (d : Decimal) : Int :=
  d.exponent + (Text.digits d.significand).length - 1

/-- The digits with the point in place: behind as many digits as the exponent says, or with zeros
where digits are missing on either side. -/
def positionalText (keepsFraction : Bool) (ds : List Char) (e : Int) : List Char :=
  match e with
  | .negSucc k => '0' :: '.' :: (List.replicate k '0' ++ ds)
  | .ofNat k =>
    if ds.length ≤ k + 1 then
      ds ++ List.replicate (k + 1 - ds.length) '0' ++ (if keepsFraction then ['.', '0'] else [])
    else ds.take (k + 1) ++ '.' :: ds.drop (k + 1)

/-- The digits with the point behind the first one, and the exponent with its sign. -/
def exponentialText (ds : List Char) (e : Int) : List Char :=
  let mantissa :=
    match ds with
    | first :: second :: others => first :: '.' :: second :: others
    | short => short
  mantissa ++ 'e' :: (if 0 ≤ e then '+' else '-') :: Text.digits e.natAbs

/-- A finite absolute value in a layout. -/
def Binary64.absText (layout : Layout) (d : Binary64) : List Char :=
  if d.isZero then positionalText layout.keepsFraction ['0'] 0
  else
    let decimal := d.shortest layout.tie
    if layout.isPositional decimal.leading then
      positionalText layout.keepsFraction decimal.digits decimal.leading
    else exponentialText decimal.digits decimal.leading

/-- A double in a layout. Zero keeps its sign; the two values without digits are `inf` and
`NaN`. -/
def Binary64.text (layout : Layout) (d : Binary64) : List Char :=
  if d.isNaN then "NaN".toList
  else
    let body := if d.isFinite then d.absText layout else "inf".toList
    if d.negative then '-' :: body else body

end ResourceQuery
