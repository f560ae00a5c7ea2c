import ResourceQuery.Filter.Scalar

/-!
# Literals of SQL

A value stands in a statement either as a literal, written out, or as a placeholder for a bound
value. Strings are written between single quotes. One whose written form has a backslash is an
escape string, with an `E` in front: there a backslash and a letter stand for a control character,
and quotes and backslashes have a backslash in front of them.

## Main definitions

* `Literal`: the values of statements.
* `Literal.text`: a value written out.
-/

namespace ResourceQuery

/-- A value in a statement. -/
inductive Literal
  | scalar (value : Scalar)
  /-- A constant that no client gave. -/
  | constant (value : Nat)
  /-- A number of rows. -/
  | count (value : UInt64)
deriving DecidableEq

namespace Literal

/-- A character as it stands between the quotes of a string. -/
def escapeChar (c : Char) : List Char :=
  if c = '\\' ∨ c = '"' ∨ c = '\'' then ['\\', c]
  else if c.toNat = 0 then ['\\', '0']
  else if c.toNat = 8 then ['\\', 'b']
  else if c.toNat = 9 then ['\\', 't']
  else if c.toNat = 26 then ['\\', 'z']
  else if c.toNat = 10 then ['\\', 'n']
  else if c.toNat = 13 then ['\\', 'r']
  else [c]

/-- A string written out. -/
def stringText (s : String) : List Char :=
  let body := s.toList.flatMap escapeChar
  let quoted := '\'' :: (body ++ ['\''])
  if '\\' ∈ body then 'E' :: quoted else quoted

/-- A value written out. -/
def text : Literal → List Char
  | .scalar (.boolean true) => "TRUE".toList
  | .scalar (.boolean false) => "FALSE".toList
  | .scalar (.integer i) => Text.integerText i.toInt
  | .scalar (.float d) => d.text .plain
  | .scalar (.string s) => stringText s
  | .constant n => Text.digits n
  | .count n => Text.digits n.toNat

end Literal

end ResourceQuery
