import ResourceQuery.Binary64.Nearest
import ResourceQuery.Document.Basic
import ResourceQuery.Document.Yaml.Token

/-!
# What a YAML scalar can be taken for

Every scalar can be taken for a text, by its letters. A plain one may also be a null, a truth value
or a number, by how it is spelled; between quotes or in a block a scalar is a text. A tag of one of
the core types asks for that type. A tag of a document's own, which begins with an exclamation mark,
gives a named value, and such a scalar has no meaning where any value may stand.

Whole numbers are written in decimal without leading zeros, or behind `0x`, `0o` and `0b` in
another base. They are read up to 128 bits, but only those of 64 bits have a value; larger ones are
numbers only if they can be read as doubles.

## Main definitions

* `Yaml.Tag`: the tag of a scalar or a collection.
* `Yaml.leaf`: what a scalar can be taken for.
-/

namespace ResourceQuery.Yaml

open Document (Leaf Meaning)

/-! ### Tags -/

/-- A tag with its handle resolved. -/
abbrev Tag := String

namespace Tag

/-- What the tags of the core types begin with. -/
def core : String := "tag:yaml.org,2002:"

/-- The name that a tag of a document's own gives; the exclamation mark alone gives itself. -/
def ownName? (tag : Tag) : Option String :=
  match tag.toList with
  | ['!'] => some "!"
  | '!' :: name => some (String.ofList name)
  | _ => none

end Tag

/-! ### Words and numbers -/

/-- Whether a word is null. -/
def isNullWord (word : String) : Bool :=
  word ∈ ["null", "Null", "NULL", "~"]

/-- Whether a word is a truth value. -/
def isTruthWord (word : String) : Bool :=
  word ∈ ["true", "True", "TRUE", "false", "False", "FALSE"]

/-- Whether a word has digits only, behind an optional sign, with a needless zero in front. -/
def isZeroPadded (cs : List Char) : Bool :=
  let digits := (Text.splitSign cs).2
  1 < digits.length && digits.head? = some '0' && digits.all Char.isDigit

/-- A whole number without a sign. -/
def magnitude? : List Char → Option Nat
  | '0' :: 'x' :: digits => Document.digitsIn? 16 digits
  | '0' :: 'o' :: digits => Document.digitsIn? 8 digits
  | '0' :: 'b' :: digits => Document.digitsIn? 2 digits
  | digits => if isZeroPadded digits then none else Text.natural? digits

/-- A whole number that is not negative, with an optional `+`. -/
def positive? : List Char → Option Nat
  | '+' :: cs => magnitude? cs
  | cs => magnitude? cs

/-- A whole number with a `-`, without it. -/
def negative? : List Char → Option Nat
  | '-' :: cs => magnitude? cs
  | _ => none

/-- What a whole number means, if the word is one. -/
def wholeMeaning? (cs : List Char) : Option Meaning :=
  match positive? cs, negative? cs with
  | some n, _ =>
    match Text.countOf? n with
    | some count => some (.whole count)
    | none => if n < Nat.pow 2 128 then some .unreadable else none
  | none, some n =>
    if n ≤ Nat.pow 2 63 then some .other else if n ≤ Nat.pow 2 127 then some .unreadable else none
  | none, none => none

/-- Whether a word is a finite double, or one of the words for those that are not. -/
def isDouble (cs : List Char) : Bool :=
  let word := String.ofList cs
  let unsigned := match cs with | '+' :: rest => rest | _ => cs
  if cs.head? = some '+' && (unsigned.head? = some '+' || unsigned.head? = some '-') then false
  else if String.ofList unsigned ∈ [".inf", ".Inf", ".INF"] then true
  else if word ∈ ["-.inf", "-.Inf", "-.INF", ".nan", ".NaN", ".NAN"] then true
  else (Binary64.ofText? unsigned).any Binary64.isFinite

/-! ### Leaves -/

/-- What a plain scalar without a tag means. -/
def plainMeaning (word : String) : Meaning :=
  if word = "" || isNullWord word || isTruthWord word then .other
  else
    match wholeMeaning? word.toList with
    | some meaning => meaning
    | none =>
      if !isZeroPadded word.toList && isDouble word.toList then .other else .text word

/-- What a scalar means where any value may stand. -/
def meaning (tag : Option Tag) (style : Style) (text : String) : Meaning :=
  match tag with
  | none => if style = .plain then plainMeaning text else .text text
  | some tag =>
    if tag.ownName?.isSome then .unreadable
    else if tag = Tag.core ++ "bool" then if isTruthWord text then .other else .unreadable
    else if tag = Tag.core ++ "int" then (wholeMeaning? text.toList).getD .unreadable
    else if tag = Tag.core ++ "float" then if isDouble text.toList then .other else .unreadable
    else if tag = Tag.core ++ "null" then if isNullWord text then .other else .unreadable
    else .text text

/-- Whether a scalar is null where a part may be left out. -/
def isNull (tag : Option Tag) (style : Style) (text : String) : Option Bool :=
  if style ≠ .plain then some false
  else
    match tag with
    | none => some (text = "" || isNullWord text)
    | some tag =>
      if tag ≠ Tag.core ++ "null" then some false
      else if isNullWord text then some true
      else none

/-- The name of a value: that of a tag, with nothing behind it, or the letters. -/
def name? (tag : Option Tag) (style : Style) (text : String) : Option String :=
  match tag.bind Tag.ownName? with
  | some name => if style = .plain && (text = "" || isNullWord text) then some name else none
  | none => some text

/-- The count that a scalar is. -/
def count? (tag : Option Tag) (style : Style) (text : String) : Option UInt64 :=
  if style = .plain || (style = .literal && tag = some (Tag.core ++ "int")) then
    (positive? text.toList).bind Text.countOf?
  else none

/-- What a scalar can be taken for. -/
def leaf (tag : Option Tag) (style : Style) (text : String) : Leaf where
  meaning := meaning tag style text
  text := some text
  name := name? tag style text
  count := count? tag style text
  isNull := isNull tag style text
  isEmpty := style = .plain && text = ""

end ResourceQuery.Yaml
