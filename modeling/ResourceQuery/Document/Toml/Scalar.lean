import ResourceQuery.Binary64.Nearest
import ResourceQuery.Document.Basic

/-!
# Scalars of TOML texts

Strings are written between one quote or three of a kind: single ones keep every character, double
ones know escapes, and three of a kind may stand around several lines. Everything else is a word: a
truth value, a whole number of 64 bits with a sign, a double, a date, a time of day, or both of
them.

## Main definitions

* `Toml.string?`: a string and what follows it.
* `Toml.word?`: what a word means.
* `Toml.isMoment`: whether a word is a date or a time.
-/

namespace ResourceQuery.Toml

/-! ### Strings -/

/-- A blank inside a line. -/
def isSpace (c : Char) : Bool := c = ' ' || c = '\t'

/-- A text without its leading blanks. -/
def skipSpace (cs : List Char) : List Char :=
  cs.dropWhile isSpace

/-- Whether a character may stand in strings and comments as it is: all but line ends and other
control characters. -/
def isTextChar (c : Char) : Bool :=
  c = '\t' || (0x20 ≤ c.toNat && c.toNat ≠ 0x7F)

/-- Puts a character in front of what has been read. -/
def prepend (c : Char) (read : Option (List Char × List Char)) : Option (List Char × List Char) :=
  read.map fun (read, after) => (c :: read, after)

/-- Puts a character in front of what has been read, if there is one. -/
def prepend? (c : Option Char) (read : Option (List Char × List Char)) :
    Option (List Char × List Char) :=
  c.bind fun c => prepend c read

/-- The character that a backslash and a letter stand for. -/
def escaped? : Char → Option Char
  | 'b' => some '\x08'
  | 't' => some '\t'
  | 'n' => some '\n'
  | 'f' => some '\x0c'
  | 'r' => some '\r'
  | '"' => some '"'
  | '\\' => some '\\'
  | _ => none

/-- A string up to its closing double quote, on one line. -/
def basic? : List Char → Option (List Char × List Char)
  | [] => none
  | '"' :: rest => some ([], rest)
  | '\\' :: 'u' :: a :: b :: c :: d :: rest =>
    prepend? (Document.codePoint? [a, b, c, d]) (basic? rest)
  | '\\' :: 'U' :: a :: b :: c :: d :: e :: f :: g :: h :: rest =>
    prepend? (Document.codePoint? [a, b, c, d, e, f, g, h]) (basic? rest)
  | '\\' :: c :: rest => prepend? (escaped? c) (basic? rest)
  | c :: rest => if isTextChar c then prepend c (basic? rest) else none

/-- A string up to its closing single quote, on one line. -/
def literal? : List Char → Option (List Char × List Char)
  | [] => none
  | '\'' :: rest => some ([], rest)
  | c :: rest => if isTextChar c then prepend c (literal? rest) else none

/-- The quotes in front of three closing ones, at most two, and what follows all of them. -/
def closing? (quote : Char) (cs : List Char) : Option (List Char × List Char) :=
  let quotes := (cs.take 5).takeWhile (· = quote)
  if 3 ≤ quotes.length then some (quotes.drop 3, cs.drop quotes.length) else none

/-- Whether only blanks stand in front of the end of a line. -/
def endsLine (cs : List Char) : Bool :=
  match skipSpace cs with
  | '\n' :: _ => true
  | '\r' :: '\n' :: _ => true
  | _ => false

/-- A string up to its three closing double quotes. A backslash at the end of a line joins it with
the next one that is not blank: the second argument says whether that one is being looked for. -/
def longBasic? : Bool → List Char → Option (List Char × List Char)
  | _, [] => none
  | _, '\\' :: 'u' :: a :: b :: c :: d :: rest =>
    prepend? (Document.codePoint? [a, b, c, d]) (longBasic? false rest)
  | _, '\\' :: 'U' :: a :: b :: c :: d :: e :: f :: g :: h :: rest =>
    prepend? (Document.codePoint? [a, b, c, d, e, f, g, h]) (longBasic? false rest)
  | _, '\\' :: c :: rest =>
    if endsLine (c :: rest) then longBasic? true (c :: rest)
    else prepend? (escaped? c) (longBasic? false rest)
  | joins, '\r' :: '\n' :: rest =>
    if joins then longBasic? true rest else prepend '\n' (longBasic? false rest)
  | joins, c :: rest =>
    if joins && (isSpace c || c = '\n') then longBasic? true rest
    else
      match closing? '"' (c :: rest) with
      | some found => some found
      | none =>
        if c = '\n' || isTextChar c then prepend c (longBasic? false rest) else none

/-- A string up to its three closing single quotes. -/
def longLiteral? : List Char → Option (List Char × List Char)
  | [] => none
  | '\r' :: '\n' :: rest => prepend '\n' (longLiteral? rest)
  | c :: rest =>
    match closing? '\'' (c :: rest) with
    | some found => some found
    | none => if c = '\n' || isTextChar c then prepend c (longLiteral? rest) else none

/-- The text behind three opening quotes: a line end right behind them does not count. -/
def skipLineEnd : List Char → List Char
  | '\n' :: rest => rest
  | '\r' :: '\n' :: rest => rest
  | cs => cs

/-- A string and what follows it. -/
def string? : List Char → Option (List Char × List Char)
  | '"' :: '"' :: '"' :: rest => longBasic? false (skipLineEnd rest)
  | '"' :: rest => basic? rest
  | '\'' :: '\'' :: '\'' :: rest => longLiteral? (skipLineEnd rest)
  | '\'' :: rest => literal? rest
  | _ => none

/-! ### Numbers -/

/-- Digits without the single underscores that may stand between them. -/
def digits? (isDigit : Char → Bool) : List Char → Option (List Char)
  | [] => none
  | [c] => if isDigit c then some [c] else none
  | c :: '_' :: rest => if isDigit c then (digits? isDigit rest).map (c :: ·) else none
  | c :: rest => if isDigit c then (digits? isDigit rest).map (c :: ·) else none

/-- A number in a base other than ten. -/
def inBase? (base : Nat) (cs : List Char) : Option Int :=
  ((digits? (fun c => (Text.hexValue? c).isSome) cs).bind (Document.digitsIn? base)).map Int.ofNat

/-- Decimal digits without a needless zero in front. -/
def wholeDigits? (cs : List Char) : Option (List Char) :=
  (digits? Char.isDigit cs).filter fun ds => ds = ['0'] || ds.head? ≠ some '0'

/-- A whole number. -/
def integer? : List Char → Option Int
  | '0' :: 'x' :: digits => inBase? 16 digits
  | '0' :: 'o' :: digits => inBase? 8 digits
  | '0' :: 'b' :: digits => inBase? 2 digits
  | cs =>
    let (negative, digits) := Text.splitSign cs
    (wholeDigits? digits).map fun ds =>
      if negative then -(Text.value ds : Int) else Text.value ds

/-- The digits behind a point, if there is one, and what follows. -/
def fraction? (cs : List Char) : Option (List Char × List Char) :=
  match cs with
  | '.' :: rest =>
    (digits? Char.isDigit (rest.takeWhile fun c => c.isDigit || c = '_')).map fun ds =>
      (ds, rest.dropWhile fun c => c.isDigit || c = '_')
  | _ => some ([], cs)

/-- The power of ten behind the letter `e`, if there is one. -/
def exponent? : List Char → Option Int
  | [] => some 0
  | c :: cs =>
    if c = 'e' || c = 'E' then
      let (negative, digits) := Text.splitSign cs
      (digits? Char.isDigit digits).map fun ds =>
        if negative then -(Text.value ds : Int) else Text.value ds
    else none

/-- A double: digits with a fraction or an exponent or both. One that is too large is no number. -/
def double? (cs : List Char) : Option Binary64 := do
  let (negative, rest) := Text.splitSign cs
  let isWhole := fun c : Char => c.isDigit || c = '_'
  let whole ← wholeDigits? (rest.takeWhile isWhole)
  let rest := rest.dropWhile isWhole
  let (fraction, rest') ← fraction? rest
  let exponent ← exponent? rest'
  if rest = [] then none
  else
    let d := Binary64.ofDecimal negative (Text.value (whole ++ fraction))
      (exponent - fraction.length)
    if d = Binary64.infinity false then none else some d

/-! ### Dates and times -/

/-- The number that a text of two digits is, if it lies in a range. -/
def twoDigits? (least most : Nat) (a b : Char) : Option Nat :=
  (Text.natural? [a, b]).filter fun n => least ≤ n && n ≤ most

/-- How many days a month has. -/
def daysIn (year month : Nat) : Nat :=
  if month = 2 then
    if year % 4 = 0 && (year % 100 ≠ 0 || year % 400 = 0) then 29 else 28
  else if month ∈ [4, 6, 9, 11] then 30
  else 31

/-- What follows a date. -/
def date? : List Char → Option (List Char)
  | a :: b :: c :: d :: '-' :: e :: f :: '-' :: g :: h :: rest =>
    match Text.natural? [a, b, c, d], twoDigits? 1 12 e f with
    | some year, some month => (twoDigits? 1 (daysIn year month) g h).map fun _ => rest
    | _, _ => none
  | _ => none

/-- What follows a time of day. A minute may have a sixty-first second. -/
def time? : List Char → Option (List Char)
  | a :: b :: ':' :: c :: d :: ':' :: e :: f :: rest =>
    match twoDigits? 0 23 a b, twoDigits? 0 59 c d, twoDigits? 0 60 e f with
    | some _, some _, some _ =>
      match rest with
      | '.' :: digits =>
        if digits.head?.any Char.isDigit then some (digits.dropWhile Char.isDigit) else none
      | _ => some rest
    | _, _, _ => none
  | _ => none

/-- Whether a text is the offset of a time, or nothing. -/
def isOffset : List Char → Bool
  | [] | ['Z'] | ['z'] => true
  | [sign, a, b, ':', c, d] =>
    (sign = '+' || sign = '-') && (twoDigits? 0 23 a b).isSome && (twoDigits? 0 59 c d).isSome
  | _ => false

/-- Whether a word is a date, a time of day, or a date with a time and perhaps an offset. -/
def isMoment (word : List Char) : Bool :=
  match date? word with
  | some [] => true
  | some (c :: rest) => (c = 'T' || c = 't' || c = ' ') && (time? rest).any isOffset
  | none => time? word = some []

/-! ### Words -/

/-- The part of a document that a date or a time is: a table of one member. -/
def moment (word : List Char) : Document :=
  .table none [(.ofText "$datetime", .ofText (String.ofList word))]

/-- The part of a document that a whole number is, if it fits into 64 bits with a sign. -/
def ofInteger? (i : Int) : Option Document :=
  (Text.int64Of? i).map fun _ =>
    match Text.countOf? i.toNat with
    | some count => if 0 ≤ i then .ofCount count else .otherScalar
    | none => .otherScalar

/-- What a word means. -/
def word? (word : List Char) : Option Document :=
  let unsigned := (Text.splitSign word).2
  if word = "true".toList || word = "false".toList then some .otherScalar
  else if unsigned = "inf".toList || unsigned = "nan".toList then some .otherScalar
  else if isMoment word then some (moment word)
  else
    match integer? word with
    | some i => ofInteger? i
    | none => (double? word).map fun _ => .otherScalar

/-- The characters of words. -/
def isWordChar (c : Char) : Bool :=
  c.isAlphanum || c ∈ ['_', '-', '+', '.', ':']

/-- A word and what follows it. A date and a time may stand one blank apart. -/
def takeWord (cs : List Char) : List Char × List Char :=
  let word := cs.takeWhile isWordChar
  match date? word, cs.dropWhile isWordChar with
  | some [], ' ' :: d :: rest =>
    if d.isDigit then
      (word ++ ' ' :: (d :: rest).takeWhile isWordChar, (d :: rest).dropWhile isWordChar)
    else (word, ' ' :: d :: rest)
  | _, rest => (word, rest)

end ResourceQuery.Toml
