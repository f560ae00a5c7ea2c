import ResourceQuery.Json.Basic
import ResourceQuery.Binary64.Nearest
import ResourceQuery.Text.Percent

/-!
# Tokens of JSON texts

A JSON text is first cut into tokens: the six punctuation characters, the three words, numbers
and strings. A token is kept as it is written: a number by its digits, a string by its characters
and escaped code units, because whether a number has a value, and whether a string is a text, only
matters where the value is used. A surrogate that stands alone, for instance, makes a well-formed
string that is no text.

## Main definitions

* `Json.Numeral`: a number as written, and `Json.Numeral.number?`, its value.
* `Json.Piece`: a character of a string as written, and `Json.text?`, the text of a string.
* `Json.tokens?`: the tokens of a text.
-/

namespace ResourceQuery.Json

/-! ### Numbers -/

/-- A number as it is written. -/
structure Numeral where
  negative : Bool
  whole : List Char
  /-- The digits behind the point, if there is one. -/
  fraction : Option (List Char)
  /-- The exponent, if one is written. -/
  exponent : Option Int
deriving DecidableEq

/-- Splits the digits behind a point from a text; none when there is no point. A point needs
digits. -/
def splitFraction? : List Char → Option (Option (List Char) × List Char)
  | '.' :: rest =>
    let ds := rest.takeWhile Char.isDigit
    if ds = [] then none else some (some ds, rest.dropWhile Char.isDigit)
  | rest => some (none, rest)

/-- A number: an optional `-`, digits without a needless leading zero, an optional fraction and an
optional exponent. -/
def Numeral.ofChars? (cs : List Char) : Option Numeral :=
  let (negative, cs) := match cs with | '-' :: rest => (true, rest) | _ => (false, cs)
  let whole := cs.takeWhile Char.isDigit
  if whole = [] ∨ (whole.head? = some '0' ∧ whole ≠ ['0']) then none
  else
    match splitFraction? (cs.dropWhile Char.isDigit) with
    | none => none
    | some (fraction, []) => some ⟨negative, whole, fraction, none⟩
    | some (fraction, rest) =>
      (Binary64.exponentPart? rest).map fun exponent => ⟨negative, whole, fraction, some exponent⟩

/-- The double that is nearest to a numeral. -/
def Numeral.toBinary64 (n : Numeral) : Binary64 :=
  let fraction := n.fraction.getD []
  Binary64.ofDecimal n.negative (Text.value (n.whole ++ fraction))
    (n.exponent.getD 0 - fraction.length)

/-- The value of a numeral. Without a fraction and an exponent it is a whole number, if that is not
`-0` and lies between `-2 ^ 63` and `2 ^ 64`; otherwise it is the nearest double, if that is
finite. -/
def Numeral.number? (n : Numeral) : Option Number :=
  let m := Text.value n.whole
  let fits := if n.negative then 0 < m && m ≤ Nat.pow 2 63 else m < Nat.pow 2 64
  if n.fraction = none ∧ n.exponent = none ∧ fits then
    some (.integer (if n.negative then -(m : Int) else m))
  else n.toBinary64.finite?.map .double

/-! ### Strings -/

/-- A character of a string as it is written. -/
inductive Piece
  | char (c : Char)
  /-- An escape that gives a code unit by four hexadecimal digits. -/
  | unit (value : Nat)
deriving DecidableEq

/-- The code unit given by four hexadecimal digits. -/
def hexUnit? (a b c d : Char) : Option Nat :=
  match Text.hexValue? a, Text.hexValue? b, Text.hexValue? c, Text.hexValue? d with
  | some a, some b, some c, some d => some (((a * 16 + b) * 16 + c) * 16 + d)
  | _, _, _, _ => none

/-- The character that a backslash and a letter stand for. -/
def escaped? : Char → Option Char
  | '"' => some '"'
  | '\\' => some '\\'
  | '/' => some '/'
  | 'b' => some '\x08'
  | 'f' => some '\x0c'
  | 'n' => some '\n'
  | 'r' => some '\r'
  | 't' => some '\t'
  | _ => none

/-- The pieces of a string up to its closing quote, and what follows the quote. Control characters
must be escaped. -/
def stringPieces? : List Char → Option (List Piece × List Char)
  | [] => none
  | '"' :: rest => some ([], rest)
  | '\\' :: 'u' :: a :: b :: c :: d :: rest =>
    match hexUnit? a b c d, stringPieces? rest with
    | some u, some (pieces, after) => some (.unit u :: pieces, after)
    | _, _ => none
  | '\\' :: e :: rest =>
    match escaped? e, stringPieces? rest with
    | some c, some (pieces, after) => some (.char c :: pieces, after)
    | _, _ => none
  | c :: rest =>
    if c.toNat < 32 then none
    else
      match stringPieces? rest with
      | some (pieces, after) => some (.char c :: pieces, after)
      | none => none

/-- Whether a code unit is the first half of a pair. -/
def isHighSurrogate (u : Nat) : Bool := 0xD800 ≤ u && u < 0xDC00

/-- Whether a code unit is the second half of a pair. -/
def isLowSurrogate (u : Nat) : Bool := 0xDC00 ≤ u && u < 0xE000

/-- The characters of a string, if every surrogate is half of a pair. -/
def pieceChars? : List Piece → Option (List Char)
  | [] => some []
  | .char c :: rest => (pieceChars? rest).map (c :: ·)
  | .unit high :: .unit low :: rest =>
    if isHighSurrogate high then
      if isLowSurrogate low then
        (pieceChars? rest).map
          (Char.ofNat (0x10000 + (high - 0xD800) * 0x400 + (low - 0xDC00)) :: ·)
      else none
    else if isLowSurrogate high then none
    else (pieceChars? (.unit low :: rest)).map (Char.ofNat high :: ·)
  | .unit u :: rest =>
    if isHighSurrogate u || isLowSurrogate u then none
    else (pieceChars? rest).map (Char.ofNat u :: ·)

/-- The text of a string, if it has one. -/
def text? (pieces : List Piece) : Option String :=
  (pieceChars? pieces).map String.ofList

/-! ### Tokens -/

/-- A token of a JSON text. -/
inductive Token
  | objectStart
  | objectEnd
  | arrayStart
  | arrayEnd
  | colon
  | comma
  | null
  | bool (value : Bool)
  | number (numeral : Numeral)
  | string (pieces : List Piece)
deriving DecidableEq

/-- The token of a punctuation character. -/
def punctuation? : Char → Option Token
  | '{' => some .objectStart
  | '}' => some .objectEnd
  | '[' => some .arrayStart
  | ']' => some .arrayEnd
  | ':' => some .colon
  | ',' => some .comma
  | _ => none

/-- The blanks between tokens. -/
def isSpace (c : Char) : Bool :=
  c = ' ' || c = '\t' || c = '\n' || c = '\r'

/-- The characters that words and numbers are made of. -/
def isWordChar (c : Char) : Bool :=
  c.isAlphanum || c = '+' || c = '-' || c = '.'

/-- The token that a longest run of word characters is. -/
def word? (cs : List Char) : Option Token :=
  if cs = "null".toList then some .null
  else if cs = "true".toList then some (.bool true)
  else if cs = "false".toList then some (.bool false)
  else (Numeral.ofChars? cs).map .number

/-- Behind the contents of a string there is less text than in front of them. -/
theorem length_of_stringPieces? {cs after : List Char} {pieces : List Piece}
    (h : stringPieces? cs = some (pieces, after)) : after.length < cs.length := by
  fun_induction stringPieces? cs generalizing pieces with
  | case1 => simp at h
  | case2 rest => simp_all
  | case3 _ _ _ _ rest _ _ _ hr _ ih =>
    simp only [Option.some.injEq, Prod.mk.injEq] at h
    have := ih (h.2 ▸ hr)
    simp only [List.length_cons]; omega
  | case4 => simp at h
  | case5 _ rest _ _ _ _ hr _ ih =>
    simp only [Option.some.injEq, Prod.mk.injEq] at h
    have := ih (h.2 ▸ hr)
    simp only [List.length_cons]; omega
  | case6 => simp at h
  | case7 => simp at h
  | case8 _ rest _ _ _ _ _ _ hr ih =>
    simp only [Option.some.injEq, Prod.mk.injEq] at h
    have := ih (h.2 ▸ hr)
    simp only [List.length_cons]; omega
  | case9 => simp at h

/-- Skipping characters makes no text longer. -/
theorem length_dropWhile_le (p : Char → Bool) (cs : List Char) :
    (cs.dropWhile p).length ≤ cs.length := by
  induction cs with
  | nil => simp
  | cons c cs ih =>
    rw [List.dropWhile_cons]
    split
    · exact Nat.le_succ_of_le ih
    · exact Nat.le_refl _

/-- The tokens of a text, or nothing when some part of it is no token. -/
def tokens? : List Char → Option (List Token)
  | [] => some []
  | c :: cs =>
    if isSpace c then tokens? cs
    else if c = '"' then
      match hp : stringPieces? cs with
      | none => none
      | some (pieces, after) =>
        have := length_of_stringPieces? hp
        (tokens? after).map (.string pieces :: ·)
    else
      match punctuation? c with
      | some token => (tokens? cs).map (token :: ·)
      | none =>
        if isWordChar c then
          match word? (c :: cs.takeWhile isWordChar) with
          | none => none
          | some token =>
            have := length_dropWhile_le isWordChar cs
            (tokens? (cs.dropWhile isWordChar)).map (token :: ·)
        else none
termination_by cs => cs.length
decreasing_by all_goals simp only [List.length_cons]; omega

end ResourceQuery.Json
