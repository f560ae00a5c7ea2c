import ResourceQuery.Document.Basic
import ResourceQuery.Document.Yaml.Cell

/-!
# Scalars on one line or several

A scalar is written plainly or between quotes, and may go on over several lines. What stands
between two of its words is a *gap*: blanks on one line are kept, one line break becomes a space,
and of several line breaks all but the first are kept. Blanks around line breaks do not count.

A plain scalar ends at a comment, at a colon that a blank follows, at the punctuation of a flow
collection it stands in, and where a line is indented less than its surroundings ask for.

## Main definitions

* `Yaml.Gap`, `Yaml.Gap.text`: what stands between two words.
* `Yaml.plain?`, `Yaml.single?`, `Yaml.double?`: the rest of a scalar.
-/

namespace ResourceQuery.Yaml

/-! ### Gaps -/

/-- What has been passed since the last word of a scalar. -/
inductive Gap
  | blanks (passed : List Char)
  /-- Line breaks: the first, unless that was escaped, and those behind it. -/
  | breaks (first : Option Char) (others : List Char)

namespace Gap

/-- The gap without anything in it. -/
def empty : Gap := .blanks []

/-- Whether nothing has been passed. -/
def isEmpty : Gap → Bool
  | .blanks passed => passed.isEmpty
  | .breaks _ _ => false

/-- Whether a line has ended. -/
def isBroken : Gap → Bool
  | .blanks _ => false
  | .breaks _ _ => true

/-- The gap with one more blank or line break. -/
def push (gap : Gap) (c : Char) : Gap :=
  match gap with
  | .blanks passed => if isBreak c then .breaks (some c) [] else .blanks (passed ++ [c])
  | .breaks first others => if isBreak c then .breaks first (others ++ [c]) else gap

/-- What a gap contributes to the scalar. -/
def text : Gap → List Char
  | .blanks passed => passed
  | .breaks none others => others
  | .breaks (some first) others =>
    if first ≠ '\n' then first :: others else if others.isEmpty then [' '] else others

end Gap

/-! ### Plain scalars -/

/-- The characters that have a meaning of their own in flow collections. -/
def flowPunctuation : List Char := [',', '[', ']', '{', '}']

/-- Whether a plain scalar ends in front of a cell that is neither a blank nor a line break. -/
def endsPlain (inFlow : Bool) (least : Nat) (gap : Gap) (c : Cell) (rest : List Cell) : Bool :=
  atMarker (c :: rest)
    || (!gap.isEmpty && (c.char = '#' || (!inFlow && c.column < least)))
    || (c.char = ':' && atSpacing rest)
    || (inFlow && c.char ∈ flowPunctuation)

/-- The rest of a plain scalar behind a gap, whether a line has ended behind it, and the cells that
follow. Outside of flow collections its lines are indented to the column `least`, not by tabs. -/
def plain? (inFlow : Bool) (least : Nat) (gap : Gap) :
    List Cell → Option (List Char × Bool × List Cell)
  | [] => some ([], gap.isBroken, [])
  | c :: rest =>
    if isSpacing c.char then
      if gap.isBroken && c.char = '\t' && c.column < least then none
      else plain? inFlow least (gap.push c.char) rest
    else if endsPlain inFlow least gap c rest then some ([], gap.isBroken, c :: rest)
    else if inFlow && c.char = ':' && atOneOf ('?' :: flowPunctuation) rest then none
    else
      (plain? inFlow least .empty rest).map fun (read, after) =>
        (gap.text ++ c.char :: read, after)

/-! ### Scalars between quotes -/

/-- Puts characters in front of what has been read. -/
def prepend (cs : List Char) (read : Option (List Char × List Cell)) :
    Option (List Char × List Cell) :=
  read.map fun (read, after) => (cs ++ read, after)

/-- The rest of a scalar between single quotes, behind a gap. A quote inside is written twice. -/
def single? (gap : Gap) : List Cell → Option (List Char × List Cell)
  | [] => none
  | c :: rest =>
    if atMarker (c :: rest) then none
    else if isSpacing c.char then single? (gap.push c.char) rest
    else if c.char = '\'' then
      match rest with
      | [] => some (gap.text, [])
      | d :: after =>
        if d.char = '\'' then prepend (gap.text ++ ['\'']) (single? .empty after)
        else some (gap.text, d :: after)
    else prepend (gap.text ++ [c.char]) (single? .empty rest)

/-- The character that a backslash and a letter stand for. -/
def escaped? : Char → Option Char
  | '0' => some '\x00'
  | 'a' => some '\x07'
  | 'b' => some '\x08'
  | 't' | '\t' => some '\t'
  | 'n' => some '\n'
  | 'v' => some '\x0b'
  | 'f' => some '\x0c'
  | 'r' => some '\r'
  | 'e' => some '\x1b'
  | ' ' => some ' '
  | '"' => some '"'
  | '/' => some '/'
  | '\\' => some '\\'
  | 'N' => some '\u0085'
  | '_' => some '\u00a0'
  | 'L' => some '\u2028'
  | 'P' => some '\u2029'
  | _ => none

/-- How many hexadecimal digits follow the letter of an escape that gives a code point. -/
def escapeLength? : Char → Option Nat
  | 'x' => some 2
  | 'u' => some 4
  | 'U' => some 8
  | _ => none

/-- Where the reader is in a scalar between double quotes. -/
inductive DoubleState
  | text (gap : Gap)
  /-- Behind a backslash. -/
  | escape
  /-- Among the digits of a code point: how many are left, and those read. -/
  | digits (left : Nat) (read : List Char)

/-- The rest of a scalar between double quotes. A backslash escapes the next character; in front of
a line break it joins the lines without a space. -/
def double? : DoubleState → List Cell → Option (List Char × List Cell)
  | _, [] => none
  | .text gap, c :: rest =>
    if atMarker (c :: rest) then none
    else if isSpacing c.char then double? (.text (gap.push c.char)) rest
    else if c.char = '"' then some (gap.text, rest)
    else if c.char = '\\' then prepend gap.text (double? .escape rest)
    else prepend (gap.text ++ [c.char]) (double? (.text .empty) rest)
  | .escape, c :: rest =>
    if isBreak c.char then double? (.text (.breaks none [])) rest
    else
      match escapeLength? c.char, escaped? c.char with
      | some length, _ => double? (.digits length []) rest
      | none, some e => prepend [e] (double? (.text .empty) rest)
      | none, none => none
  | .digits left read, c :: rest =>
    if left ≤ 1 then
      match Document.codePoint? (read ++ [c.char]) with
      | some d => prepend [d] (double? (.text .empty) rest)
      | none => none
    else double? (.digits (left - 1) (read ++ [c.char])) rest

end ResourceQuery.Yaml
