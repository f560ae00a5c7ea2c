/-!
# Characters in their places

Where a character stands decides what it means in a YAML text: how far a line is indented, whether
a name is followed by its colon on the same line. So a text is read as a list of *cells*, each a
character with its line, its column and its number in the text. The list that is left of a text
says where the reader is.

A line ends with a carriage return, a line feed, both of them in this order, or a next-line
character, and each of these is one cell with a line feed. The separators of lines and of
paragraphs end a line too, but stay as they are. Control characters, surrogates and the last two
code points of the basic plane have no place in a text.

## Main definitions

* `Yaml.Cell`, `Yaml.cells?`: the cells of a text.
* `Yaml.endLine?`: what follows a line that has nothing more on it.
* `Yaml.startsMarker`: a line that separates documents.
-/

namespace ResourceQuery.Yaml

/-- A character and where it stands. -/
structure Cell where
  char : Char
  line : Nat
  column : Nat
  /-- How many characters stand before it. -/
  index : Nat

/-- Whether a character may stand in a text. -/
def isAllowed (c : Char) : Bool :=
  let n := c.toNat
  n = 0x09 || n = 0x0A || n = 0x0D || (0x20 ≤ n && n ≤ 0x7E) || n = 0x85
    || (0xA0 ≤ n && n ≤ 0xFFFD) || 0x10000 ≤ n

/-- Whether a character of a cell ends its line. -/
def isBreak (c : Char) : Bool := c = '\n' || c = '\u2028' || c = '\u2029'

/-- A blank inside a line. -/
def isBlank (c : Char) : Bool := c = ' ' || c = '\t'

/-- A blank or the end of a line. -/
def isSpacing (c : Char) : Bool := isBlank c || isBreak c

/-- The cells of a text from a place on. -/
def cellsFrom? (line column index : Nat) : List Char → Option (List Cell)
  | [] => some []
  | '\r' :: '\n' :: rest =>
    (cellsFrom? (line + 1) 0 (index + 2) rest).map (⟨'\n', line, column, index⟩ :: ·)
  | c :: rest =>
    if !isAllowed c then none
    else if c = '\r' || c = '\u0085' then
      (cellsFrom? (line + 1) 0 (index + 1) rest).map (⟨'\n', line, column, index⟩ :: ·)
    else if isBreak c then
      (cellsFrom? (line + 1) 0 (index + 1) rest).map (⟨c, line, column, index⟩ :: ·)
    else (cellsFrom? line (column + 1) (index + 1) rest).map (⟨c, line, column, index⟩ :: ·)

/-- The cells of a text. -/
def cells? (text : List Char) : Option (List Cell) :=
  cellsFrom? 0 0 0 text

/-- Whether a blank, the end of a line or the end of the text is next. -/
def atSpacing : List Cell → Bool
  | [] => true
  | c :: _ => isSpacing c.char

/-- Whether one of some characters is next. -/
def atOneOf (chars : List Char) : List Cell → Bool
  | [] => false
  | c :: _ => c.char ∈ chars

/-- The cells behind blanks. -/
def skipBlanks (cells : List Cell) : List Cell :=
  cells.dropWhile fun c => isBlank c.char

/-- The cells from the end of the line on, if only blanks and a comment stand before it. -/
def lineEnd? (cells : List Cell) : Option (List Cell) :=
  match skipBlanks cells with
  | [] => some []
  | c :: rest =>
    if c.char = '#' then some (rest.dropWhile fun c => !isBreak c.char)
    else if isBreak c.char then some (c :: rest)
    else none

/-- The cells of the next line, if only blanks and a comment stand before it. -/
def endLine? (cells : List Cell) : Option (List Cell) :=
  (lineEnd? cells).map fun rest => rest.drop 1

/-- Whether a line starts with this character three times, and then a blank or nothing. -/
def startsMarker (mark : Char) : List Cell → Bool
  | a :: b :: c :: rest =>
    a.column = 0 && a.char = mark && b.char = mark && c.char = mark && atSpacing rest
  | _ => false

/-- Whether a line that separates documents is next. -/
def atMarker (cells : List Cell) : Bool :=
  startsMarker '-' cells || startsMarker '.' cells

end ResourceQuery.Yaml
