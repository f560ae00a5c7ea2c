import ResourceQuery.Document.Yaml.Cell
import ResourceQuery.Text.Percent

/-!
# Tokens of YAML texts

A YAML text is cut into tokens before its structure is read. The tokens of a block collection that
no character of the text stands for, its start and its end, come from the indentation.

The tokens here are those that begin with an indicator and go up to the next blank: names of
anchors, tags, and the directives in front of a document.

## Main definitions

* `Yaml.Token`.
* `Yaml.anchorName?`, `Yaml.tag?`, `Yaml.directive?`: the rest of a token, behind its indicator.
-/

namespace ResourceQuery.Yaml

/-- How a scalar is written. -/
inductive Style
  | plain
  | quoted
  /-- A block scalar that keeps its line breaks. -/
  | literal
  /-- A block scalar that folds its line breaks. -/
  | folded
deriving DecidableEq

/-- A token. -/
inductive Token
  | scalar (style : Style) (text : String)
  | anchor (name : String)
  | reference (name : String)
  /-- A tag; the handle is empty for one that is written out. -/
  | tag (handle rest : String)
  | blockSequence
  | blockMapping
  | blockEnd
  | openBracket
  | closeBracket
  | openBrace
  | closeBrace
  | comma
  /-- The dash in front of an item. -/
  | item
  /-- What stands in front of the name of a member. -/
  | key
  /-- The colon in front of the value of a member. -/
  | value
  | documentStart
  | documentEnd
  | version (major minor : Nat)
  /-- What a handle of tags stands for. -/
  | handle (handle meaning : String)
deriving DecidableEq

/-! ### Anchors -/

/-- The characters of names. -/
def isNameChar (c : Char) : Bool := c.isAlphanum || c = '_' || c = '-'

/-- The characters while they pass a test, and the cells that follow. -/
def spanChars (test : Char → Bool) (cells : List Cell) : List Char × List Cell :=
  ((cells.takeWhile fun c => test c.char).map Cell.char, cells.dropWhile fun c => test c.char)

/-- The name of an anchor or an alias. -/
def anchorName? (cells : List Cell) : Option (String × List Cell) :=
  let (name, rest) := spanChars isNameChar cells
  if name.isEmpty then none
  else if atSpacing rest || atOneOf ['?', ':', ',', ']', '}', '%', '@', '`'] rest then
    some (String.ofList name, rest)
  else none

/-! ### Tags -/

/-- The characters of tags; some of them only where a tag is written out. -/
def isTagChar (writtenOut : Bool) (c : Char) : Bool :=
  isNameChar c || c ∈ [';', '/', '?', ':', '@', '&', '=', '+', '$', '.', '%', '!', '~', '*', '\'',
    '(', ')'] || (writtenOut && c ∈ [',', '[', ']'])

/-- Whether every percent sign is followed by the digits of a byte. -/
def escapesAreWhole : List Char → Bool
  | [] => true
  | '%' :: a :: b :: rest => (Text.hexByte? a b).isSome && escapesAreWhole rest
  | c :: rest => c ≠ '%' && escapesAreWhole rest

/-- The characters of a tag, with its percent escapes resolved, and the cells that follow. -/
def tagText? (writtenOut : Bool) (cells : List Cell) : Option (String × List Cell) :=
  let (cs, rest) := spanChars (isTagChar writtenOut) cells
  if escapesAreWhole cs then (Text.percentDecode? cs).map fun text => (text, rest) else none

/-- The same, where there must be a character. -/
def someTagText? (writtenOut : Bool) (cells : List Cell) : Option (String × List Cell) :=
  (tagText? writtenOut cells).filter fun (text, _) => text ≠ ""

/-- The handle and the rest of a tag behind its exclamation mark: written out between angle
brackets, or a named handle that ends with another exclamation mark, or the handle that is the
first exclamation mark alone. Nothing at all is the tag of that one character. -/
def tagParts? (cells : List Cell) : Option (String × String × List Cell) :=
  if atOneOf ['<'] cells then
    match someTagText? true (cells.drop 1) with
    | some (text, c :: rest) => if c.char = '>' then some ("", text, rest) else none
    | _ => none
  else
    let (name, rest) := spanChars isNameChar cells
    if atOneOf ['!'] rest then
      (someTagText? false (rest.drop 1)).map fun (text, rest) =>
        ("!" ++ String.ofList name ++ "!", text, rest)
    else
      (tagText? false rest).map fun (text, rest) =>
        let text := String.ofList name ++ text
        if text = "" then ("", "!", rest) else ("!", text, rest)

/-- A tag behind its exclamation mark. -/
def tag? (inFlow : Bool) (cells : List Cell) : Option (Token × List Cell) :=
  match tagParts? cells with
  | some (handle, text, rest) =>
    if atSpacing rest || (inFlow && atOneOf [','] rest) then some (.tag handle text, rest) else none
  | none => none

/-! ### Directives -/

/-- A number of at most nine digits. -/
def versionNumber? (cells : List Cell) : Option (Nat × List Cell) :=
  let (digits, rest) := spanChars Char.isDigit cells
  if digits.length ≤ 9 then (Text.natural? digits).map fun n => (n, rest) else none

/-- The version that a directive gives. -/
def versionDirective? (cells : List Cell) : Option (Token × List Cell) := do
  let (major, rest) ← versionNumber? (skipBlanks cells)
  if atOneOf ['.'] rest then
    let (minor, rest) ← versionNumber? (rest.drop 1)
    pure (.version major minor, rest)
  else none

/-- The handle that a directive gives a meaning, and the meaning. -/
def handleDirective? (cells : List Cell) : Option (Token × List Cell) := do
  let cells := skipBlanks cells
  if atOneOf ['!'] cells then
    let (name, rest) := spanChars isNameChar (cells.drop 1)
    let (handle, rest) ←
      if atOneOf ['!'] rest then some ("!" ++ String.ofList name ++ "!", rest.drop 1)
      else if name.isEmpty then some ("!", rest)
      else none
    if atOneOf [' ', '\t'] rest then
      let (meaning, rest) ← someTagText? true (skipBlanks rest)
      if atSpacing rest then pure (.handle handle meaning, rest) else none
    else none
  else none

/-- A directive behind its percent sign, up to the next line. -/
def directive? (cells : List Cell) : Option (Token × List Cell) := do
  let (name, rest) := spanChars isNameChar cells
  if atSpacing rest then
    let (token, rest) ←
      if name = "YAML".toList then versionDirective? rest
      else if name = "TAG".toList then handleDirective? rest
      else none
    let rest ← endLine? rest
    pure (token, rest)
  else none

end ResourceQuery.Yaml
