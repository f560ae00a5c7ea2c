import ResourceQuery.Json.Basic
import ResourceQuery.Binary64.Layout

/-!
# Writing JSON

Two written forms of a value: the compact one without any blanks, and the indented one with two
spaces for each level. Strings escape the quote, the backslash and the control characters below
the space, and nothing else. A double is written in the layout `Layout.json`.

## Main definitions

* `Json.Writer.string`: a string with its quotes.
* `Json.compact`, `Json.indented`: the two forms.
-/

namespace ResourceQuery.Json

namespace Writer

/-- The small hexadecimal digit for a value below sixteen. -/
def hexDigit (n : Nat) : Char :=
  if n < 10 then Text.digitChar n else Char.ofNat ('a'.toNat + (n - 10))

/-- A character as it stands inside a string. -/
def char (c : Char) : List Char :=
  if c = '"' then ['\\', '"']
  else if c = '\\' then ['\\', '\\']
  else if c.toNat = 8 then ['\\', 'b']
  else if c.toNat = 9 then ['\\', 't']
  else if c.toNat = 10 then ['\\', 'n']
  else if c.toNat = 12 then ['\\', 'f']
  else if c.toNat = 13 then ['\\', 'r']
  else if c.toNat < 32 then
    ['\\', 'u', '0', '0', hexDigit (c.toNat / 16), hexDigit (c.toNat % 16)]
  else [c]

/-- A string between its quotes. -/
def string (s : String) : List Char :=
  '"' :: (s.toList.flatMap char ++ ['"'])

/-- A number: the digits of a whole one, a double in the JSON layout. -/
def number : Number → List Char
  | .integer i => Text.integerText i
  | .double d => d.val.text .json

mutual

/-- The compact form of a value. -/
def compact : Json → List Char
  | .null => "null".toList
  | .bool true => "true".toList
  | .bool false => "false".toList
  | .number n => number n
  | .string s => string s
  | .array [] => ['[', ']']
  | .array (item :: items) => '[' :: (compact item ++ compactItems items)
  | .object [] => ['{', '}']
  | .object ((key, v) :: members) =>
    '{' :: (string key ++ ':' :: (compact v ++ compactMembers members))

/-- The items behind the first one, each after a comma, and the end of the array. -/
def compactItems : List Json → List Char
  | [] => [']']
  | item :: items => ',' :: (compact item ++ compactItems items)

/-- The members behind the first one, each after a comma, and the end of the object. -/
def compactMembers : List (String × Json) → List Char
  | [] => ['}']
  | (key, v) :: members => ',' :: (string key ++ ':' :: (compact v ++ compactMembers members))

end

/-- A new line and the spaces of a level. -/
def newLine (level : Nat) : List Char :=
  '\n' :: List.replicate (2 * level) ' '

mutual

/-- The indented form of a value that stands at a level. -/
def indented (level : Nat) : Json → List Char
  | .array (item :: items) =>
    '[' :: (newLine (level + 1) ++ indented (level + 1) item ++ indentedItems level items)
  | .object ((key, v) :: members) =>
    '{' :: (newLine (level + 1) ++ string key ++ ':' :: ' ' :: (indented (level + 1) v
      ++ indentedMembers level members))
  | .array [] => ['[', ']']
  | .object [] => ['{', '}']
  | .null => compact .null
  | .bool b => compact (.bool b)
  | .number n => compact (.number n)
  | .string s => compact (.string s)

/-- The items behind the first one, each on a line of its own, and the end of the array. -/
def indentedItems (level : Nat) : List Json → List Char
  | [] => newLine level ++ [']']
  | item :: items =>
    ',' :: (newLine (level + 1) ++ indented (level + 1) item ++ indentedItems level items)

/-- The members behind the first one, each on a line of its own, and the end of the object. -/
def indentedMembers (level : Nat) : List (String × Json) → List Char
  | [] => newLine level ++ ['}']
  | (key, v) :: members =>
    ',' :: (newLine (level + 1) ++ string key ++ ':' :: ' ' :: (indented (level + 1) v
      ++ indentedMembers level members))

end

end Writer

/-- The value on one line without blanks. -/
def compact (v : Json) : String :=
  String.ofList (Writer.compact v)

/-- The value with each item and member on a line of its own. -/
def indented (v : Json) : String :=
  String.ofList (Writer.indented 0 v)

end ResourceQuery.Json
