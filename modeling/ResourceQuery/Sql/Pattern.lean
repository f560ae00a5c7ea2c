/-!
# Patterns

In a pattern, `%` stands for any run of characters and `_` for any one character, and a backslash
makes the next character stand for itself. Looking for a text anywhere inside another is matching
against the text's own pattern between two `%`.

## Main definitions

* `Pattern.accepts`: the texts that a pattern stands for.
* `Pattern.containing`: the pattern of the texts that contain a text.
-/

namespace ResourceQuery.Pattern

/-- The characters that mean something in a pattern. -/
def isSpecial (c : Char) : Bool :=
  c = '\\' || c = '%' || c = '_'

/-- A character as it stands for itself in a pattern. -/
def escapeChar (c : Char) : List Char :=
  if isSpecial c then ['\\', c] else [c]

/-- The pattern of a text itself. -/
def literal (text : List Char) : List Char :=
  text.flatMap escapeChar

/-- The pattern of the texts that contain a text. -/
def containing (text : String) : String :=
  String.ofList ('%' :: (literal text.toList ++ ['%']))

/-- Whether a test holds of some end of a text, the text itself and the empty one included. -/
def someSuffix (test : List Char → Bool) : List Char → Bool
  | [] => test []
  | c :: rest => test (c :: rest) || someSuffix test rest

/-- Whether a pattern stands for a text. A backslash at the end of a pattern stands for nothing. -/
def accepts : List Char → List Char → Bool
  | [], text => text.isEmpty
  | ['\\'], _ => false
  | '\\' :: c :: pattern, text =>
    match text with
    | [] => false
    | d :: rest => c = d && accepts pattern rest
  | '%' :: pattern, text => someSuffix (accepts pattern) text
  | c :: pattern, text =>
    match text with
    | [] => false
    | d :: rest => (c = '_' || c = d) && accepts pattern rest

end ResourceQuery.Pattern
