import ResourceQuery.Text.Alphanumeric
import ResourceQuery.Text.Blank
import ResourceQuery.Text.Split

/-!
# Environments and files of variables

An environment gives values to the names of variables. A file of variables may add to it, one
`NAME=value` on a line. What is set already stays: by the environment itself, or by an earlier line.

A value may be quoted, wholly or in part. Single quotes keep everything; double quotes, and no
quotes, know escapes by a backslash and replace `$NAME` and `${NAME}` by the value that the variable
has by then. A line does not end inside quotes or behind a backslash, and a comment begins behind a
blank. Reading stops at the first line that is not well written; the lines before it count.

## Main definitions

* `Environment`, `Environment.setMissing`.
* `VariableFile.logicalLines`: the lines of a file, joined where they do not end.
* `VariableFile.value?`: a value, with its variables replaced.
* `Environment.addFile`: the environment with the variables of a file.
-/

namespace ResourceQuery

/-- The variables of an environment. -/
abbrev Environment := String → Option String

/-- The environment with a value for a variable that has none. -/
def Environment.setMissing (env : Environment) (name v : String) : Environment :=
  fun other => (env other).or (if other = name then some v else none)

namespace VariableFile

/-! ### Lines -/

/-- What a character of a line stands behind, as far as the end of the line goes. -/
inductive LineState
  | bare
  /-- Behind a blank. -/
  | blank
  | escape
  | double
  | doubleEscape
  | single
  | singleEscape
deriving DecidableEq

/-- The state behind a character outside of quotes. -/
def LineState.ofBare (c : Char) : LineState :=
  if c = '\\' then .escape else if c = '"' then .double else if c = '\'' then .single else .bare

/-- The state behind one more character. Of two blanks the second counts as a bare character. -/
def LineState.next (state : LineState) (c : Char) : LineState :=
  match state with
  | .bare =>
    if Text.isBlank c && c ≠ '\n' && c ≠ '\r' then .blank else LineState.ofBare c
  | .blank => LineState.ofBare c
  | .escape => .bare
  | .double => if c = '\\' then .doubleEscape else if c = '"' then .bare else .double
  | .doubleEscape => .double
  | .single => if c = '\\' then .singleEscape else if c = '\'' then .bare else .single
  | .singleEscape => .single

/-- A line up to its comment, and the state at its end, which is bare in front of a comment. -/
def cutComment (state : LineState) : List Char → List Char × LineState
  | [] => ([], state)
  | c :: cs =>
    if state = .blank ∧ c = '#' then ([], .bare)
    else
      let (kept, final) := cutComment (state.next c) cs
      (c :: kept, final)

/-- The parts of a text up to and with each line feed. -/
def physicalLines : List Char → List (List Char)
  | [] => []
  | c :: cs =>
    if c = '\n' then ['\n'] :: physicalLines cs
    else
      match physicalLines cs with
      | [] => [[c]]
      | line :: lines => (c :: line) :: lines

/-- The lines that end in the bare state, each joined from one or more, given what has been read of
the first one. A line that starts as a comment is dropped. -/
def logicalLines (state : LineState) (before : List Char) : List (List Char) → List (List Char)
  | [] => []
  | line :: lines =>
    if before = [] ∧ (Text.trimStart line).head? = some '#' then logicalLines .bare [] lines
    else
      let (kept, final) := cutComment state line
      if final = .bare then (before ++ kept) :: logicalLines .bare [] lines
      else logicalLines final (before ++ kept) lines

/-! ### Values -/

/-- How a value is being read. Where it matters, the argument says whether that is between double
quotes. -/
inductive ValueState
  | bare
  | double
  | single
  | escape (quoted : Bool)
  /-- Behind a dollar sign, with what has been read of the name of a variable. -/
  | variable (quoted : Bool) (name : List Char)
  /-- The same between braces. -/
  | braced (quoted : Bool) (name : List Char)
  /-- Behind the value. -/
  | finished
deriving DecidableEq

/-- The state outside of single quotes. -/
def ValueState.ofQuoted (quoted : Bool) : ValueState :=
  if quoted then .double else .bare

/-- What replaces a variable: nothing, if it has no value. -/
def substitute (env : Environment) (name : List Char) : List Char :=
  ((env (String.ofList name)).getD "").toList

/-- The character that a backslash and another stand for. -/
def escaped? (c : Char) : Option Char :=
  if c = 'n' then some '\n' else if c ∈ ['\\', '\'', '"', '$', ' '] then some c else none

/-- Puts characters in front of the rest of a value. -/
def prepend (cs : List Char) (rest : Option (List Char)) : Option (List Char) :=
  rest.map (cs ++ ·)

/-- The rest of a value up to the end of its line. A name of a variable goes on as long as letters
and digits do, and the character behind it stands for itself, unless it is another dollar sign.
Behind the value only a comment may follow. -/
def value? (env : Environment) : ValueState → List Char → Option (List Char)
  | .bare, [] | .finished, [] | .escape false, [] => some []
  | .variable false name, [] => some (substitute env name)
  | .double, [] | .single, [] | .escape true, [] | .variable true _, [] | .braced _ _, [] => none
  | .finished, c :: cs =>
    if c = ' ' ∨ c = '\t' then value? env .finished cs else if c = '#' then some [] else none
  | .escape quoted, c :: cs =>
    (escaped? c).bind fun e => prepend [e] (value? env (.ofQuoted quoted) cs)
  | .single, c :: cs =>
    if c = '\'' then value? env .bare cs else prepend [c] (value? env .single cs)
  | .variable quoted name, c :: cs =>
    if Text.isAlphanumeric c then value? env (.variable quoted (name ++ [c])) cs
    else if c = '{' ∧ name = [] then value? env (.braced quoted []) cs
    else
      prepend (substitute env name)
        (if c = '$' then value? env (.variable quoted []) cs
          else prepend [c] (value? env (.ofQuoted quoted) cs))
  | .braced quoted name, c :: cs =>
    if c = '}' then prepend (substitute env name) (value? env (.ofQuoted quoted) cs)
    else value? env (.braced quoted (name ++ [c])) cs
  | .double, c :: cs =>
    if c = '$' then value? env (.variable true []) cs
    else if c = '"' then value? env .bare cs
    else if c = '\\' then value? env (.escape true) cs
    else prepend [c] (value? env .double cs)
  | .bare, c :: cs =>
    if c = '$' then value? env (.variable false []) cs
    else if c = '\'' then value? env .single cs
    else if c = '"' then value? env .double cs
    else if c = '\\' then value? env (.escape false) cs
    else if c = ' ' ∨ c = '\t' then value? env .finished cs
    else prepend [c] (value? env .bare cs)

/-! ### Assignments -/

/-- Whether a name may start with this character. -/
def startsName (c : Char) : Bool := c.isAlpha || c = '_'

/-- Whether a name may go on with this character. -/
def isNameChar (c : Char) : Bool := c.isAlphanum || c = '_' || c = '.'

/-- A name at the start of a text, and what follows it behind blanks. -/
def name? (cs : List Char) : Option (List Char × List Char) :=
  match cs with
  | [] => none
  | c :: _ =>
    if startsName c then some (cs.takeWhile isNameChar, Text.trimStart (cs.dropWhile isNameChar))
    else none

/-- The value behind a name. -/
def assigned? (env : Environment) (cs : List Char) : Option (List Char) :=
  match cs with
  | '=' :: rest =>
    match Text.trimStart rest with
    | [] | '#' :: _ => some []
    | rest => value? env .bare rest
  | _ => none

/-- The variable of a line that is neither blank nor a comment. The word `export` may stand in front
of it. -/
def assignment? (env : Environment) (cs : List Char) : Option (String × String) :=
  match name? cs with
  | none => none
  | some (name, rest) =>
    let target := if name = "export".toList ∧ rest.head? ≠ some '=' then name? rest
      else some (name, rest)
    match target with
    | none => none
    | some (name, rest) =>
      (assigned? env rest).map fun v => (String.ofList name, String.ofList v)

/-- The environment with the variables of lines, up to the first that is not well written. -/
def addLines (env : Environment) : List (List Char) → Environment
  | [] => env
  | line :: lines =>
    match Text.trim line with
    | [] | '#' :: _ => addLines env lines
    | text =>
      match assignment? env text with
      | some (name, v) => addLines (env.setMissing name v) lines
      | none => env

/-- The lines of a file; a byte order mark in front does not count. -/
def lines (cs : List Char) : List (List Char) :=
  let cs := match cs with | '\uFEFF' :: rest => rest | _ => cs
  logicalLines .bare [] (physicalLines cs)

end VariableFile

/-- An environment with the variables of a file added to it, if there is such a file. -/
def Environment.addFile (env : Environment) (content : Option String) : Environment :=
  match content with
  | some text => VariableFile.addLines env (VariableFile.lines text.toList)
  | none => env

end ResourceQuery
