import ResourceQuery.Text.Blank
import ResourceQuery.Text.Digits
import ResourceQuery.Text.Split

/-!
# Selection expressions

A selection expression lists dotted paths, separated by commas; a path followed by a list in
braces stands for each path of that list below it. A leading `$` segment means the resource itself
and is dropped, at the topmost level only. Empty items do not count, and blanks around names and
behind groups are ignored.

An expression is read character by character. The state holds the groups that are open, the item
that is being read, and whether a group has just been closed, after which only a comma or another
closing brace may follow. Positions in messages count bytes of UTF-8.

## Main definitions

* `SelectionError`: what can be wrong with an expression.
* `Expression.segments?`: the segments of one item.
* `Expression.paths`: the paths of an expression, in order.
-/

namespace ResourceQuery

/-- What is wrong with a selection expression. -/
inductive SelectionError
  | emptySegment (item : String)
  | groupWithoutName (position : Nat)
  | unexpectedEnd (position : Nat)
  | missingComma (position : Nat)
  | unclosedGroup
deriving DecidableEq

/-- What is wrong, for people. -/
def SelectionError.message : SelectionError → String
  | .emptySegment item => s!"empty path segment in `{item}`"
  | .groupWithoutName position =>
    "group without a field name at " ++ String.ofList (Text.digits position)
  | .unexpectedEnd position => "unexpected `\x7d` at " ++ String.ofList (Text.digits position)
  | .missingComma position =>
    "expected `,` after group at " ++ String.ofList (Text.digits position)
  | .unclosedGroup => "unclosed `\x7b` in field selection"

namespace Expression

/-- A path, as the names of the fields on it. -/
abbrev Path := List String

/-- What has been read of an expression. -/
structure State where
  /-- The paths that are complete, the latest first. -/
  paths : List Path
  /-- The paths of the groups that are open, the innermost first. -/
  groups : List Path
  /-- The item that is being read, the latest character first. -/
  item : List Char
  /-- Whether a group has just been closed. -/
  closed : Bool
  /-- The number of bytes read. -/
  position : Nat

/-- The state before the first character. -/
def State.start : State := ⟨[], [], [], false, 0⟩

/-- The segments of an item without its trailing blanks, below the topmost level or on it. A blank
item has none, and neither has the resource itself. -/
def segments? (atTop : Bool) (item : List Char) : Except SelectionError (Option Path) :=
  let item := Text.trimEnd item
  if item = [] then .ok none
  else
    let parts := Text.splitOn '.' item
    let parts := if atTop && parts.head? == some ['$'] then parts.tail else parts
    if [] ∈ parts then .error (.emptySegment (String.ofList item))
    else if parts = [] then .ok none
    else .ok (some (parts.map String.ofList))

/-- The full path of the item that is being read, if it has one. -/
def State.path? (state : State) : Except SelectionError (Option Path) :=
  (segments? state.groups.isEmpty state.item.reverse).map fun segments =>
    segments.map fun path => state.groups.headD [] ++ path

/-- Completes the item that is being read. -/
def State.flush (state : State) : Except SelectionError State :=
  state.path?.map fun path =>
    { state with paths := path.toList ++ state.paths, item := [] }

/-- Reads one character, without counting it. -/
def State.read (state : State) (c : Char) : Except SelectionError State :=
  if c = ',' then state.flush.map fun state => { state with closed := false }
  else if c = '{' then
    match state.path? with
    | .error e => .error e
    | .ok none => .error (.groupWithoutName state.position)
    | .ok (some path) => .ok { state with groups := path :: state.groups, item := [] }
  else if c = '}' then
    match state.flush with
    | .error e => .error e
    | .ok state =>
      match state.groups with
      | [] => .error (.unexpectedEnd state.position)
      | _ :: groups => .ok { state with groups, closed := true }
  else if Text.isBlank c && (state.item.isEmpty || state.closed) then .ok state
  else if state.closed then .error (.missingComma state.position)
  else .ok { state with item := c :: state.item }

/-- Reads one character. -/
def State.step (state : State) (c : Char) : Except SelectionError State :=
  (state.read c).map fun next => { next with position := state.position + c.utf8Size }

/-- The paths once all characters are read. -/
def State.finish (state : State) : Except SelectionError (List Path) :=
  match state.flush with
  | .error e => .error e
  | .ok state => if state.groups.isEmpty then .ok state.paths.reverse else .error .unclosedGroup

/-- The paths of an expression, from left to right. -/
def paths (expression : String) : Except SelectionError (List Path) :=
  match expression.toList.foldlM State.step State.start with
  | .error e => .error e
  | .ok state => state.finish

end Expression

end ResourceQuery
