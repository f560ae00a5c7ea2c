import ResourceQuery.Document.Yaml.Cell
import ResourceQuery.Text.Digits

/-!
# Block scalars

A block scalar is written on the lines below a bar or an angle bracket, indented to one column. The
bar keeps its line breaks. The angle bracket folds them: a line break between two lines that do not
start with a blank becomes a space, or goes away when empty lines stand between them. What happens
to the line breaks at the end is up to an indicator in the first line; the first line may also say
how far the others are indented, which otherwise the first of them that is not empty decides.

## Main definitions

* `Yaml.Chomping`: what happens to the line breaks at the end.
* `Yaml.blockScalar?`: the rest of a block scalar.
-/

namespace ResourceQuery.Yaml

/-- What happens to the line breaks at the end of a block scalar. -/
inductive Chomping
  | strip
  /-- The first one stays. -/
  | clip
  | keep
deriving DecidableEq

/-- What a block scalar contains, with its line breaks at the end. -/
structure BlockText where
  text : List Char
  /-- The line break behind the last line. -/
  lead : List Char
  /-- The line breaks of the empty lines behind it. -/
  trail : List Char

/-- A block scalar with its last line breaks treated as they should be. -/
def BlockText.chomped (block : BlockText) : Chomping → List Char
  | .strip => block.text
  | .clip => block.text ++ block.lead
  | .keep => block.text ++ block.lead ++ block.trail

/-! ### The first line -/

/-- The indicator of what happens at the end, if it is next. -/
def chomping? : List Cell → Option Chomping × List Cell
  | [] => (none, [])
  | c :: rest =>
    if c.char = '+' then (some .keep, rest)
    else if c.char = '-' then (some .strip, rest)
    else (none, c :: rest)

/-- The digit for the indentation, if it is next; zero is refused. -/
def increment? : List Cell → Option (Option Nat × List Cell)
  | [] => some (none, [])
  | c :: rest =>
    if c.char = '0' then none
    else if c.char.isDigit then some (some (Text.digitValue c.char), rest)
    else some (none, c :: rest)

/-- The first line of a block scalar: the two indicators, in either order. -/
def blockHeader? (cells : List Cell) : Option (Chomping × Option Nat × List Cell) := do
  let (early, rest) := chomping? cells
  let (increment, rest) ← increment? rest
  let (late, rest) :=
    if early.isNone && increment.isSome then chomping? rest else (none, rest)
  let rest ← endLine? rest
  pure ((early.or late).getD .clip, increment, rest)

/-! ### The other lines -/

/-- The breaks of the lines that are empty up to a column, and the cells from the first other line
on, without its indentation. Tabs do not indent. -/
def emptyLines? (indent : Nat) : List Cell → Option (List Char × List Cell)
  | [] => some ([], [])
  | c :: rest =>
    if c.column < indent && c.char = ' ' then emptyLines? indent rest
    else if c.column < indent && c.char = '\t' then none
    else if isBreak c.char then
      (emptyLines? indent rest).map fun (breaks, after) => (c.char :: breaks, after)
    else some ([], c :: rest)

/-- The same where the column is still open: the widest indentation up to the first line that is
not blank, which is at least `widest`, the breaks before that line, and the cells from it on. -/
def leadingLines? (widest : Nat) : List Cell → Option (Nat × List Char × List Cell)
  | [] => some (widest, [], [])
  | c :: rest =>
    if c.char = ' ' then leadingLines? widest rest
    else if c.char = '\t' then none
    else if isBreak c.char then
      (leadingLines? (max widest c.column) rest).map fun (widest, breaks, after) =>
        (widest, c.char :: breaks, after)
    else some (max widest c.column, [], c :: rest)

/-- What stands between two lines of a block scalar, given the break of the first, the breaks of
the empty lines between them, and whether one of the two starts with a blank. -/
def blockGap (folds : Bool) (lead trail : List Char) (besideBlank : Bool) : List Char :=
  if folds && lead = ['\n'] && !besideBlank then
    if trail.isEmpty then [' '] else trail
  else lead ++ trail

/-- The lines of a block scalar at a column, behind line breaks. The first argument bounds the
number of lines. -/
def blockLines? (folds : Bool) (indent : Nat) :
    Nat → (lead trail : List Char) → (afterBlank : Bool) → List Cell →
      Option (BlockText × List Cell)
  | 0, _, _, _, _ => none
  | _ + 1, lead, trail, _, [] => some (⟨[], lead, trail⟩, [])
  | fuel + 1, lead, trail, afterBlank, c :: rest =>
    if c.column ≠ indent then some (⟨[], lead, trail⟩, c :: rest)
    else
      let startsBlank := isBlank c.char
      let line := (c :: rest).takeWhile fun c => !isBreak c.char
      let after := (c :: rest).dropWhile fun c => !isBreak c.char
      match emptyLines? indent (after.drop 1) with
      | none => none
      | some (breaks, next) =>
        match blockLines? folds indent fuel (after.head?.toList.map Cell.char) breaks startsBlank
            next with
        | none => none
        | some (block, end_) =>
          let text := blockGap folds lead trail (afterBlank || startsBlank)
            ++ line.map Cell.char ++ block.text
          some ({ block with text }, end_)

/-- The rest of a block scalar behind its bar or angle bracket, and the cells that follow. What it
belongs to is indented to the column before `least`. -/
def blockScalar? (folds : Bool) (least : Nat) (cells : List Cell) :
    Option (List Char × List Cell) := do
  let (chomping, increment, rest) ← blockHeader? cells
  let (indent, breaks, rest) ←
    match increment with
    | some n =>
      let indent := least - 1 + n
      (emptyLines? indent rest).map fun (breaks, rest) => (indent, breaks, rest)
    | none =>
      (leadingLines? 0 rest).map fun (widest, breaks, rest) =>
        (max 1 (max least widest), breaks, rest)
  let (block, rest) ← blockLines? folds indent (rest.length + 1) [] breaks false rest
  pure (block.chomped chomping, rest)

end ResourceQuery.Yaml
