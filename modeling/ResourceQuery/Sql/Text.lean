import ResourceQuery.Sql.Statement

/-!
# The text of a statement

A statement is written as a list of pieces: words, signs, spaces, names and values. The same pieces
give both of its texts. In the inlined text every value is written out; in the bound text every
value is a placeholder, `$1`, `$2` and so on in the order of the pieces, and the values are listed
beside it. Names stand in double quotes, with a double quote inside written twice.

Conditions are joined by `AND`. Where there are two or more of them, those that contain a weaker or
an equal word stand in parentheses: two or more alternatives, a range, and the condition that no
row meets.

## Main definitions

* `Piece`, `Statement.pieces`.
* `Statement.inlined`, `Statement.bound`, `Statement.values`.
-/

namespace ResourceQuery

/-- A piece of the text of a statement. -/
inductive Piece
  | word (letters : String)
  | sign (characters : String)
  | space
  | name (text : String)
  | value (literal : Literal)
deriving DecidableEq

namespace Piece

/-- A name between double quotes. -/
def nameText (s : String) : List Char :=
  '"' :: ((s.toList.flatMap fun c => if c = '"' then ['"', '"'] else [c]) ++ ['"'])

/-- A piece with its value written out. -/
def inlined : Piece → List Char
  | .word letters => letters.toList
  | .sign characters => characters.toList
  | .space => [' ']
  | .name s => nameText s
  | .value literal => literal.text

/-- The value of a piece. -/
def value? : Piece → Option Literal
  | .value literal => some literal
  | _ => none

/-- Pieces with placeholders for their values, counted from a number on. -/
def boundFrom (next : Nat) : List Piece → List Char
  | [] => []
  | .value _ :: pieces => '$' :: (Text.digits next ++ boundFrom (next + 1) pieces)
  | piece :: pieces => piece.inlined ++ boundFrom next pieces

/-- A word between spaces. -/
def spaced (letters : String) : List Piece :=
  [.space, .word letters, .space]

/-- Lists of pieces with a separator between them. -/
def join (separator : List Piece) : List (List Piece) → List Piece
  | [] => []
  | [pieces] => pieces
  | pieces :: rest => pieces ++ separator ++ join separator rest

/-- The separator of a list. -/
def comma : List Piece := [.sign ",", .space]

/-- Pieces in parentheses, where these are asked for. -/
def parenthesized (asked : Bool) (pieces : List Piece) : List Piece :=
  if asked then .sign "(" :: (pieces ++ [.sign ")"]) else pieces

end Piece

/-- The pieces of a column. -/
def Column.pieces (c : Column) : List Piece :=
  [.name c.table, .sign ".", .name c.name]

/-- The pieces of a test. -/
def Atom.pieces : Atom → List Piece
  | .compare column comparison v =>
    column.pieces ++ [.space, .sign comparison.sign, .space, .value v]
  | .like column pattern =>
    column.pieces ++ Piece.spaced "LIKE" ++ [.value (.scalar (.string pattern))]

namespace Condition

/-- The word in front of a negated test. -/
def negation (negated : Bool) : List Piece :=
  if negated then [.space, .word "NOT"] else []

/-- The pieces of a condition; `amongOthers` says whether there are other conditions. -/
def pieces (amongOthers : Bool) : Condition → List Piece
  | .atom t => t.pieces
  | .member _ negated [] =>
    [.value (.constant 1), .space, .sign "=", .space,
      .value (.constant (if negated then 1 else 2))]
  | .member column negated (v :: vs) =>
    column.pieces ++ negation negated ++ Piece.spaced "IN"
      ++ Piece.parenthesized true (Piece.join Piece.comma ((v :: vs).map fun v => [.value v]))
  | .between column negated first last =>
    Piece.parenthesized amongOthers
      (column.pieces ++ negation negated ++ Piece.spaced "BETWEEN" ++ [.value first]
        ++ Piece.spaced "AND" ++ [.value last])
  | .anyOf [] => [.word "FALSE"]
  | .anyOf [t] => t.pieces
  | .anyOf atoms =>
    Piece.parenthesized amongOthers (Piece.join (Piece.spaced "OR") (atoms.map Atom.pieces))
  | .never => Piece.parenthesized amongOthers [.word "FALSE"]

end Condition

namespace Statement

/-- The pieces of the selected columns. -/
def columnPieces (statement : Statement) : List Piece :=
  match statement.columns with
  | [] => [.name statement.table, .sign ".", .sign "*"]
  | columns =>
    Piece.join Piece.comma (columns.map fun name => Column.pieces ⟨statement.table, name⟩)

/-- The pieces of the conditions. -/
def conditionPieces (statement : Statement) : List Piece :=
  match statement.conditions with
  | [] => []
  | conditions =>
    Piece.spaced "WHERE"
      ++ Piece.join (Piece.spaced "AND") (conditions.map (Condition.pieces (conditions.length > 1)))

/-- The word of a direction. -/
def directionWord : Direction → String
  | .ascending => "ASC"
  | .descending => "DESC"

/-- The pieces of the sort keys. -/
def orderPieces (statement : Statement) : List Piece :=
  match statement.order with
  | [] => []
  | order =>
    Piece.spaced "ORDER" ++ [.word "BY", .space]
      ++ Piece.join Piece.comma (order.map fun (column, direction) =>
        column.pieces ++ [.space, .word (directionWord direction)])

/-- The pieces of a number of rows after its word, if it is set. -/
def countPieces (letters : String) : Option UInt64 → List Piece
  | none => []
  | some n => Piece.spaced letters ++ [.value (.count n)]

/-- The pieces of a statement. -/
def pieces (statement : Statement) : List Piece :=
  [.word "SELECT", .space] ++ statement.columnPieces ++ Piece.spaced "FROM"
    ++ [.name statement.table] ++ statement.conditionPieces ++ statement.orderPieces
    ++ countPieces "LIMIT" statement.limit ++ countPieces "OFFSET" statement.offset

/-- The text of a statement with its values written out. -/
def inlined (statement : Statement) : String :=
  String.ofList (statement.pieces.flatMap Piece.inlined)

/-- The text of a statement with placeholders. -/
def bound (statement : Statement) : String :=
  String.ofList (Piece.boundFrom 1 statement.pieces)

/-- The values that the placeholders stand for, in order. -/
def values (statement : Statement) : List Literal :=
  statement.pieces.filterMap Piece.value?

end Statement

end ResourceQuery
