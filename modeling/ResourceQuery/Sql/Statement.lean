import ResourceQuery.Specification
import ResourceQuery.Sql.Condition

/-!
# Statements

A statement selects rows of a base table. Handing it a part of a specification adds to it: columns,
conditions and sort keys accumulate, while a limit or an offset that is set replaces an earlier
one. Parts that ask for nothing change nothing. A statement without columns selects all of the
base table.

## Main definitions

* `Statement`, `Statement.start`.
* `Statement.apply`: the statement after one more part.
* `Statement.ofSpecification`: the statement of a specification.
-/

namespace ResourceQuery

/-- A statement that selects rows. -/
structure Statement where
  /-- The base table. -/
  table : String
  /-- The names of the selected columns, all in the base table. -/
  columns : List String
  conditions : List Condition
  order : List (Column × Direction)
  limit : Option UInt64
  offset : Option UInt64

namespace Statement

/-- The statement that selects everything. -/
def start (table : String) : Statement :=
  ⟨table, [], [], [], none, none⟩

/-- Adds a condition. -/
def restrict (statement : Statement) (condition : Condition) : Statement :=
  { statement with conditions := statement.conditions ++ [condition] }

/-- The statement after one more part. -/
def apply (statement : Statement) : Part → Statement
  | .columns names => { statement with columns := statement.columns ++ names }
  | .filter p => statement.restrict (.ofPredicate statement.table p)
  | .window w =>
    { statement with
      limit := w.limit.or statement.limit
      offset := w.offset.or statement.offset }
  | .sort key =>
    match key.column? with
    | none => statement
    | some field =>
      { statement with
        order := statement.order ++ [(Column.ofField statement.table field, key.direction)] }
  | .search term =>
    if term.isNoop then statement else statement.restrict (.ofSearch statement.table term)

/-- The statement after a list of parts. -/
def applyAll (statement : Statement) (parts : List Part) : Statement :=
  parts.foldl apply statement

/-- The statement of a specification. -/
def ofSpecification (schema : Schema) (spec : Specification) : Statement :=
  (start schema.table).applyAll spec.parts

end Statement

end ResourceQuery
