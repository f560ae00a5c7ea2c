import ResourceQuery.Filter.Predicate
import ResourceQuery.Search
import ResourceQuery.Sql.Literal
import ResourceQuery.Sql.Pattern
import ResourceQuery.Text.Split

/-!
# Conditions

A predicate becomes one condition on columns. A list of operands means any of them for an ordering
comparison, and membership for equality. An operand that does not have the shape of its operator
makes the condition that no row meets: a mistake must not widen an answer. A search becomes the
condition that any of its fields contains the value.

A field's column is in the base table, unless the field is a dotted path; then the text before the
last dot names the table.

## Main definitions

* `Column`, `Atom`, `Condition`.
* `Condition.ofPredicate`, `Condition.ofSearch`.
* `Condition.holds`: the truth of a condition, given that of the elementary comparisons.
-/

namespace ResourceQuery

/-- A column of a table. -/
structure Column where
  table : String
  name : String
deriving DecidableEq

/-- The column of a field. -/
def Column.ofField (base field : String) : Column :=
  match Text.cutLast '.' field.toList with
  | some (table, name) => ⟨String.ofList table, String.ofList name⟩
  | none => ⟨base, field⟩

/-- The elementary comparisons. -/
inductive Comparison
  | eq
  | ne
  | gt
  | gte
  | lt
  | lte
deriving DecidableEq

/-- The sign of a comparison. -/
def Comparison.sign : Comparison → String
  | .eq => "="
  | .ne => "<>"
  | .gt => ">"
  | .gte => ">="
  | .lt => "<"
  | .lte => "<="

/-- A test of one column against one value. -/
inductive Atom
  | compare (column : Column) (comparison : Comparison) (value : Literal)
  | like (column : Column) (pattern : String)
deriving DecidableEq

/-- A condition on the rows of an answer. -/
inductive Condition
  | atom (atom : Atom)
  /-- Equal to some value of a list, or, when negated, to none. -/
  | member (column : Column) (negated : Bool) (values : List Literal)
  /-- Between two values, both included, or, when negated, not between them. -/
  | between (column : Column) (negated : Bool) (first last : Literal)
  /-- Any of the tests. -/
  | anyOf (atoms : List Atom)
  /-- No row. -/
  | never
deriving DecidableEq

namespace Condition

/-- The condition that a column contains a text. -/
def containing (column : Column) (text : String) : Atom :=
  .like column (Pattern.containing text)

/-- The condition of an ordering comparison with an operand. -/
def ordering (column : Column) (comparison : Comparison) : Operand → Condition
  | .scalar v => .atom (.compare column comparison (.scalar v))
  | .list vs => .anyOf (vs.map fun v => .compare column comparison (.scalar v))
  | .range _ _ => .never

/-- The condition of a test for equality, or, when negated, for its opposite. -/
def equality (column : Column) (negated : Bool) : Operand → Condition
  | .scalar v => .atom (.compare column (if negated then .ne else .eq) (.scalar v))
  | .list vs => .member column negated (vs.map .scalar)
  | .range _ _ => .never

/-- The condition of a range. -/
def range (column : Column) (negated : Bool) : Operand → Condition
  | .range a b => .between column negated (.scalar a) (.scalar b)
  | _ => .never

/-- The condition of a predicate on a column. -/
def ofOperator (column : Column) : Operator → Operand → Condition
  | .eq, operand | .oneOf, operand => equality column false operand
  | .ne, operand | .noneOf, operand => equality column true operand
  | .gt, operand => ordering column .gt operand
  | .gte, operand => ordering column .gte operand
  | .lt, operand => ordering column .lt operand
  | .lte, operand => ordering column .lte operand
  | .between, operand => range column false operand
  | .notBetween, operand => range column true operand
  | .contains, .scalar v => .atom (containing column v.text)
  | .contains, _ => .never

/-- The condition of a predicate. -/
def ofPredicate (base : String) (p : Predicate) : Condition :=
  ofOperator (Column.ofField base p.field) p.operator p.operand

/-- The condition of a search. -/
def ofSearch (base : String) (term : SearchTerm) : Condition :=
  .anyOf (term.fields.map fun field => containing (Column.ofField base field) term.value)

/-- Truth values of the tests that conditions are made of. -/
structure Assignment where
  atom : Atom → Bool
  member : Column → List Literal → Bool
  between : Column → Literal → Literal → Bool

/-- The truth of a condition. No value is in the empty list. -/
def holds (a : Assignment) : Condition → Bool
  | .atom t => a.atom t
  | .member _ negated [] => negated
  | .member column negated (v :: vs) => a.member column (v :: vs) != negated
  | .between column negated first last => a.between column first last != negated
  | .anyOf atoms => atoms.any a.atom
  | .never => false

end Condition

end ResourceQuery
