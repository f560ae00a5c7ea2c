import ResourceQuery.Json.Basic
import ResourceQuery.Text.Blank

/-!
# Orderings

An ordering names at most one field and a direction. Without a field, or with the empty one, it
asks for no order at all.

## Main definitions

* `Direction`, `Direction.ofToken?`: the spellings that clients may use.
* `SortKey`, `SortKey.unordered`, `SortKey.column?`.
-/

namespace ResourceQuery

/-- The direction of an ordering. -/
inductive Direction
  | ascending
  | descending
deriving DecidableEq

namespace Direction

/-- Both directions. -/
def all : List Direction := [.ascending, .descending]

/-- The name of a direction. -/
def name : Direction → String
  | .ascending => "asc"
  | .descending => "desc"

/-- The direction with exactly this name, as declarations write it. -/
def ofName? (text : String) : Option Direction :=
  all.find? fun d => d.name = text

/-- The direction that a client's token means: its name, in any case and between blanks. -/
def ofToken? (token : String) : Option Direction :=
  ofName? (Text.lowercase (Text.trimmed token))

/-- The message about a token that means no direction. -/
def unknownMessage (token : String) : String :=
  s!"unknown sort direction `{token}`"

/-- A direction is found by its name. -/
theorem ofName?_name (d : Direction) : ofName? d.name = some d := by
  cases d <;> decide

end Direction

/-- An ordering by at most one field. -/
structure SortKey where
  field : Option String
  direction : Direction
deriving DecidableEq

namespace SortKey

/-- The ordering that asks for no order. -/
def unordered : SortKey := ⟨none, .ascending⟩

/-- The field to order by, if there is one and it is not empty. -/
def column? (key : SortKey) : Option String :=
  key.field.filter (· ≠ "")

/-- Whether no order is asked for. -/
def isNoop (key : SortKey) : Bool :=
  key.column?.isNone

/-- The JSON form of an ordering. -/
def toJson (key : SortKey) : Json :=
  .object
    [("field", Json.ofOption .string key.field), ("direction", .string key.direction.name)]

end SortKey

end ResourceQuery
