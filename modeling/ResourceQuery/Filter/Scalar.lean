import ResourceQuery.Binary64.Layout
import ResourceQuery.Json.Basic
import ResourceQuery.Text.Blank

/-!
# Scalar values and their types

The operands of filters are scalars: truth values, signed 64-bit integers, doubles and strings. A
resource may declare the type of a filterable field; then a client's scalar is *coerced* to it,
which above all turns the text of a query string into what it spells.

## Main definitions

* `Scalar`, `ScalarType`.
* `Scalar.ofJson?`: null, arrays, objects and integers beyond 64 bits are no scalars.
* `Scalar.coerce?`: a scalar read as a declared type.
* `Scalar.text`, `Scalar.toJson`: the text of a scalar, and its JSON form.
-/

namespace ResourceQuery

/-- A scalar value. -/
inductive Scalar
  | boolean (value : Bool)
  | integer (value : Int64)
  | float (value : Binary64)
  | string (value : String)
deriving DecidableEq

/-- The type of a scalar. -/
inductive ScalarType
  | string
  | integer
  | float
  | boolean
deriving DecidableEq

namespace ScalarType

/-- All types. -/
def all : List ScalarType := [.string, .integer, .float, .boolean]

/-- The name of a type in declarations and messages. -/
def name : ScalarType → String
  | .string => "string"
  | .integer => "integer"
  | .float => "float"
  | .boolean => "boolean"

/-- The type with a name. -/
def ofName? (text : String) : Option ScalarType :=
  all.find? fun t => t.name = text

/-- A type is found by its name. -/
theorem ofName?_name (t : ScalarType) : ofName? t.name = some t := by
  cases t <;> decide

end ScalarType

namespace Scalar

/-- The type that a scalar has. -/
def type : Scalar → ScalarType
  | .boolean _ => .boolean
  | .integer _ => .integer
  | .float _ => .float
  | .string _ => .string

/-- The text of a scalar: a string is its own text. -/
def text : Scalar → String
  | .boolean true => "true"
  | .boolean false => "false"
  | .integer i => String.ofList (Text.integerText i.toInt)
  | .float d => String.ofList (d.text .plain)
  | .string s => s

/-- The string that a scalar is. -/
def string? : Scalar → Option String
  | .string s => some s
  | _ => none

/-- The JSON form of a scalar. A double without a value has none but null. -/
def toJson : Scalar → Json
  | .boolean b => .bool b
  | .integer i => .number (.integer i.toInt)
  | .float d => if h : d.isFinite = true then .number (.double ⟨d, h⟩) else .null
  | .string s => .string s

/-- The scalar that a JSON value is. -/
def ofJson? : Json → Option Scalar
  | .bool b => some (.boolean b)
  | .number (.integer i) => (Text.int64Of? i).map .integer
  | .number (.double d) => some (.float d.val)
  | .string s => some (.string s)
  | _ => none

/-- The truth value that a text spells, in any case and between blanks. -/
def booleanOfText? (s : String) : Option Bool :=
  let word := Text.lowercase (Text.trimmed s)
  if word = "true" ∨ word = "1" then some true
  else if word = "false" ∨ word = "0" then some false
  else none

/-- A scalar read as a type. Every scalar can be read as a string, by its text. A string is read
as what it spells between blanks, doubles being finite; an integer is also a double, and zero and
one are also truth values. Nothing else changes its type. -/
def coerce? : ScalarType → Scalar → Option Scalar
  | .string, v => some (.string v.text)
  | .integer, .integer i => some (.integer i)
  | .integer, .string s => (Text.integer? (Text.trim s.toList)).map .integer
  | .float, .float d => some (.float d)
  | .float, .integer i => some (.float (Binary64.ofInt i.toInt))
  | .float, .string s =>
    ((Binary64.ofText? (Text.trim s.toList)).filter Binary64.isFinite).map .float
  | .boolean, .boolean b => some (.boolean b)
  | .boolean, .string s => (booleanOfText? s).map .boolean
  | .boolean, .integer i =>
    if i = 1 then some (.boolean true) else if i = 0 then some (.boolean false) else none
  | _, _ => none

end Scalar

end ResourceQuery
