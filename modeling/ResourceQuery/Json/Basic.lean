import ResourceQuery.Binary64.Basic
import ResourceQuery.Entries
import ResourceQuery.Text.Digits

/-!
# JSON values

A value of the JSON data model. Objects keep their members in order. A number is either a whole
number or a finite double; which of the two it is shows in how it is written, so the distinction
belongs to the value. Readers of this library produce whole numbers between `-2 ^ 63` and
`2 ^ 64`, and write each member name of an object at most once.

## Main definitions

* `Json`, `Json.Number`: values and numbers.
* `Json.get?`: a member of an object.
* `Json.Number.count?`, `Json.Number.int64?`: a number as a count, or as a signed one.
-/

namespace ResourceQuery

/-- A JSON number. -/
inductive Json.Number
  /-- A number that is written without a point and without an exponent. -/
  | integer (value : Int)
  /-- A number that is held as a finite double. -/
  | double (value : FiniteBinary64)
deriving DecidableEq

/-- A JSON value. -/
inductive Json
  | null
  | bool (value : Bool)
  | number (value : Json.Number)
  | string (value : String)
  | array (items : List Json)
  | object (members : List (String × Json))

namespace Json

/-- The count that a whole number is, if it is one: neither negative nor beyond 64 bits. -/
def Number.count? : Number → Option UInt64
  | .integer (.ofNat n) => Text.countOf? n
  | _ => none

/-- The signed 64-bit integer that a whole number is, if it fits. -/
def Number.int64? : Number → Option Int64
  | .integer i => Text.int64Of? i
  | .double _ => none

/-- A count as a number. -/
def ofCount (n : UInt64) : Json :=
  .number (.integer n.toNat)

/-- The number that a count is written as is this count. -/
theorem Number.count?_toNat (n : UInt64) : (Number.integer n.toNat).count? = some n := by
  change Text.countOf? n.toNat = some n
  rw [Text.countOf?, dif_pos n.toNat_lt]
  rfl

/-- The value of an optional part: its JSON form, or null when it is missing. -/
def ofOption {α : Type} (f : α → Json) : Option α → Json
  | some a => f a
  | none => .null

/-- A list of texts. -/
def ofStrings (texts : List String) : Json :=
  .array (texts.map .string)

/-- A member of an object. Other values have no members. -/
def get? (name : String) : Json → Option Json
  | .object members => Entries.get? members name
  | _ => none

end Json

end ResourceQuery
