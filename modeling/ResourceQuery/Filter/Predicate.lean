import ResourceQuery.Filter.Scalar

/-!
# Filter predicates

A predicate compares a field with an operand by one of eleven operators. An operator says which
shape its operand must have. Clients may write operators in several spellings; a resource's
declaration uses one exact name, or a sign.

## Main definitions

* `Operator`, `Operator.shape`.
* `Operator.ofToken?`: the spellings of clients. `Operator.ofDeclaration?`: those of declarations.
* `Operand`, `Predicate`.
-/

namespace ResourceQuery

/-- The comparisons that a filter can make. -/
inductive Operator
  | eq
  | ne
  | gt
  | gte
  | lt
  | lte
  /-- Equal to some element of a list. -/
  | oneOf
  /-- Equal to no element of a list. -/
  | noneOf
  /-- Between two bounds, both included. -/
  | between
  | notBetween
  /-- Containing a text. -/
  | contains
deriving DecidableEq

/-- The shapes that an operator can ask of its operand. -/
inductive OperandShape
  /-- A scalar or a list, as given. -/
  | any
  /-- A list that is not empty. -/
  | list
  /-- A list of exactly two. -/
  | pair
  /-- A string. -/
  | text
deriving DecidableEq

namespace OperandShape

/-- The name of a shape. -/
def name : OperandShape → String
  | .any => "Any"
  | .list => "List"
  | .pair => "Pair"
  | .text => "Text"

end OperandShape

namespace Operator

/-- All operators in order. -/
def all : List Operator :=
  [.eq, .ne, .gt, .gte, .lt, .lte, .oneOf, .noneOf, .between, .notBetween, .contains]

/-- The name of an operator in declarations, specifications and messages. -/
def name : Operator → String
  | .eq => "eq"
  | .ne => "ne"
  | .gt => "gt"
  | .gte => "gte"
  | .lt => "lt"
  | .lte => "lte"
  | .oneOf => "in"
  | .noneOf => "not_in"
  | .between => "between"
  | .notBetween => "not_between"
  | .contains => "contains"

/-- The shape that an operator asks of its operand. -/
def shape : Operator → OperandShape
  | .oneOf | .noneOf => .list
  | .between | .notBetween => .pair
  | .contains => .text
  | _ => .any

/-- The signs that a client may write for an operator. -/
def clientSigns : Operator → List String
  | .eq => ["=", "=="]
  | .ne => ["!=", "<>"]
  | .gt => [">"]
  | .gte => [">="]
  | .lt => ["<"]
  | .lte => ["<="]
  | _ => []

/-- The sign that a declaration may write for an operator. -/
def declaredSigns : Operator → List String
  | .eq => ["="]
  | .ne => ["!="]
  | .gt => [">"]
  | .gte => [">="]
  | .lt => ["<"]
  | .lte => ["<="]
  | _ => []

/-- The operator that a client's token means: its name in any case, or one of its signs, between
blanks. -/
def ofToken? (token : String) : Option Operator :=
  let word := Text.lowercase (Text.trimmed token)
  all.find? fun op => op.name = word ∨ word ∈ op.clientSigns

/-- The operator that a declaration names, exactly. -/
def ofDeclaration? (text : String) : Option Operator :=
  all.find? fun op => op.name = text ∨ text ∈ op.declaredSigns

/-- The message about a token that means no operator. -/
def unknownMessage (token : String) : String :=
  s!"unknown filter operator `{token}`"

end Operator

/-- What a field is compared with. -/
inductive Operand
  | scalar (value : Scalar)
  | list (values : List Scalar)
  /-- Two bounds, in the order in which they were given. -/
  | range (first last : Scalar)
deriving DecidableEq

/-- The JSON form of an operand; a range is a list of two. -/
def Operand.toJson : Operand → Json
  | .scalar v => v.toJson
  | .list vs => .array (vs.map Scalar.toJson)
  | .range a b => .array [a.toJson, b.toJson]

/-- A condition on a field. -/
structure Predicate where
  /-- The field, by its dotted path. -/
  field : String
  operator : Operator
  operand : Operand
deriving DecidableEq

/-- The JSON form of a predicate. -/
def Predicate.toJson (p : Predicate) : Json :=
  .object
    [("field", .string p.field), ("operator", .string p.operator.name),
      ("value", p.operand.toJson)]

end ResourceQuery
