import ResourceQuery.Json.Writer
import ResourceQuery.Request.Basic
import ResourceQuery.Schema.Basic

/-!
# The window of a request

A window says how many rows a client wants and how many to skip before them. Both parts may be
unset; zero is a value like any other.

Limit and offset are counts, given as JSON integers or as texts; a parameter that is absent, null
or blank is unset. A limit beyond the declared maximum is a fault and leaves the limit unset: it is
refused, not cut down.

## Main definitions

* `Window`.
* `PaginationCause`: the causes of faults.
* `CountParam.ofValue`: what one parameter says.
* `Window.read`: the window of a request, with its faults.
-/

namespace ResourceQuery

/-- A window of rows. -/
structure Window where
  limit : Option UInt64
  offset : Option UInt64
deriving DecidableEq

namespace Window

/-- The window of all rows. -/
def all : Window := ⟨none, none⟩

/-- Whether neither part is set. -/
def isUnset (window : Window) : Bool :=
  window.limit.isNone && window.offset.isNone

/-- The JSON form of a window. -/
def toJson (window : Window) : Json :=
  .object
    [("limit", Json.ofOption Json.ofCount window.limit),
      ("offset", Json.ofOption Json.ofCount window.offset)]

end Window

/-! ### Reading windows -/

/-- Why a part of a window was refused. -/
inductive PaginationCause
  | notACount (param : String) (given : Json)
  | limitBeyond (limit maximum : UInt64)

/-- The text of a count. -/
def countText (n : UInt64) : String :=
  String.ofList (Text.digits n.toNat)

/-- The message about a cause. -/
def PaginationCause.message : PaginationCause → String
  | .notACount param given =>
    "`" ++ param ++ "` must be a non-negative integer, got " ++ given.compact
  | .limitBeyond limit maximum =>
    "limit " ++ countText limit ++ " exceeds the maximum of " ++ countText maximum

/-- The fault of a cause. -/
def PaginationCause.fault (cause : PaginationCause) (param : String) : Fault :=
  ⟨.pagination, param, .paginationValue, cause.message⟩

/-- What a parameter says about a count. -/
inductive CountParam
  | unset
  | count (n : UInt64)
  | invalid (given : Json)

namespace CountParam

/-- What the value of a parameter says. -/
def ofValue : Option Json → CountParam
  | none | some .null => .unset
  | some (.string s) =>
    if Text.isBlankText s then .unset
    else
      match Text.count? (Text.trim s.toList) with
      | some n => .count n
      | none => .invalid (.string s)
  | some (.number number) =>
    match number.count? with
    | some n => .count n
    | none => .invalid (.number number)
  | some given => .invalid given

/-- The count, if there is one. -/
def count? : CountParam → Option UInt64
  | .count n => some n
  | _ => none

/-- The faults of a parameter: one, when its value is no count. -/
def faults (param : String) : CountParam → List Fault
  | .invalid given => [(PaginationCause.notACount param given).fault param]
  | _ => []

end CountParam

namespace Window

/-- A limit within the maximum, if there is one; a limit beyond it is a fault. -/
def boundedLimit (param : String) (maximum limit : Option UInt64) : Reading (Option UInt64) :=
  match limit, maximum with
  | some limit, some maximum =>
    if maximum < limit then ⟨none, [(PaginationCause.limitBeyond limit maximum).fault param]⟩
    else .clean (some limit)
  | limit, _ => .clean limit

/-- The window of a request. -/
def read (schema : Schema) (request : Request) : Reading Window :=
  let params := schema.params
  let limit := CountParam.ofValue (request.get? params.limit)
  let offset := CountParam.ofValue (request.get? params.offset)
  let bounded := boundedLimit params.limit schema.maxLimit limit.count?
  ⟨⟨bounded.output, offset.count?⟩,
    limit.faults params.limit ++ offset.faults params.offset ++ bounded.faults⟩

end Window

end ResourceQuery
