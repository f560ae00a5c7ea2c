import ResourceQuery.Json.Reader
import ResourceQuery.Request.Basic

/-!
# Requests in the JSON form

In the JSON form the parameters of a request are the members of one object. A client sends it as a
text, or builds it step by step under the usual parameter names; then filters and orderings are
written in their object forms.

## Main definitions

* `Request.ofJson`: the parameters of a JSON text, with the failures `BodyError`.
* `Request.withSelect`, `Request.withFilter` and so on: one more parameter.
-/

namespace ResourceQuery

/-- Why a JSON text is no request. -/
inductive BodyError
  | invalidJson
  | notAnObject
deriving DecidableEq

/-- What is wrong with a JSON text, for people. -/
def BodyError.message : BodyError → String
  | .invalidJson => "invalid JSON request body"
  | .notAnObject => "request parameters must be a JSON object"

namespace Request

/-- The request that a JSON value is. -/
def ofValue : Json → Except BodyError Request
  | .object members => .ok ⟨members⟩
  | _ => .error .notAnObject

/-- The request that a JSON text is. -/
def ofJson (body : String) : Except BodyError Request :=
  match Json.parse? body with
  | some v => ofValue v
  | none => .error .invalidJson

/-! ### Step by step -/

/-- Asks for the fields of a selection expression. -/
def withSelect (request : Request) (expression : String) : Request :=
  request.set "select" (.string expression)

/-- Asks for a filter, in the tagged form; a filter on the same field is replaced. Nothing changes
when the filter parameter is there and no object. -/
def withFilter (request : Request) (field op : String) (v : Json) : Request :=
  let tagged := Json.object [("op", .string op), ("value", v)]
  match request.get? "filter" with
  | none => request.set "filter" (.object [(field, tagged)])
  | some (.object fields) => request.set "filter" (.object (Entries.put fields field tagged))
  | some _ => request

/-- Asks for a limit. -/
def withLimit (request : Request) (limit : Json) : Request :=
  request.set "limit" limit

/-- Asks for an offset. -/
def withOffset (request : Request) (offset : Json) : Request :=
  request.set "offset" offset

/-- Asks for an ordering. -/
def withSort (request : Request) (field direction : String) : Request :=
  request.set "sort" (.object [("field", .string field), ("dir", .string direction)])

/-- Asks for a search in a target. -/
def withSearch (request : Request) (target value : String) : Request :=
  request.set "search" (.object [("target", .string target), ("value", .string value)])

end Request

end ResourceQuery
