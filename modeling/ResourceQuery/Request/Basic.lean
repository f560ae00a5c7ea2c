import ResourceQuery.Json.Basic
import ResourceQuery.Request.KeyPath
import ResourceQuery.Text.Percent

/-!
# Requests

A request is a record of named parameters, each a JSON value, in the order in which they were
given. It comes as the query string of an address, or as a JSON object.

In a query string, pairs of a key and a value are written one after the other into the parameters.
A later write wins over an earlier one that it does not fit: a text replaces whatever is at its
place, an item (a key that ends in `[]`) is appended to a list or starts a new one, and a place
inside something that is no object makes it an object. Pairs with a key that names no place do not
count.

## Main definitions

* `Request`, `Request.get?`, `Request.set`.
* `Request.ofQuery`: the parameters of a query string.
* `Json.write`: the value at a place after a text is written there.
-/

namespace ResourceQuery

/-- The parameters of a request. -/
structure Request where
  params : List (String × Json)

/-- The value at a place after a text is written there: `old` is what was there before, and the
segments lead to the place. An empty last segment appends to a list. -/
def Json.write (old : Option Json) : List String → String → Json
  | [], v => .string v
  | segment :: rest, v =>
    if segment = "" ∧ rest = [] then
      match old with
      | some (.array items) => .array (items ++ [.string v])
      | _ => .array [.string v]
    else
      let members :=
        match old with
        | some (.object members) => members
        | _ => []
      .object (Entries.put members segment (Json.write (Entries.get? members segment) rest v))

namespace Request

/-- The request without a parameter. -/
def empty : Request := ⟨[]⟩

/-- The value of a parameter. -/
def get? (request : Request) (name : String) : Option Json :=
  Entries.get? request.params name

/-- Whether a parameter is given. -/
def contains (request : Request) (name : String) : Bool :=
  Entries.contains request.params name

/-- Whether no parameter is given. -/
def isEmpty (request : Request) : Bool :=
  request.params.isEmpty

/-- Sets a parameter, replacing the value it had. -/
def set (request : Request) (name : String) (v : Json) : Request :=
  ⟨Entries.put request.params name v⟩

/-- The parameters as one JSON object. -/
def toJson (request : Request) : Json :=
  .object request.params

/-! ### Query strings -/

/-- A part of a query string without its escapes: `+` is a space, and a part whose escapes do not
spell UTF-8 stays as it is. -/
def decodePart (part : List Char) : String :=
  let spaced := part.map fun c => if c = '+' then ' ' else c
  (Text.percentDecode? spaced).getD (String.ofList spaced)

/-- The key and the value of a pair; a pair without `=` has the empty value. -/
def splitPair (pair : List Char) : List Char × List Char :=
  (Text.cutFirst '=' pair).getD (pair, [])

/-- Writes a text at a place. -/
def write (request : Request) (path : KeyPath) (v : String) : Request :=
  request.set path.base (Json.write (request.get? path.base) path.segments v)

/-- Writes a pair of a query string. -/
def writePair (request : Request) (pair : List Char) : Request :=
  let (key, v) := splitPair pair
  match KeyPath.ofText? (decodePart key).toList with
  | some path => request.write path (decodePart v)
  | none => request

/-- The pairs of a query string, which may start with a question mark. Empty pairs do not
count. -/
def queryPairs (query : List Char) : List (List Char) :=
  let query := match query with | '?' :: rest => rest | _ => query
  (Text.splitOn '&' query).filter (· ≠ [])

/-- The parameters of a query string. -/
def ofQuery (query : String) : Request :=
  (queryPairs query.toList).foldl writePair empty

end Request

end ResourceQuery
