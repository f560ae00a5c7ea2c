import ResourceQuery.Json.Writer
import ResourceQuery.Request.Basic
import ResourceQuery.Schema.Basic

/-!
# The search of a request

A search looks for a text in the fields that a target stands for. A target is a field of its own
or a named set of fields that a resource declares.

The search parameter is the text to look for, or an object with the members `value` and `target`
(or `condition`). A blank value asks for no search. A request that names no target searches the
default target of the schema. The value is kept as it was sent.

## Main definitions

* `SearchTerm`, `SearchTerm.isNoop`.
* `SearchCause`: the causes of faults.
* `SearchTerm.resolve`: the search for a value in a target.
* `SearchTerm.read`: the search of a request, with its faults.
-/

namespace ResourceQuery

/-- A search for a text. -/
structure SearchTerm where
  /-- The name of the target. -/
  target : String
  /-- The fields that the target stands for. -/
  fields : List String
  value : String
deriving DecidableEq

namespace SearchTerm

/-- Whether a part that every search needs is empty. -/
def isNoop (term : SearchTerm) : Bool :=
  term.target = "" || term.fields.isEmpty || term.value = ""

/-- The JSON form of a search. -/
def toJson (term : SearchTerm) : Json :=
  .object
    [("target", .string term.target), ("fields", Json.ofStrings term.fields),
      ("value", .string term.value)]

end SearchTerm

/-! ### Reading searches -/

/-- Why a search was refused. -/
inductive SearchCause
  | noTarget
  | unknownTarget (target : String)
  | targetNotText (given : Json)
  | valueNotText (given : Json)
  /-- The parameter is neither a text nor an object. -/
  | parameter (given : Json)

/-- The message about a cause. -/
def SearchCause.message : SearchCause → String
  | .noTarget => "search has no target and the resource declares no default"
  | .unknownTarget target => s!"`{target}` is not a search target"
  | .targetNotText given => "search target must be a string, got " ++ given.compact
  | .valueNotText given => "search value must be text, got " ++ given.compact
  | .parameter given => "expected a search string or object, got " ++ given.compact

/-- The fault of a cause, about a target or the parameter. -/
def SearchCause.fault (cause : SearchCause) (field : String) : Fault :=
  ⟨.search, field, .searchTarget, cause.message⟩

namespace SearchTerm

/-- The reading of a parameter that was refused. -/
def refused (fault : Fault) : Reading (Option SearchTerm) :=
  ⟨none, [fault]⟩

/-- The target that is searched: the one that is named, unless that is blank, or else the default
one. -/
def targetOf? (schema : Schema) (named : Option String) : Option String :=
  ((named.map Text.trimmed).filter (· ≠ "")).or schema.defaultTarget

/-- The search for a value in a target. A blank value asks for no search, whatever the target. -/
def resolve (schema : Schema) (named : Option String) (value : String) :
    Reading (Option SearchTerm) :=
  if Text.isBlankText value then .clean none
  else
    match targetOf? schema named with
    | none => refused (SearchCause.noTarget.fault schema.params.search)
    | some target =>
      match schema.searchTarget? target with
      | some fields => .clean (some ⟨target, fields, value⟩)
      | none => refused ((SearchCause.unknownTarget target).fault target)

/-- The target member of an object: `target`, or else `condition`. -/
def targetMember? (members : List (String × Json)) : Option Json :=
  (Entries.get? members "target").or (Entries.get? members "condition")

/-- The search for the value member of an object. Numbers and truth values are their JSON text. -/
def ofValueMember (schema : Schema) (named : Option String) : Option Json →
    Reading (Option SearchTerm)
  | none | some .null => .clean none
  | some (.string value) => resolve schema named value
  | some (.number n) => resolve schema named (Json.number n).compact
  | some (.bool b) => resolve schema named (Json.bool b).compact
  | some given => refused ((SearchCause.valueNotText given).fault (named.getD schema.params.search))

/-- The search that an object asks for. -/
def ofObject (schema : Schema) (members : List (String × Json)) : Reading (Option SearchTerm) :=
  match targetMember? members with
  | none | some .null => ofValueMember schema none (Entries.get? members "value")
  | some (.string target) => ofValueMember schema (some target) (Entries.get? members "value")
  | some given => refused ((SearchCause.targetNotText given).fault schema.params.search)

/-- The search of a request. -/
def read (schema : Schema) (request : Request) : Reading (Option SearchTerm) :=
  match request.get? schema.params.search with
  | none | some .null => .clean none
  | some (.string value) => resolve schema none value
  | some (.object members) => ofObject schema members
  | some given => refused ((SearchCause.parameter given).fault schema.params.search)

end SearchTerm

end ResourceQuery
