import ResourceQuery.Filter.Predicate
import ResourceQuery.Json.Writer
import ResourceQuery.Request.Basic
import ResourceQuery.Schema.Basic

/-!
# Reading the filters of a request

The filter parameter is an object with a member for each field, or a list of entries that name
their field. What is asked of a field has three forms:

* *tagged*: an object with a member `op` or `operator`, and the operand under `value`;
* *by operator*: any other object, each member an operator and its operand;
* *short*: anything else is the operand of `eq`.

Entries of a list are always tagged. Each operator entry has exactly one outcome, a predicate or a
fault, and the outcomes stand in the order of the entries.

## Main definitions

* `FilterCause`: the causes of faults.
* `Operand.read`: an operand in the shape of its operator, and of the declared type.
* `Predicate.read`: the outcome of an operator entry.
* `Filter.outcomes`, `Filter.read`: the outcomes of a request; its predicates and faults.
-/

namespace ResourceQuery

/-- Why a filter was refused. -/
inductive FilterCause
  | notFilterable (field : String)
  | operatorNotText
  | unknownOperator (token : String)
  | notAllowed (op : Operator) (field : String)
  | noOperand (op : Operator)
  | notAList (op : Operator)
  | notAPair (op : Operator)
  | notAText (op : Operator)
  | notAScalar (given : Json)
  | notOfType (given : Json) (type : ScalarType)
  /-- An entry of a list without its field or its operator. -/
  | entry (given : Json)
  /-- The parameter is neither an object nor a list. -/
  | parameter (given : Json)

namespace FilterCause

/-- The kind of fault that a cause makes. -/
def kind : FilterCause → FaultKind
  | .notFilterable _ => .unknownField
  | .operatorNotText | .unknownOperator _ | .notAllowed _ _ => .filterOperator
  | _ => .filterValueShape

/-- The message about a cause. -/
def message : FilterCause → String
  | .notFilterable field => s!"`{field}` is not filterable"
  | .operatorNotText => "filter operator must be a string"
  | .unknownOperator token => Operator.unknownMessage token
  | .notAllowed op field => "operator `" ++ op.name ++ "` is not allowed for `" ++ field ++ "`"
  | .noOperand op => "`" ++ op.name ++ "` filter has no value"
  | .notAList op => "`" ++ op.name ++ "` expects a non-empty list"
  | .notAPair op => "`" ++ op.name ++ "` expects exactly two values"
  | .notAText op => "`" ++ op.name ++ "` expects a string"
  | .notAScalar given => "`" ++ given.compact ++ "` is not a supported scalar value"
  | .notOfType given type => given.compact ++ " is not a valid " ++ type.name
  | .entry given => "expected \x7bfield, op, value\x7d, got " ++ given.compact
  | .parameter given => "expected a filter object or list, got " ++ given.compact

/-- The fault of a cause, about a field or a parameter. -/
def fault (cause : FilterCause) (field : String) : Fault :=
  ⟨.filtering, field, cause.kind, cause.message⟩

end FilterCause

/-! ### Operands -/

/-- A scalar of the declared type, if one is declared. -/
def Scalar.read (type : Option ScalarType) (given : Json) : Except FilterCause Scalar :=
  match Scalar.ofJson? given with
  | none => .error (.notAScalar given)
  | some v =>
    match type with
    | none => .ok v
    | some type =>
      match v.coerce? type with
      | some v => .ok v
      | none => .error (.notOfType given type)

/-- A list of scalars of the declared type; the first one that is none is the failure. -/
def Scalar.readAll (type : Option ScalarType) : List Json → Except FilterCause (List Scalar)
  | [] => .ok []
  | given :: rest =>
    match Scalar.read type given with
    | .error e => .error e
    | .ok v =>
      match Scalar.readAll type rest with
      | .error e => .error e
      | .ok vs => .ok (v :: vs)

/-- An operand in the shape of its operator. The text of `contains` is taken as it is, whatever
type is declared; all other scalars are of the declared type. -/
def Operand.read (op : Operator) (type : Option ScalarType) (given : Json) :
    Except FilterCause Operand :=
  match op.shape, given with
  | .list, .array (item :: items) => (Scalar.readAll type (item :: items)).map .list
  | .list, _ => .error (.notAList op)
  | .pair, .array [first, last] =>
    match Scalar.read type first, Scalar.read type last with
    | .ok a, .ok b => .ok (.range a b)
    | .error e, _ => .error e
    | .ok _, .error e => .error e
  | .pair, _ => .error (.notAPair op)
  | .text, .string s => .ok (.scalar (.string s))
  | .text, _ => .error (.notAText op)
  | .any, .array items => (Scalar.readAll type items).map .list
  | .any, given => (Scalar.read type given).map .scalar

/-! ### Entries -/

/-- The predicate of an operator entry: the field can be filtered by, the token is an operator that
its rule allows, and the operand is there and fits; checked in this order. -/
def Predicate.readEntry (schema : Schema) (field token : String) (given : Option Json) :
    Except FilterCause Predicate :=
  match schema.filterRule? field with
  | none => .error (.notFilterable field)
  | some rule =>
    match Operator.ofToken? token with
    | none => .error (.unknownOperator token)
    | some op =>
      if !rule.allows op then .error (.notAllowed op field)
      else
        match given with
        | none => .error (.noOperand op)
        | some given => (Operand.read op rule.type given).map fun operand => ⟨field, op, operand⟩

namespace Filter

/-- What comes of an operator entry. -/
abbrev Outcome := Except Fault Predicate

/-- The outcome of an operator entry; its fault is about the field. -/
def entryOutcome (schema : Schema) (field token : String) (given : Option Json) : Outcome :=
  (Predicate.readEntry schema field token given).mapError fun cause => cause.fault field

/-- The operator of a tagged form: the member `op`, or else `operator`. -/
def tag? (members : List (String × Json)) : Option Json :=
  (Entries.get? members "op").or (Entries.get? members "operator")

/-- The outcome of a tagged form whose operator is this value. -/
def taggedOutcome (schema : Schema) (field : String) (tag : Json) (members : List (String × Json)) :
    Outcome :=
  match tag with
  | .string token => entryOutcome schema field token (Entries.get? members "value")
  | _ => .error (FilterCause.operatorNotText.fault field)

/-- The outcomes of what is asked of a field. -/
def fieldOutcomes (schema : Schema) (field : String) : Json → List Outcome
  | .object members =>
    match tag? members with
    | some tag => [taggedOutcome schema field tag members]
    | none => members.map fun (token, given) => entryOutcome schema field token (some given)
  | given => [entryOutcome schema field "eq" (some given)]

/-- The outcome of an entry of a list. -/
def listOutcome (schema : Schema) (param : String) (entry : Json) : Outcome :=
  match entry with
  | .object members =>
    match Entries.get? members "field", tag? members with
    | some (.string field), some tag => taggedOutcome schema field tag members
    | _, _ => .error ((FilterCause.entry entry).fault param)
  | _ => .error ((FilterCause.entry entry).fault param)

/-- The outcomes of the filter parameter. -/
def outcomes (schema : Schema) (param : String) : Option Json → List Outcome
  | none | some .null => []
  | some (.object fields) => fields.flatMap fun (field, asked) => fieldOutcomes schema field asked
  | some (.array entries) => entries.map (listOutcome schema param)
  | some given => [.error ((FilterCause.parameter given).fault param)]

/-- The predicate of an outcome. -/
def predicate? : Outcome → Option Predicate
  | .ok p => some p
  | .error _ => none

/-- The fault of an outcome. -/
def fault? : Outcome → Option Fault
  | .ok _ => none
  | .error fault => some fault

/-- The predicates of a request, with its faults. -/
def read (schema : Schema) (request : Request) : Reading (List Predicate) :=
  let param := schema.params.filter
  let outcomes := outcomes schema param (request.get? param)
  ⟨outcomes.filterMap predicate?, outcomes.filterMap fault?⟩

end Filter

end ResourceQuery
