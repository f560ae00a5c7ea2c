import ResourceQuery.Json.Writer
import ResourceQuery.Request.Basic
import ResourceQuery.Schema.Basic
import ResourceQuery.Selection.Basic
import ResourceQuery.Selection.Expression

/-!
# Reading the selection of a request

The selection parameter is an expression or a list of expressions. Each expression that is well
written contributes its paths, as far as the schema declares them; a path on which some field is
not declared is passed over, since a resource may drop fields without breaking its clients. Each
expression that is not well written is a fault.

## Main definitions

* `SelectionCause`: the causes of faults.
* `Selection.read`: the selection of a request, with its faults.
-/

namespace ResourceQuery

/-- Why a selection, or a part of it, was refused. -/
inductive SelectionCause
  | expression (error : SelectionError)
  /-- An item of the list is no text. -/
  | item (given : Json)
  /-- The parameter is neither a text nor a list. -/
  | parameter (given : Json)

/-- The message about a cause. -/
def SelectionCause.message : SelectionCause → String
  | .expression error => error.message
  | .item given => "expected a field path, got " ++ given.compact
  | .parameter given => "expected a field selection string or list, got " ++ given.compact

/-- The fault of a cause. -/
def SelectionCause.fault (cause : SelectionCause) (param : String) : Fault :=
  ⟨.selection, param, .fieldSelection, cause.message⟩

namespace Selection

/-- The kinds of the fields on a path below a namespace, if all of them are declared. -/
def resolve? (tree : FieldTree) (space : String) : List String → Option (List (String × FieldKind))
  | [] => some []
  | name :: rest =>
    match tree.kind? (joinPath space name), resolve? tree (joinPath space name) rest with
    | some kind, some kinds => some ((name, kind) :: kinds)
    | _, _ => none

/-- Adds a path to a selection, if it is declared. -/
def insertDeclared (tree : FieldTree) (selection : Selection) (path : List String) : Selection :=
  match resolve? tree rootNamespace path with
  | some resolved => selection.insert resolved
  | none => selection

/-- The paths of an expression; when it is not well written, none and the fault. -/
def readExpression (param : String) (expression : String) : Reading (List (List String)) :=
  match Expression.paths expression with
  | .ok paths => .clean paths
  | .error e => ⟨[], [(SelectionCause.expression e).fault param]⟩

/-- The paths of an item of a list. -/
def readItem (param : String) : Json → Reading (List (List String))
  | .string expression => readExpression param expression
  | given => ⟨[], [(SelectionCause.item given).fault param]⟩

/-- The paths that the parameter asks for, declared or not. -/
def readPaths (param : String) : Option Json → Reading (List (List String))
  | none | some .null => .clean []
  | some (.string expression) => readExpression param expression
  | some (.array items) =>
    ⟨items.flatMap fun item => (readItem param item).output,
      items.flatMap fun item => (readItem param item).faults⟩
  | some given => ⟨[], [(SelectionCause.parameter given).fault param]⟩

/-- The selection of a request. -/
def read (schema : Schema) (request : Request) : Reading Selection :=
  let paths := readPaths schema.params.select (request.get? schema.params.select)
  ⟨paths.output.foldl (insertDeclared schema.fields) empty, paths.faults⟩

end Selection

end ResourceQuery
