import ResourceQuery.Json.Basic
import ResourceQuery.Schema.FieldTree
import ResourceQuery.Text.Split

/-!
# Selections

A selection is a tree of fields. At each level a name occurs once, and the fields stand in the
order in which they were first asked for. Only the atomic fields of the topmost level become
columns; nested fields structure the answer.

## Main definitions

* `FieldNode`, `Selection`.
* `Selection.insert`: asking for one more path.
* `Selection.node?`, `Selection.fieldsOf`: the field at a path, and the fields below it.
* `Selection.columns`: the atomic fields of the topmost level.
-/

namespace ResourceQuery

/-- A selected field with the selected fields below it. -/
structure FieldNode where
  name : String
  kind : FieldKind
  children : List FieldNode

/-- The selected fields of the topmost level. -/
structure Selection where
  fields : List FieldNode

namespace FieldNode

/-- Whether the field is a value. -/
def isAtomic (node : FieldNode) : Bool :=
  node.kind = .atomic

/-- Changes the fields below the first field of a name; appends the field, if there is none. -/
def update (name : String) (kind : FieldKind) (change : List FieldNode → List FieldNode) :
    List FieldNode → List FieldNode
  | [] => [⟨name, kind, change []⟩]
  | node :: nodes =>
    if node.name = name then { node with children := change node.children } :: nodes
    else node :: update name kind change nodes

/-- Adds the fields of a path to a level, sharing what is there already. -/
def insert : List (String × FieldKind) → List FieldNode → List FieldNode
  | [], level => level
  | (name, kind) :: rest, level => update name kind (insert rest) level

/-- The field that a list of names leads to. -/
def find? : List FieldNode → List String → Option FieldNode
  | _, [] => none
  | level, [name] => level.find? fun node => node.name = name
  | level, name :: rest =>
    match level.find? fun node => node.name = name with
    | some node => find? node.children rest
    | none => none

mutual

/-- The JSON form of a field. A field with nothing below it has no list of children. -/
def toJson : FieldNode → Json
  | ⟨name, kind, []⟩ => .object [("name", .string name), ("kind", .string kind.name)]
  | ⟨name, kind, child :: children⟩ =>
    .object
      [("name", .string name), ("kind", .string kind.name),
        ("children", .array (toJson child :: listToJson children))]

/-- The JSON forms of fields. -/
def listToJson : List FieldNode → List Json
  | [] => []
  | node :: nodes => toJson node :: listToJson nodes

end

end FieldNode

namespace Selection

/-- The selection of nothing. -/
def empty : Selection := ⟨[]⟩

/-- The selection with one more path. -/
def insert (selection : Selection) (path : List (String × FieldKind)) : Selection :=
  ⟨FieldNode.insert path selection.fields⟩

/-- Whether nothing is selected. -/
def isEmpty (selection : Selection) : Bool :=
  selection.fields.isEmpty

/-- The names on a full path such as `$.address.city`. -/
def pathNames? (path : String) : Option (List String) :=
  match path.toList with
  | '$' :: '.' :: rest => some ((Text.splitOn '.' rest).map String.ofList)
  | _ => none

/-- The selected field at a full path. -/
def node? (selection : Selection) (path : String) : Option FieldNode :=
  (pathNames? path).bind (FieldNode.find? selection.fields)

/-- The selected fields in a namespace. -/
def fieldsOf (selection : Selection) (space : String) : List FieldNode :=
  if space = rootNamespace then selection.fields
  else ((selection.node? space).map (·.children)).getD []

/-- The names of the atomic fields of the topmost level. -/
def columns (selection : Selection) : List String :=
  (selection.fields.filter FieldNode.isAtomic).map (·.name)

/-- The JSON form of a selection. -/
def toJson (selection : Selection) : Json :=
  .array (FieldNode.listToJson selection.fields)

end Selection

end ResourceQuery
