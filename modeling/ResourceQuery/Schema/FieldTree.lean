import ResourceQuery.Schema.Definition

/-!
# The tree of declared fields

Declared fields are looked up by their full paths, such as `$.address.city`, where `$` is the
namespace of the resource itself. The tree is an index from paths to the names of the fields below
them. A field is nested when fields are declared below it, and atomic otherwise, so an empty list
of children makes an atomic field.

Declaring fails at the first declaration, reading from the top and children right after their
parent, whose name is not valid or whose path is already taken.

## Main definitions

* `FieldKind`, `FieldTree`.
* `FieldTree.ofDeclarations`, with its failures `FieldError`.
* `FieldTree.kind?`, `FieldTree.children`: what is declared at a path.
-/

namespace ResourceQuery

/-- Whether a field is a value or groups other fields. -/
inductive FieldKind
  | atomic
  | nested
deriving DecidableEq

/-- The name of a kind in specifications. -/
def FieldKind.name : FieldKind → String
  | .atomic => "atomic"
  | .nested => "nested"

/-- The namespace of the resource itself. -/
def rootNamespace : String := "$"

/-- The path of a field in a namespace. -/
def joinPath (space name : String) : String :=
  space ++ "." ++ name

/-- The longest name of a field, in bytes of UTF-8. -/
def fieldNameLimit : Nat := 128

/-- The characters that paths and selections are written with. -/
def isPathChar (c : Char) : Bool :=
  c = '.' || c = ',' || c = '{' || c = '}' || c = '$'

/-- A field name is not empty, not too long, and has no blank and no character that paths and
selections are written with. -/
def isFieldName (name : String) : Bool :=
  name ≠ "" && name.utf8ByteSize ≤ fieldNameLimit &&
    !name.toList.any fun c => Text.isBlank c || isPathChar c

/-- Why fields cannot be declared. -/
inductive FieldError
  | invalidName (name : String)
  | duplicate (path : String)
deriving DecidableEq

/-- The declared fields. -/
structure FieldTree where
  /-- The names of the fields below each path, the namespace of the resource first. -/
  index : Entries (List String)

namespace FieldTree

/-- The tree without fields. -/
def empty : FieldTree := ⟨[(rootNamespace, [])]⟩

/-- The names of the fields in a namespace, in the order of their declaration. -/
def children (tree : FieldTree) (space : String) : List String :=
  (tree.index.get? space).getD []

/-- The kind of the field at a path; none when no field is declared there. -/
def kind? (tree : FieldTree) (path : String) : Option FieldKind :=
  if path = rootNamespace then none
  else (tree.index.get? path).map fun names => if names.isEmpty then .atomic else .nested

/-- Whether a field is declared at a path. -/
def contains (tree : FieldTree) (path : String) : Bool :=
  (tree.kind? path).isSome

/-- The number of declared fields. -/
def size (tree : FieldTree) : Nat :=
  tree.index.length - 1

/-- The tree with a field of this name in a namespace. -/
def add (tree : FieldTree) (space name : String) : FieldTree :=
  ⟨(tree.index.put (joinPath space name) []).put space (tree.children space ++ [name])⟩

/-- Declares a field without looking below it. -/
def declareName (tree : FieldTree) (space name : String) : Except FieldError FieldTree :=
  if !isFieldName name then .error (.invalidName name)
  else if (tree.index.get? (joinPath space name)).isSome then
    .error (.duplicate (joinPath space name))
  else .ok (tree.add space name)

mutual

/-- Declares a field and the fields below it. -/
def declare (tree : FieldTree) (space : String) : FieldDeclaration → Except FieldError FieldTree
  | .atomic name => tree.declareName space name
  | .nested name children =>
    match tree.declareName space name with
    | .ok tree => tree.declareAll (joinPath space name) children
    | .error e => .error e

/-- Declares fields one after the other. -/
def declareAll (tree : FieldTree) (space : String) :
    List FieldDeclaration → Except FieldError FieldTree
  | [] => .ok tree
  | declaration :: rest =>
    match tree.declare space declaration with
    | .ok tree => tree.declareAll space rest
    | .error e => .error e

end

/-- The tree of all declarations. -/
def ofDeclarations (declarations : List FieldDeclaration) : Except FieldError FieldTree :=
  empty.declareAll rootNamespace declarations

end FieldTree

end ResourceQuery
