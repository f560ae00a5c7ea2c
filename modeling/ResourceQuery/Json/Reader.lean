import ResourceQuery.Json.Token

/-!
# Reading JSON

Tokens are read one by one by a machine with a stack: one entry for each array or object that is
open, holding what it contains so far. A state says what may come next, so every text has one
outcome and reading needs no bound on its depth.

What comes out is a `Json.Tree`, the text's structure with its numbers and strings as they are
written. A tree has a value when all of its numbers and strings have one and it is nested at most
`Json.nestingLimit` deep. Parts of a document that nobody looks at only have to be trees.

## Main definitions

* `Json.Tree`, `Json.Tree.ofText?`: the structure of a text.
* `Json.Tree.depth`, `Json.Tree.value?`: how deep a tree is nested, and its value.
* `Json.parse?`: the value of a text.
-/

namespace ResourceQuery.Json

/-- The structure of a JSON text. Member names are kept as they are written, like all strings. -/
inductive Tree
  | null
  | bool (value : Bool)
  | number (numeral : Numeral)
  | string (pieces : List Piece)
  | array (items : List Tree)
  | object (members : List (List Piece × Tree))

/-- An array or object that is open: what it holds so far, the latest first, and for an object the
name of the member whose value is being read. -/
inductive Frame
  | array (before : List Tree)
  | object (before : List (List Piece × Tree)) (name : List Piece)

/-- What has been read, and what may come next. -/
inductive ReadState
  /-- A value must come. -/
  | value (stack : List Frame)
  /-- An array has just been opened: its first item, or its end. -/
  | arrayStart (stack : List Frame)
  /-- An object has just been opened: its first name, or its end. -/
  | objectStart (stack : List Frame)
  /-- A member name must come. -/
  | memberName (before : List (List Piece × Tree)) (stack : List Frame)
  /-- The colon behind a member name must come. -/
  | colon (before : List (List Piece × Tree)) (name : List Piece) (stack : List Frame)
  /-- A value is complete: a comma, the end of what it stands in, or the end of the text. -/
  | complete (value : Tree) (stack : List Frame)

/-- The state after the first token of a value. -/
def beginValue? (stack : List Frame) : Token → Option ReadState
  | .null => some (.complete .null stack)
  | .bool b => some (.complete (.bool b) stack)
  | .number n => some (.complete (.number n) stack)
  | .string s => some (.complete (.string s) stack)
  | .arrayStart => some (.arrayStart stack)
  | .objectStart => some (.objectStart stack)
  | _ => none

/-- The state after one more token; none when the token cannot come here. -/
def ReadState.step? : ReadState → Token → Option ReadState
  | .value stack, token => beginValue? stack token
  | .arrayStart stack, .arrayEnd => some (.complete (.array []) stack)
  | .arrayStart stack, token => beginValue? (.array [] :: stack) token
  | .objectStart stack, .objectEnd => some (.complete (.object []) stack)
  | .objectStart stack, .string key => some (.colon [] key stack)
  | .memberName before stack, .string key => some (.colon before key stack)
  | .colon before key stack, .colon => some (.value (.object before key :: stack))
  | .complete v (.array before :: stack), .comma => some (.value (.array (v :: before) :: stack))
  | .complete v (.array before :: stack), .arrayEnd =>
    some (.complete (.array (v :: before).reverse) stack)
  | .complete v (.object before key :: stack), .comma =>
    some (.memberName ((key, v) :: before) stack)
  | .complete v (.object before key :: stack), .objectEnd =>
    some (.complete (.object ((key, v) :: before).reverse) stack)
  | _, _ => none

/-- The tree of a list of tokens that spell one value. -/
def Tree.ofTokens? (tokens : List Token) : Option Tree :=
  match tokens.foldlM ReadState.step? (.value []) with
  | some (.complete tree []) => some tree
  | _ => none

/-- The tree of a text. -/
def Tree.ofText? (text : String) : Option Tree :=
  (tokens? text.toList).bind Tree.ofTokens?

/-! ### The value of a tree -/

/-- How many arrays and objects may be open at once. -/
def nestingLimit : Nat := 127

mutual

/-- How deep arrays and objects are nested. -/
def Tree.depth : Tree → Nat
  | .array items => 1 + itemsDepth items
  | .object members => 1 + membersDepth members
  | _ => 0

/-- The depth of the deepest item. -/
def itemsDepth : List Tree → Nat
  | [] => 0
  | item :: items => max item.depth (itemsDepth items)

/-- The depth of the deepest member. -/
def membersDepth : List (List Piece × Tree) → Nat
  | [] => 0
  | (_, v) :: members => max v.depth (membersDepth members)

end

mutual

/-- The value of a tree, if its numbers and strings have one. A name that an object repeats keeps
its first place and takes its last value. -/
def Tree.content? : Tree → Option Json
  | .null => some .null
  | .bool b => some (.bool b)
  | .number n => n.number?.map .number
  | .string pieces => (text? pieces).map .string
  | .array items => (itemsContent? items).map .array
  | .object members => (membersContent? members).map fun writes => .object (Entries.ofWrites writes)

/-- The values of the items. -/
def itemsContent? : List Tree → Option (List Json)
  | [] => some []
  | item :: items =>
    match item.content?, itemsContent? items with
    | some v, some vs => some (v :: vs)
    | _, _ => none

/-- The names and values of the members, repeated names included. -/
def membersContent? : List (List Piece × Tree) → Option (List (String × Json))
  | [] => some []
  | (name, v) :: members =>
    match text? name, v.content?, membersContent? members with
    | some name, some v, some rest => some ((name, v) :: rest)
    | _, _, _ => none

end

/-- The value of a tree that is not nested too deep. -/
def Tree.value? (tree : Tree) : Option Json :=
  if tree.depth ≤ nestingLimit then tree.content? else none

/-- The value of a JSON text. -/
def parse? (text : String) : Option Json :=
  (Tree.ofText? text).bind Tree.value?

end ResourceQuery.Json
