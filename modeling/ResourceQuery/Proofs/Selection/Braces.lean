import ResourceQuery.Proofs.Selection.Recognition
import ResourceQuery.Proofs.Selection.Tree
import ResourceQuery.Sample

/-!
# The brace expression of a selection

A selection can be written as one expression that selects exactly it: the fields of a level stand
between commas, and a field with fields below it is followed by them in braces. Reading such an
expression gives the paths of the leaves of the selection, in pre-order, and these grow the
selection again.

The names of a selection are declared, so they have no character that expressions are written with.
That is what makes the text of a level a sequence of the grammar (`FieldNode.Declared.sequence`);
the rest is known of the grammar and of the tree.

## Main definitions

* `FieldNode.expression`, `Selection.expression`: the text of a field, and of a selection.

## Main statements

* `Selection.paths_expression`: what the text of a selection is read as.
* `Selection.read_expression`: the text of a selection selects it.
-/

namespace ResourceQuery

namespace FieldNode

/-! ### The text of a selection -/

mutual

/-- A field as text: its name, with the fields below it in braces. -/
def expression : FieldNode → List Char
  | ⟨name, _, children⟩ => name.toList ++ group children

/-- The fields below a field, in braces; nothing, if there are none. -/
def group : List FieldNode → List Char
  | [] => []
  | child :: children => '{' :: (expression child ++ followers children ++ ['}'])

/-- The fields of a level behind the first one, each after a comma. -/
def followers : List FieldNode → List Char
  | [] => []
  | node :: nodes => ',' :: (expression node ++ followers nodes)

end

/-- The fields of a level as text. -/
def levelExpression (level : List FieldNode) : List Char :=
  [','].intercalate (level.map expression)

/-- The expression of a level is that of its first node, and the others behind it. -/
theorem levelExpression_cons (node : FieldNode) (nodes : List FieldNode) :
    levelExpression (node :: nodes) = node.expression ++ followers nodes := by
  induction nodes generalizing node with
  | nil => simp [levelExpression, followers]
  | cons next nodes ih =>
      have hnext := ih next
      rw [levelExpression, List.map_cons] at hnext
      rw [levelExpression, List.map_cons, List.map_cons, List.intercalate_cons_cons, hnext,
        followers]
      simp

/-- The expression of a node is its name, with its children in braces if it has any. -/
theorem expression_eq (node : FieldNode) :
    node.expression = if node.children = [] then node.name.toList
      else node.name.toList ++ '{' :: (levelExpression node.children ++ ['}']) := by
  obtain ⟨name, kind, children⟩ := node
  cases children with
  | nil => simp [expression, group]
  | cons child children => simp [expression, group, levelExpression_cons]

end FieldNode

namespace Expression

/-- A valid field name is a name of the grammar. -/
theorem isName_of_isFieldName {name : String} (h : isFieldName name = true) :
    IsName name.toList := by
  have hblank : ∀ c ∈ name.toList, Text.isBlank c = false := fun c hc => (of_mem_isFieldName h hc).1
  refine ⟨toList_ne_nil_of_isFieldName h, fun c hc => ?_, fun c hc => ?_, fun c hc => ?_⟩
  · have hchar : isPathChar c = false := (of_mem_isFieldName h hc).2
    refine ⟨?_, ?_, ?_⟩ <;> rintro rfl <;> exact absurd hchar (by decide)
  · exact hblank c (List.mem_of_mem_head? hc)
  · exact hblank c (List.mem_of_mem_getLast? hc)

/-- A valid field name means the path of itself, inside any group. -/
theorem means_of_isFieldName {name : String} (h : isFieldName name = true) (group : Path) :
    Means group name.toList [name] := by
  have hpath : IsPath [name] := by
    refine ⟨by simp, List.forall_mem_singleton.mpr ⟨?_, dot_notMem_of_isFieldName h⟩⟩
    rintro rfl
    exact toList_ne_nil_of_isFieldName h rfl
  have hroot : ¬(group = [] ∧ [name].head? = some "$") := by
    rintro ⟨-, hname⟩
    obtain rfl := Option.some.inj hname
    exact absurd h (by decide)
  have hmeans := Means.plain hpath hroot
  simpa [dotted] using hmeans

end Expression

namespace FieldNode

open Expression (Item Sequence AllBlank)

/-- The paths of leaves below a group. -/
def pathsBelow (group : Expression.Path) (leaves : List (List (String × FieldKind))) :
    List Expression.Path :=
  leaves.map fun leaf => group ++ leaf.map (·.1)

/-- No characters are all blank. -/
theorem allBlank_nil : AllBlank [] :=
  fun _ hc => absurd hc List.not_mem_nil

/-- A field is an item of the grammar, if the level below it is a sequence. -/
theorem item_expression {node : FieldNode} {group : Expression.Path}
    (hname : isFieldName node.name = true)
    (hchildren : Sequence (group ++ [node.name]) (levelExpression node.children)
      (pathsBelow (group ++ [node.name]) (levelLeaves node.children))) :
    Item group node.expression (pathsBelow group node.leaves) := by
  have hisName := Expression.isName_of_isFieldName hname
  have hmeans := Expression.means_of_isFieldName hname group
  rw [expression_eq, leaves_eq]
  split
  · have hitem := Item.name allBlank_nil hisName hmeans allBlank_nil
    simpa [pathsBelow] using hitem
  · have hitem := Item.group allBlank_nil hisName hmeans allBlank_nil hchildren allBlank_nil
    simpa [pathsBelow, Function.comp_def] using hitem

/-- **The text of a declared level is a sequence of the grammar**, which stands for the paths of the
leaves. -/
theorem Declared.sequence {d : Definition} {schema : Schema}
    (hd : Schema.ofDefinition d = .ok schema) {space : String} {level : List FieldNode}
    (h : Declared schema.fields space level) : ∀ group : Expression.Path,
    Sequence group (levelExpression level) (pathsBelow group (levelLeaves level)) := by
  induction h with
  | nil => exact fun _ => .single (.blank allBlank_nil)
  | @cons space node nodes hkind hdot _ _ _ ihchildren ihnodes =>
      intro group
      have hitem : Item group node.expression (pathsBelow group node.leaves) :=
        item_expression (Schema.isFieldName_of_kind? hd hkind hdot) (ihchildren _)
      cases nodes with
      | nil => simpa [levelExpression, levelLeaves] using Sequence.single hitem
      | cons next nodes =>
          have hcons := Sequence.cons hitem (ihnodes group)
          simpa [levelExpression, levelLeaves, pathsBelow, List.intercalate_cons_cons] using hcons

end FieldNode

namespace Selection

/-- A selection as an expression. -/
def expression (selection : Selection) : String :=
  String.ofList (FieldNode.levelExpression selection.fields)

/-- The text of a declared selection is read as the paths of its leaves. -/
theorem paths_expression {d : Definition} {schema : Schema} {selection : Selection}
    (hd : Schema.ofDefinition d = .ok schema)
    (h : FieldNode.Declared schema.fields rootNamespace selection.fields) :
    Expression.paths selection.expression = .ok selection.paths := by
  refine Expression.paths_of_sequence ?_
  rw [expression, String.toList_ofList]
  exact h.sequence hd []

/-- **The text of a selection selects exactly it.** A request whose selection parameter is the text
of what another request selects, selects the same, and is not at fault. -/
theorem read_expression {d : Definition} {schema : Schema} {request again : Request}
    (hd : Schema.ofDefinition d = .ok schema)
    (h : again.get? schema.params.select
      = some (.string (read schema request).output.expression)) :
    read schema again = .clean (read schema request).output := by
  have hdeclared := declared_read schema request
  rw [read, h, readPaths, readExpression, paths_expression hd hdeclared]
  simp [Reading.clean, foldl_paths hdeclared]

/-- A list with fields below the same one, an undeclared field and an expression that is not well
written. -/
def scattered : Request :=
  ⟨[("select", Json.ofStrings ["address.zip,name", "age\x7b", "address \x7b secret, city \x7d"])]⟩

/-- What is read from the scattered expression, path by path. -/
theorem readPaths_scattered : (readPaths "select" (scattered.get? "select")).output
    = [["address", "zip"], ["name"], ["address", "secret"], ["address", "city"]] := by
  have hfirst : Expression.paths "address.zip,name" = .ok [["address", "zip"], ["name"]] := by rfl
  have hsecond : Expression.paths "age\x7b" = .error .unclosedGroup := by rfl
  have hthird : Expression.paths "address \x7b secret, city \x7d"
      = .ok [["address", "secret"], ["address", "city"]] := by rfl
  simp [scattered, Request.get?, Entries.get?, Json.ofStrings, readPaths, readItem,
    readExpression, hfirst, hsecond, hthird, Reading.clean]

/-- The scattered fields as one expression. -/
theorem read_expression_scattered :
    ∃ schema, Schema.ofDefinition Sample.nested = .ok schema ∧
      (read schema scattered).output.expression = "address\x7bzip,city\x7d,name" ∧
      read schema ⟨[("select", .string "address\x7bzip,city\x7d,name")]⟩
        = .clean (read schema scattered).output := by
  obtain ⟨schema, hschema, hselect, hgrown⟩ :
      ∃ schema, Schema.ofDefinition Sample.nested = .ok schema ∧ schema.params.select = "select" ∧
        ([["address", "zip"], ["name"], ["address", "secret"], ["address", "city"]].foldl
          (insertDeclared schema.fields) empty).expression = "address\x7bzip,city\x7d,name" :=
    ⟨_, rfl, rfl, by rfl⟩
  have htext : (read schema scattered).output.expression = "address\x7bzip,city\x7d,name" := by
    rw [read, hselect, readPaths_scattered, hgrown]
  refine ⟨schema, hschema, htext, read_expression hschema ?_⟩
  rw [htext, hselect]
  rfl

end Selection

end ResourceQuery
