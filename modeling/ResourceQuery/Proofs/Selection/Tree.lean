import ResourceQuery.Proofs.Lists
import ResourceQuery.Proofs.Selection.Expression
import ResourceQuery.Selection.Reading

/-!
# The selection tree of a request

The tree that a request selects is grown path by path. `FieldNode.Declared` is what holds of it at
every level: the fields are declared, have their declared kinds and names without dots, and no name
stands twice among siblings. One more path preserves it (`Declared.insert`), so it holds of every
selection that is read (`Selection.declared_read`).

Such a tree is determined by the paths of its leaves in pre-order: adding them one after the other
to the empty level grows the same tree with the same order of siblings. The reason is that the
leaves below one field stand next to each other, so that all but the first of them find the field at
the end of the level.

## Main statements

* `Selection.declared_read`: the selection of a request is declared.
* `FieldNode.Declared.kind?_of_occursAt`: every field of a declared tree has its declared kind.
* `Selection.foldl_paths`: the paths of the leaves grow the tree again.
-/

namespace ResourceQuery

namespace FieldNode

/-- The node stands at the path, in the tree whose topmost level lies in the given namespace. -/
inductive OccursAt : List FieldNode → String → String → FieldNode → Prop
  | here {level : List FieldNode} {space : String} {node : FieldNode} :
      node ∈ level → OccursAt level space (joinPath space node.name) node
  | deeper {level : List FieldNode} {space path : String} {parent node : FieldNode} :
      parent ∈ level → OccursAt parent.children (joinPath space parent.name) path node →
      OccursAt level space path node

/-- **The invariant.** The fields of a level, and of all levels below it, are declared where they
stand, with their kinds; no name has a dot or stands twice among siblings. -/
inductive Declared (tree : FieldTree) : String → List FieldNode → Prop
  | nil {space : String} : Declared tree space []
  | cons {space : String} {node : FieldNode} {nodes : List FieldNode} :
      tree.kind? (joinPath space node.name) = some node.kind → '.' ∉ node.name.toList →
      (∀ other ∈ nodes, other.name ≠ node.name) →
      Declared tree (joinPath space node.name) node.children → Declared tree space nodes →
      Declared tree space (node :: nodes)

/-- Every field of a declared tree has the kind that is declared at its path. -/
theorem Declared.kind?_of_occursAt {tree : FieldTree} {level : List FieldNode}
    {space path : String} {node : FieldNode} (h : Declared tree space level)
    (ho : OccursAt level space path node) : tree.kind? path = some node.kind := by
  induction h with
  | nil => cases ho with
    | here hm => cases hm
    | deeper hm _ => cases hm
  | cons hkind _ _ _ _ ihchildren ihnodes =>
      cases ho with
      | here hm =>
          rcases List.mem_cons.mp hm with rfl | hm
          · exact hkind
          · exact ihnodes (.here hm)
      | deeper hm hbelow =>
          rcases List.mem_cons.mp hm with rfl | hm
          · exact ihchildren hbelow
          · exact ihnodes (.deeper hm hbelow)

/-! ### Growing a tree -/

/-- A change below a name adds no other name to the level. -/
theorem name_of_mem_update {name : String} {kind : FieldKind}
    {change : List FieldNode → List FieldNode} {level : List FieldNode} {node : FieldNode}
    (h : node ∈ update name kind change level) :
    node.name = name ∨ ∃ old ∈ level, old.name = node.name := by
  induction level with
  | nil =>
      rw [update, List.mem_singleton] at h
      exact Or.inl (by rw [h])
  | cons first rest ih =>
      rw [update] at h
      split at h
      · next hname =>
          rcases List.mem_cons.mp h with rfl | h
          · exact Or.inl hname
          · exact Or.inr ⟨node, List.mem_cons_of_mem _ h, rfl⟩
      · rcases List.mem_cons.mp h with rfl | h
        · exact Or.inr ⟨node, List.mem_cons_self, rfl⟩
        · exact (ih h).imp_right fun ⟨old, hm, hold⟩ => ⟨old, List.mem_cons_of_mem _ hm, hold⟩

/-- A change below a declared field that keeps the level below it declared keeps the whole level
declared. -/
theorem Declared.update {tree : FieldTree} {space name : String} {kind : FieldKind}
    {change : List FieldNode → List FieldNode} {level : List FieldNode}
    (h : Declared tree space level) (hkind : tree.kind? (joinPath space name) = some kind)
    (hdot : '.' ∉ name.toList)
    (hchange : ∀ below, Declared tree (joinPath space name) below →
      Declared tree (joinPath space name) (change below)) :
    Declared tree space (update name kind change level) := by
  induction level with
  | nil => exact .cons hkind hdot (by simp) (hchange [] .nil) .nil
  | cons node nodes ih =>
      cases h with
      | cons hnode hclear hfresh hchildren hnodes =>
          rw [FieldNode.update]
          split
          · next hname =>
              subst hname
              exact .cons hnode hclear hfresh (hchange _ hchildren) hnodes
          · next hname =>
              refine .cons hnode hclear (fun other hm => ?_) hchildren (ih hnodes)
              rcases name_of_mem_update hm with hother | ⟨old, hold, hother⟩
              · exact fun heq => hname (heq.symm.trans hother)
              · exact hother ▸ hfresh old hold

/-- **The step.** One more path, each field of which is declared, keeps a level declared. -/
theorem Declared.insert {tree : FieldTree} {path : List String} {space : String}
    {level : List FieldNode} {resolved : List (String × FieldKind)} (h : Declared tree space level)
    (hclear : Expression.Clear path) (hr : Selection.resolve? tree space path = some resolved) :
    Declared tree space (insert resolved level) := by
  induction path generalizing space level resolved with
  | nil =>
      obtain rfl := Option.some.inj hr
      exact h
  | cons name rest ih =>
      rw [Selection.resolve?] at hr
      split at hr
      · next kind kinds hkind hkinds =>
          obtain rfl := Option.some.inj hr
          obtain ⟨hname, hrest⟩ := List.forall_mem_cons.mp hclear
          exact h.update hkind hname fun below hbelow => ih hbelow hrest hkinds
      · cases hr

end FieldNode

namespace Selection

/-- The names on the paths of an expression have no dots. -/
theorem clear_of_mem_readExpression {param expression : String} {path : List String}
    (h : path ∈ (readExpression param expression).output) : Expression.Clear path := by
  rw [readExpression] at h
  split at h
  · next found hfound => exact Expression.clear_of_mem_paths hfound h
  · cases h

/-- The names on the paths that a parameter asks for have no dots. -/
theorem clear_of_mem_readPaths {param : String} {given : Option Json} {path : List String}
    (h : path ∈ (readPaths param given).output) : Expression.Clear path := by
  unfold readPaths at h
  split at h
  · cases h
  · cases h
  · exact clear_of_mem_readExpression h
  · obtain ⟨item, -, hitem⟩ := List.mem_flatMap.mp h
    unfold readItem at hitem
    split at hitem
    · exact clear_of_mem_readExpression hitem
    · cases hitem
  · cases h

/-- Adding paths one after the other, and leaving out those that are not declared, keeps a selection
declared. -/
theorem declared_foldl {tree : FieldTree} {paths : List (List String)} {selection : Selection}
    (hclear : ∀ path ∈ paths, Expression.Clear path)
    (h : FieldNode.Declared tree rootNamespace selection.fields) :
    FieldNode.Declared tree rootNamespace (paths.foldl (insertDeclared tree) selection).fields := by
  induction paths generalizing selection with
  | nil => exact h
  | cons path rest ih =>
      obtain ⟨hpath, hrest⟩ := List.forall_mem_cons.mp hclear
      refine ih hrest ?_
      rw [insertDeclared]
      split
      · next resolved hr => exact h.insert hpath hr
      · exact h

/-- **The run.** The selection of a request is declared. -/
theorem declared_read (schema : Schema) (request : Request) :
    FieldNode.Declared schema.fields rootNamespace (read schema request).output.fields :=
  declared_foldl (fun _ hm => clear_of_mem_readPaths hm) .nil

end Selection

/-! ### Growing a tree again -/

namespace FieldNode

mutual

/-- The paths of the leaves of a field, in pre-order, with the kinds of the fields on them. -/
def leaves : FieldNode → List (List (String × FieldKind))
  | ⟨name, kind, []⟩ => [[(name, kind)]]
  | ⟨name, kind, child :: children⟩ =>
    (leaves child ++ levelLeaves children).map ((name, kind) :: ·)

/-- The paths of the leaves of a level, in pre-order. -/
def levelLeaves : List FieldNode → List (List (String × FieldKind))
  | [] => []
  | node :: nodes => leaves node ++ levelLeaves nodes

end

/-- The leaves of a field are those of the level below it, each below the field; a field with
nothing below it is a leaf. -/
theorem leaves_eq (node : FieldNode) :
    node.leaves = if node.children = [] then [[(node.name, node.kind)]]
      else (levelLeaves node.children).map ((node.name, node.kind) :: ·) := by
  obtain ⟨name, kind, children⟩ := node
  cases children with
  | nil => simp [leaves]
  | cons child children => simp [leaves, levelLeaves]

/-- Every field has a leaf. -/
theorem leaves_ne_nil : ∀ node : FieldNode, node.leaves ≠ []
  | ⟨_, _, []⟩ => by simp [leaves]
  | ⟨_, _, child :: _⟩ => by
      have hchild : child.leaves ≠ [] := leaves_ne_nil child
      simp [leaves, hchild]

/-- Only the empty level has no leaves. -/
theorem levelLeaves_ne_nil {level : List FieldNode} (h : level ≠ []) : levelLeaves level ≠ [] := by
  cases level with
  | nil => exact absurd rfl h
  | cons node nodes => exact List.append_ne_nil_of_left_ne_nil (leaves_ne_nil node) _

/-- A change below a name that a level does not have appends the field. -/
theorem update_of_fresh {name : String} {kind : FieldKind}
    {change : List FieldNode → List FieldNode} {level : List FieldNode}
    (h : ∀ node ∈ level, node.name ≠ name) :
    update name kind change level = level ++ [⟨name, kind, change []⟩] := by
  induction level with
  | nil => rfl
  | cons node nodes ih =>
      obtain ⟨hnode, hnodes⟩ := List.forall_mem_cons.mp h
      rw [update, if_neg hnode, ih hnodes]
      rfl

/-- A change below the last field of a level changes the level below it. -/
theorem update_of_last {name : String} {kind : FieldKind}
    {change : List FieldNode → List FieldNode} {level below : List FieldNode}
    (h : ∀ node ∈ level, node.name ≠ name) :
    update name kind change (level ++ [⟨name, kind, below⟩])
      = level ++ [⟨name, kind, change below⟩] := by
  induction level with
  | nil => simp [update]
  | cons node nodes ih =>
      obtain ⟨hnode, hnodes⟩ := List.forall_mem_cons.mp h
      rw [List.cons_append, update, if_neg hnode, ih hnodes]
      rfl

/-- The level after the paths are added one after the other. -/
def insertAll (paths : List (List (String × FieldKind))) (level : List FieldNode) :
    List FieldNode :=
  paths.foldl (fun level path => insert path level) level

/-- Paths below the last field of a level are added to the level below it. -/
theorem insertAll_of_last {name : String} {kind : FieldKind}
    {paths : List (List (String × FieldKind))} {level below : List FieldNode}
    (h : ∀ node ∈ level, node.name ≠ name) :
    insertAll (paths.map ((name, kind) :: ·)) (level ++ [⟨name, kind, below⟩])
      = level ++ [⟨name, kind, insertAll paths below⟩] := by
  induction paths generalizing below with
  | nil => rfl
  | cons path rest ih =>
      rw [insertAll, List.map_cons, List.foldl_cons, insert, update_of_last h]
      exact ih

/-- Paths below a new field append the field, with the level that they grow below it. -/
theorem insertAll_of_fresh {name : String} {kind : FieldKind}
    {paths : List (List (String × FieldKind))} {level : List FieldNode} (hne : paths ≠ [])
    (h : ∀ node ∈ level, node.name ≠ name) :
    insertAll (paths.map ((name, kind) :: ·)) level
      = level ++ [⟨name, kind, insertAll paths []⟩] := by
  cases paths with
  | nil => exact absurd rfl hne
  | cons path rest =>
      rw [insertAll, List.map_cons, List.foldl_cons, insert, update_of_fresh h]
      exact insertAll_of_last h

/-- The leaves of a new field append the field, when they grow the level below it. -/
theorem insertAll_leaves {node : FieldNode} {level : List FieldNode}
    (hchildren : insertAll (levelLeaves node.children) [] = node.children)
    (h : ∀ old ∈ level, old.name ≠ node.name) :
    insertAll node.leaves level = level ++ [node] := by
  obtain ⟨name, kind, children⟩ := node
  rw [leaves_eq]
  split
  · next hnil =>
      obtain rfl : children = [] := hnil
      exact update_of_fresh h
  · next hne => rw [insertAll_of_fresh (levelLeaves_ne_nil hne) h, hchildren]

/-- **The paths of the leaves grow a declared tree again**, behind fields of other names. -/
theorem Declared.insertAll_levelLeaves {tree : FieldTree} {space : String} {level : List FieldNode}
    (h : Declared tree space level) : ∀ before : List FieldNode,
    (∀ node ∈ level, ∀ old ∈ before, old.name ≠ node.name) →
      insertAll (levelLeaves level) before = before ++ level := by
  induction h with
  | nil => exact fun before _ => (List.append_nil before).symm
  | @cons space node nodes _ _ hfresh _ _ ihchildren ihnodes =>
      intro before hbefore
      obtain ⟨hnode, hnodes⟩ := List.forall_mem_cons.mp hbefore
      -- below the field the leaves meet no other names
      have hchildren : insertAll (levelLeaves node.children) [] = node.children :=
        ihchildren [] (by simp)
      have hfirst : insertAll node.leaves before = before ++ [node] :=
        insertAll_leaves hchildren hnode
      rw [levelLeaves, insertAll, List.foldl_append]
      change insertAll (levelLeaves nodes) (insertAll node.leaves before) = _
      rw [hfirst, ihnodes]
      · simp
      · intro other hother old hold
        rcases List.mem_append.mp hold with hold | hold
        · exact hnodes other hother old hold
        · rw [List.mem_singleton.mp hold]
          exact (hfresh other hother).symm

/-- What holds of the path to a leaf at the top of a level, and carries over from the level below a
field, holds of the paths of all leaves of a declared tree. -/
theorem Declared.forall_mem_levelLeaves {tree : FieldTree}
    {P : String → List (String × FieldKind) → Prop}
    (hleaf : ∀ space name kind, tree.kind? (joinPath space name) = some kind → '.' ∉ name.toList →
      P space [(name, kind)])
    (hbelow : ∀ space name kind path, tree.kind? (joinPath space name) = some kind →
      '.' ∉ name.toList → P (joinPath space name) path → P space ((name, kind) :: path))
    {space : String} {level : List FieldNode} (h : Declared tree space level) :
    ∀ path ∈ levelLeaves level, P space path := by
  induction h with
  | nil => exact fun path hm => absurd hm List.not_mem_nil
  | cons hkind hdot _ _ _ ihchildren ihnodes =>
      intro path hm
      rcases List.mem_append.mp hm with hm | hm
      · rw [leaves_eq] at hm
        split at hm
        · rw [List.mem_singleton.mp hm]
          exact hleaf _ _ _ hkind hdot
        · obtain ⟨below, hmem, rfl⟩ := List.mem_map.mp hm
          exact hbelow _ _ _ _ hkind hdot (ihchildren below hmem)
      · exact ihnodes path hm

end FieldNode

namespace Selection

/-- The paths of the leaves of a selection, in pre-order. -/
def paths (selection : Selection) : List (List String) :=
  (FieldNode.levelLeaves selection.fields).map fun path => path.map (·.1)

/-- The names on the paths of a declared selection are valid. -/
theorem isFieldName_of_mem_paths {d : Definition} {schema : Schema} {selection : Selection}
    {path : List String} (hd : Schema.ofDefinition d = .ok schema)
    (h : FieldNode.Declared schema.fields rootNamespace selection.fields)
    (hm : path ∈ selection.paths) : path ≠ [] ∧ ∀ name ∈ path, isFieldName name = true := by
  obtain ⟨leaf, hleaf, rfl⟩ := List.mem_map.mp hm
  refine h.forall_mem_levelLeaves
    (P := fun _ path => path.map (·.1) ≠ [] ∧ ∀ name ∈ path.map (·.1), isFieldName name = true)
    ?_ ?_ leaf hleaf
  · intro space name kind hkind hdot
    exact ⟨by simp, by simpa using Schema.isFieldName_of_kind? hd hkind hdot⟩
  · intro space name kind path hkind hdot hpath
    refine ⟨by simp, ?_⟩
    rw [List.map_cons]
    exact List.forall_mem_cons.mpr ⟨Schema.isFieldName_of_kind? hd hkind hdot, hpath.2⟩

/-- The paths of the leaves of a declared tree resolve to the kinds that they have in it. -/
theorem resolve?_of_mem_levelLeaves {tree : FieldTree} {level : List FieldNode} {space : String}
    {path : List (String × FieldKind)} (h : FieldNode.Declared tree space level)
    (hm : path ∈ FieldNode.levelLeaves level) :
    resolve? tree space (path.map (·.1)) = some path := by
  refine h.forall_mem_levelLeaves
    (P := fun space path => resolve? tree space (path.map (·.1)) = some path) ?_ ?_ path hm
  · intro space name kind hkind _
    simp [resolve?, hkind]
  · intro space name kind path hkind _ hpath
    simp [resolve?, hkind, hpath]

/-- Adding the declared paths is adding the resolved ones. -/
theorem foldl_insertDeclared (tree : FieldTree) (paths : List (List String))
    (selection : Selection) :
    paths.foldl (insertDeclared tree) selection
      = ⟨FieldNode.insertAll (paths.filterMap (resolve? tree rootNamespace)) selection.fields⟩ := by
  induction paths generalizing selection with
  | nil => rfl
  | cons path rest ih =>
      rw [List.foldl_cons, ih, insertDeclared, List.filterMap_cons]
      cases resolve? tree rootNamespace path <;> rfl

/-- **A declared selection grows again** from the paths of its leaves. -/
theorem foldl_paths {tree : FieldTree} {selection : Selection}
    (h : FieldNode.Declared tree rootNamespace selection.fields) :
    selection.paths.foldl (insertDeclared tree) empty = selection := by
  rw [paths, foldl_insertDeclared,
    filterMap_of_read fun path hm => resolve?_of_mem_levelLeaves h hm]
  simp [empty, h.insertAll_levelLeaves]

end Selection

end ResourceQuery
