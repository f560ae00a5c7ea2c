import Mathlib.Data.List.Infix
import ResourceQuery.Proofs.Schema.FieldTree
import ResourceQuery.Proofs.Selection.Lookup
import ResourceQuery.Proofs.Selection.Recognition
import ResourceQuery.Sample

/-!
# Selections as merged paths

A selection is grown path by path, and a path that is partly there already shares what is there.
What comes out depends on the paths alone: it is their ordered merge. A field is selected exactly
when some declared path begins with the names that lead to it, and siblings stand in the order in
which the paths first name them.

At every level the names are those of the paths that lead there, each where it occurs first.
`FieldNode.names_insert` is the step: one more path adds its next name behind the names of the
level, unless the level has it. `FieldNode.names_insertAll` is the run, and all of `Merges` follows
from it and from the invariant that the selection is declared.

## Main definitions

* `Expression.next?`: the name behind the beginning of a path.
* `Selection.isDeclared`: whether every field on a path is declared.
* `Selection.Merges`: a selection is the merge of paths.
* `Selection.asked`, `Selection.refusals`: the paths and the faults of a selection parameter, item
  by item.

## Main statements

* `Selection.merges_foldl`: growing a selection merges the declared paths.
* `Selection.read_merges`: the selection of a request is the merge of the declared ones among the
  paths that the accepted items of its parameter ask for, and the refused items are its faults.
-/

namespace ResourceQuery

/-! ### Levels that are grown -/

namespace Expression

/-- The name behind the first of two paths on the second one, if the second one goes on there. -/
def next? : Path → Path → Option String
  | [], path => path.head?
  | name :: before, first :: path => if name = first then next? before path else none
  | _ :: _, [] => none

/-- The name that comes next is the one that a path goes on with. -/
theorem next?_eq_some_iff {before path : Path} {name : String} :
    next? before path = some name ↔ before ++ [name] <+: path := by
  induction before generalizing path with
  | nil => cases path <;> simp [next?, eq_comm]
  | cons first before ih =>
      cases path with
      | nil => simp [next?]
      | cons second path =>
          rw [next?]
          split
          · next h => simp [h, ih]
          · next h => simp [h]

end Expression

namespace FieldNode

open Expression (next?)

/-- The names of the fields of a level. -/
def names (level : List FieldNode) : List String :=
  level.map (·.name)

/-- One more name, if it is not there. -/
def withName (names : List String) (name : String) : List String :=
  if name ∈ names then names else names ++ [name]

/-- An update adds its name at the end of a level, unless it is there. -/
theorem names_update (name : String) (kind : FieldKind)
    (change : List FieldNode → List FieldNode) (level : List FieldNode) :
    names (update name kind change level) = withName (names level) name := by
  induction level with
  | nil => rfl
  | cons node nodes ih =>
      rw [update]
      split
      · next h => simp [names, withName, h]
      · next h =>
          simp only [names, withName, List.map_cons] at ih ⊢
          rw [ih]
          by_cases hmem : name ∈ nodes.map (·.name) <;> simp [hmem, Ne.symm h]

/-- An update changes what is below its name, and nothing below the other names. -/
theorem levelBelow_update (name below : String) (kind : FieldKind)
    (change : List FieldNode → List FieldNode) (level : List FieldNode) :
    levelBelow (update name kind change level) below
      = if name = below then change (levelBelow level name) else levelBelow level below := by
  induction level with
  | nil =>
      by_cases h : name = below <;> simp [update, levelBelow, h]
  | cons node nodes ih =>
      rw [update]
      by_cases hnode : node.name = name
      · by_cases h : name = below <;> simp [levelBelow, hnode, h]
      · rw [if_neg hnode]
        by_cases hbelow : node.name = below
        · have hne : name ≠ below := fun h => hnode (hbelow.trans h.symm)
          simp [levelBelow, hbelow, hne]
        · simp only [levelBelow, List.find?_cons, hbelow, hnode, decide_false] at ih ⊢
          exact ih

/-- **The step.** One more path adds a name to a level exactly when the names that lead to the level
begin the path; then the added name is the next one on it. -/
theorem names_insert (resolved : List (String × FieldKind)) (level : List FieldNode)
    (before : List String) :
    names (levelAt (insert resolved level) before)
      = (next? before (resolved.map (·.1))).elim (names (levelAt level before))
          (withName (names (levelAt level before))) := by
  induction before generalizing resolved level with
  | nil =>
      cases resolved with
      | nil => rfl
      | cons first rest => exact names_update _ _ _ _
  | cons name before ih =>
      cases resolved with
      | nil => rfl
      | cons first rest =>
          change names (levelAt (levelBelow (insert (first :: rest) level) name) before) = _
          rw [insert, levelBelow_update, List.map_cons, next?]
          by_cases h : first.1 = name
          · rw [if_pos h, if_pos h.symm, ih, h]
            rfl
          · rw [if_neg h, if_neg (Ne.symm h)]
            rfl

/-- **The run.** The names of a level are the next names on the paths that lead there, in the order
in which they occur first. -/
theorem names_insertAll (resolved : List (List (String × FieldKind))) (before : List String) :
    names (levelAt (insertAll resolved []) before)
      = ((resolved.map fun path => path.map (·.1)).filterMap (next? before)).eraseDups := by
  induction resolved using List.reverseRecOn with
  | nil => simp [insertAll, levelAt_nil, names]
  | append_singleton resolved path ih =>
      have hlast : insertAll (resolved ++ [path]) [] = insert path (insertAll resolved []) := by
        simp [insertAll]
      rw [hlast, names_insert, ih, List.map_append, List.filterMap_append]
      cases hnext : next? before (path.map (·.1)) with
      | none => simp [hnext]
      | some name =>
          simp only [List.map_cons, List.map_nil, List.filterMap_cons, List.filterMap_nil, hnext,
            eraseDups_append_singleton, Option.elim_some, withName, List.mem_eraseDups]

/-- Nothing stands below an atomic field of a declared tree, if the declarations are linked. -/
theorem Declared.children_of_isAtomic {d : Definition} {schema : Schema}
    (hd : Schema.ofDefinition d = .ok schema) {level : List FieldNode} {space path : String}
    {node : FieldNode} (h : Declared schema.fields space level)
    (ho : OccursAt level space path node) (hatomic : node.isAtomic = true) :
    node.children = [] := by
  have hkind := h.kind?_of_occursAt ho
  have hchildren := h.children ho
  rw [isAtomic, decide_eq_true_eq] at hatomic
  cases hlevel : node.children with
  | nil => rfl
  | cons child rest =>
      rw [hlevel] at hchildren
      cases hchildren with
      | cons hchild hdot _ _ _ =>
          have hnested := Schema.eq_nested_of_kind? hd hkind hdot hchild
          rw [hatomic] at hnested
          cases hnested

end FieldNode

/-! ### The paths that are kept -/

namespace Selection

open Expression (Path Clear fullPath next?)

/-- Whether every field on a path is declared. -/
def isDeclared (tree : FieldTree) (path : Path) : Bool :=
  path.inits.all fun before => before.isEmpty || tree.contains (fullPath before)

/-- A path with one more name is declared when the path is and the tree has the longer one. -/
theorem isDeclared_append_singleton (tree : FieldTree) (path : Path) (name : String) :
    isDeclared tree (path ++ [name])
      = (isDeclared tree path && tree.contains (fullPath (path ++ [name]))) := by
  have hne : (path ++ [name]).isEmpty = false := by cases path <;> rfl
  simp [isDeclared, List.inits_append, hne]

/-- A path with one more name resolves to the kinds of the path and the kind of the name. -/
theorem resolve?_append_singleton (tree : FieldTree) (space : String) (path : Path)
    (name : String) :
    resolve? tree space (path ++ [name])
      = match resolve? tree space path, tree.kind? (joinPath (path.foldl joinPath space) name) with
        | some kinds, some kind => some (kinds ++ [(name, kind)])
        | _, _ => none := by
  induction path generalizing space with
  | nil =>
      simp only [List.nil_append, resolve?, List.foldl_nil]
      cases tree.kind? (joinPath space name) <;> rfl
  | cons first path ih =>
      rw [List.cons_append, resolve?, resolve?, ih, List.foldl_cons]
      cases tree.kind? (joinPath space first) with
      | none => rfl
      | some kind =>
          cases resolve? tree (joinPath space first) path with
          | none => rfl
          | some kinds =>
              cases tree.kind? (joinPath (path.foldl joinPath (joinPath space first)) name) <;> rfl

/-- The reader keeps a path when every field on it is declared. -/
theorem isSome_resolve? (tree : FieldTree) (path : Path) :
    (resolve? tree rootNamespace path).isSome = isDeclared tree path := by
  induction path using List.reverseRecOn with
  | nil => rfl
  | append_singleton path name ih =>
      rw [resolve?_append_singleton, Expression.foldl_joinPath, isDeclared_append_singleton, ← ih,
        FieldTree.contains, Expression.fullPath_append_singleton]
      cases resolve? tree rootNamespace path with
      | none => rfl
      | some kinds => cases tree.kind? (joinPath (fullPath path) name) <;> rfl

/-- A resolved path has the names that it had. -/
theorem names_of_resolve? {tree : FieldTree} {space : String} {path : Path}
    {resolved : List (String × FieldKind)} (h : resolve? tree space path = some resolved) :
    resolved.map (·.1) = path := by
  induction path generalizing space resolved with
  | nil =>
      obtain rfl := Option.some.inj h
      rfl
  | cons name rest ih =>
      rw [resolve?] at h
      split at h
      · next kind kinds _ hkinds =>
          obtain rfl := Option.some.inj h
          rw [List.map_cons, ih hkinds]
      · cases h

/-- The paths that are added are those that are kept. -/
theorem names_filterMap_resolve? (tree : FieldTree) (paths : List Path) :
    (paths.filterMap (resolve? tree rootNamespace)).map (fun path => path.map (·.1))
      = paths.filter (isDeclared tree) := by
  induction paths with
  | nil => rfl
  | cons path rest ih =>
      rw [List.filterMap_cons, List.filter_cons, ← isSome_resolve?]
      cases h : resolve? tree rootNamespace path with
      | none => simpa using ih
      | some resolved => simp [ih, names_of_resolve? h]

/-! ### The merge -/

/-- The selection is the merge of the paths: its fields are the beginnings of the paths, each once,
with their declared kinds, and siblings stand in the order in which the paths first name them. -/
structure Merges (tree : FieldTree) (kept : List Path) (selection : Selection) : Prop where
  isSome_node?_iff : ∀ path, path ≠ [] → Clear path →
    ((selection.node? (fullPath path)).isSome = true ↔ ∃ longer ∈ kept, path <+: longer)
  kind?_of_node? : ∀ path node, selection.node? path = some node → tree.kind? path = some node.kind
  names_fieldsOf : ∀ path, Clear path →
    FieldNode.names (selection.fieldsOf (fullPath path)) = (kept.filterMap (next? path)).eraseDups
  nodup_fieldsOf : ∀ space, (FieldNode.names (selection.fieldsOf space)).Nodup
  mem_fieldsOf_iff : ∀ space node,
    node ∈ selection.fieldsOf space ↔ selection.node? (joinPath space node.name) = some node
  children_of_isAtomic : ∀ path node, selection.node? path = some node → node.isAtomic = true →
    node.children = []
  columns_eq : selection.columns.map (fun name => [name])
    = (kept.filter fun path =>
        decide (path.length = 1 ∧ tree.kind? (fullPath path) = some .atomic)).eraseDups

/-- The names of a level of a grown selection are the next names on the paths that lead there. -/
theorem names_fieldsOf_foldl (tree : FieldTree) (paths : List Path) {path : Path}
    (h : Clear path) :
    FieldNode.names ((paths.foldl (insertDeclared tree) empty).fieldsOf (fullPath path))
      = ((paths.filter (isDeclared tree)).filterMap (next? path)).eraseDups := by
  rw [fieldsOf_fullPath _ h, foldl_insertDeclared, ← names_filterMap_resolve?]
  exact FieldNode.names_insertAll _ _

/-- A path that begins a kept one leads to a field, and no other one does. -/
theorem isSome_node?_foldl (tree : FieldTree) (paths : List Path) {path : Path} (hne : path ≠ [])
    (h : Clear path) :
    ((paths.foldl (insertDeclared tree) empty).node? (fullPath path)).isSome = true
      ↔ ∃ longer ∈ paths.filter (isDeclared tree), path <+: longer := by
  obtain ⟨before, name, rfl⟩ := (List.eq_nil_or_concat' path).resolve_left hne
  obtain ⟨hbefore, hname⟩ := List.forall_mem_append.mp h
  rw [Expression.fullPath_append_singleton, node?_joinPath _ (by simpa using hname)]
  calc _ ↔ name ∈ FieldNode.names
          ((paths.foldl (insertDeclared tree) empty).fieldsOf (fullPath before)) := by
        simp [FieldNode.names]
    _ ↔ ∃ longer ∈ paths.filter (isDeclared tree), next? before longer = some name := by
        rw [names_fieldsOf_foldl tree paths hbefore, List.mem_eraseDups, List.mem_filterMap]
    _ ↔ ∃ longer ∈ paths.filter (isDeclared tree), before ++ [name] <+: longer := by
        simp only [Expression.next?_eq_some_iff]

/-- A declared path that begins with the name of a value has no other name. -/
theorem length_of_atomic {d : Definition} {schema : Schema} {name : String} {rest : Path}
    (hd : Schema.ofDefinition d = .ok schema) (hclear : Clear (name :: rest))
    (hdeclared : isDeclared schema.fields (name :: rest) = true)
    (hatomic : schema.fields.kind? (fullPath [name]) = some .atomic) : rest = [] := by
  cases rest with
  | nil => rfl
  | cons second rest =>
      have hsecond : schema.fields.contains (fullPath [name, second]) = true := by
        rw [isDeclared, List.all_eq_true] at hdeclared
        simpa using hdeclared [name, second] (by simp)
      have hjoin : fullPath [name, second] = joinPath (fullPath [name]) second :=
        Expression.fullPath_append_singleton [name] second
      rw [FieldTree.contains, hjoin] at hsecond
      obtain ⟨below, hbelow⟩ := Option.isSome_iff_exists.mp hsecond
      have hnested := Schema.eq_nested_of_kind? hd hatomic (hclear second (by simp)) hbelow
      cases hnested

/-- Whether a name of the topmost level is that of a value. -/
def isColumn (tree : FieldTree) (name : String) : Bool :=
  decide (tree.kind? (fullPath [name]) = some .atomic)

/-- The columns of a selection are those of its names that are columns of the tree. -/
theorem columns_eq {tree : FieldTree} {selection : Selection}
    (h : FieldNode.Declared tree rootNamespace selection.fields) :
    selection.columns = (FieldNode.names selection.fields).filter (isColumn tree) := by
  rw [columns, FieldNode.names, List.filter_map]
  refine congrArg _ (List.filter_congr fun node hm => ?_)
  have hkind : tree.kind? (joinPath rootNamespace node.name) = some node.kind :=
    h.kind?_of_occursAt (.here hm)
  have hfull : joinPath rootNamespace node.name = fullPath [node.name] :=
    (Expression.fullPath_append_singleton [] node.name).symm
  rw [hfull] at hkind
  simp [isColumn, hkind, FieldNode.isAtomic]

/-- The first names of declared paths that are names of values are all that is on these paths. -/
theorem filter_isColumn {d : Definition} {schema : Schema} (hd : Schema.ofDefinition d = .ok schema)
    {kept : List Path}
    (h : ∀ path ∈ kept, Clear path ∧ isDeclared schema.fields path = true) :
    ((kept.filterMap (next? [])).filter (isColumn schema.fields)).map (fun name => [name])
      = kept.filter fun path =>
          decide (path.length = 1 ∧ schema.fields.kind? (fullPath path) = some .atomic) := by
  induction kept with
  | nil => rfl
  | cons path kept ih =>
      obtain ⟨⟨hclear, hdeclared⟩, hrest⟩ := List.forall_mem_cons.mp h
      rcases path with _ | ⟨name, rest⟩
      · rw [List.filterMap_cons_none rfl, List.filter_cons_of_neg (by simp), ih hrest]
      · by_cases hatomic : schema.fields.kind? (fullPath [name]) = some .atomic
        · obtain rfl := length_of_atomic hd hclear hdeclared hatomic
          simpa [next?, isColumn, hatomic] using ih hrest
        · have hnot : ¬((name :: rest).length = 1 ∧
              schema.fields.kind? (fullPath (name :: rest)) = some .atomic) := by
            rintro ⟨hlength, hkind⟩
            obtain rfl : rest = [] := by simpa using hlength
            exact hatomic hkind
          rw [List.filter_cons_of_neg (by simpa using hnot), ← ih hrest]
          simp [next?, isColumn, hatomic]

/-- The values at the top of a grown selection are the kept paths of one name that lead to
values. -/
theorem columns_foldl {d : Definition} {schema : Schema} (hd : Schema.ofDefinition d = .ok schema)
    {paths : List Path} (hclear : ∀ path ∈ paths, Clear path) :
    (paths.foldl (insertDeclared schema.fields) empty).columns.map (fun name => [name])
      = ((paths.filter (isDeclared schema.fields)).filter fun path => decide
          (path.length = 1 ∧ schema.fields.kind? (fullPath path) = some .atomic)).eraseDups := by
  have hroot : Clear [] := by simp [Clear]
  have hnames := names_fieldsOf_foldl schema.fields paths hroot
  have hsingle : Function.Injective fun name : String => [name] := fun _ _ h => by simpa using h
  have hkept : ∀ path ∈ paths.filter (isDeclared schema.fields),
      Clear path ∧ isDeclared schema.fields path = true := fun path hm =>
    ⟨hclear path (List.mem_filter.mp hm).1, (List.mem_filter.mp hm).2⟩
  have hdeclared : FieldNode.Declared schema.fields rootNamespace
      (paths.foldl (insertDeclared schema.fields) empty).fields := declared_foldl hclear .nil
  rw [columns_eq hdeclared]
  change FieldNode.names (paths.foldl (insertDeclared schema.fields) empty).fields = _ at hnames
  rw [hnames, ← eraseDups_filter, ← eraseDups_map hsingle, filter_isColumn hd hkept]

/-- **Growing a selection merges the declared paths.** -/
theorem merges_foldl {d : Definition} {schema : Schema} (hd : Schema.ofDefinition d = .ok schema)
    {paths : List Path} (hclear : ∀ path ∈ paths, Clear path) :
    Merges schema.fields (paths.filter (isDeclared schema.fields))
      (paths.foldl (insertDeclared schema.fields) empty) := by
  have hdeclared : FieldNode.Declared schema.fields rootNamespace
      (paths.foldl (insertDeclared schema.fields) empty).fields := declared_foldl hclear .nil
  constructor
  case isSome_node?_iff => exact fun path hne h => isSome_node?_foldl schema.fields paths hne h
  case kind?_of_node? =>
    exact fun path node h => hdeclared.kind?_of_occursAt (occursAt_of_node? h)
  case names_fieldsOf => exact fun path h => names_fieldsOf_foldl schema.fields paths h
  case nodup_fieldsOf =>
    intro space
    by_cases hempty : (paths.foldl (insertDeclared schema.fields) empty).fieldsOf space = []
    · rw [hempty]
      exact List.nodup_nil
    · obtain ⟨node, hnode⟩ := List.exists_mem_of_ne_nil _ hempty
      obtain ⟨path, hpath, rfl⟩ := exists_fullPath_of_mem_fieldsOf hnode
      rw [names_fieldsOf_foldl schema.fields paths hpath]
      exact nodup_eraseDups _
  case mem_fieldsOf_iff => exact fun space node => mem_fieldsOf_iff hdeclared
  case children_of_isAtomic =>
    exact fun path node h hatomic =>
      hdeclared.children_of_isAtomic hd (occursAt_of_node? h) hatomic
  case columns_eq => exact columns_foldl hd hclear

/-! ### Selection parameters -/

/-- The items of a selection parameter. A text is one item. -/
def items? : Json → Option (List Json)
  | .string expression => some [.string expression]
  | .array items => some items
  | _ => none

/-- The paths that an item asks for, or why it is refused. -/
def itemPaths : Json → Except SelectionCause (List Path)
  | .string expression => (Expression.paths expression).mapError .expression
  | given => .error (.item given)

/-- The paths that the accepted items ask for. -/
def asked (items : List Json) : List Path :=
  items.flatMap fun item => (itemPaths item).toOption.getD []

/-- One fault for each refused item. -/
def refusals (param : String) (items : List Json) : List Fault :=
  items.flatMap fun item =>
    match itemPaths item with
    | .ok _ => []
    | .error cause => [cause.fault param]

/-- An item asks for paths or is refused, whatever stands around it. -/
theorem readItem_eq (param : String) (item : Json) :
    readItem param item = ⟨asked [item], refusals param [item]⟩ := by
  cases item with
  | string expression =>
      rw [readItem, readExpression]
      simp only [asked, refusals, itemPaths, List.flatMap_cons, List.flatMap_nil, List.append_nil]
      cases Expression.paths expression <;> rfl
  | _ => rfl

/-- The reader collects the paths of the accepted items, and a fault for each refused one. -/
theorem readPaths_of_items {param : String} {given : Json} {items : List Json}
    (h : items? given = some items) :
    readPaths param (some given) = ⟨asked items, refusals param items⟩ := by
  cases given with
  | string expression =>
      obtain rfl := Option.some.inj h
      exact readItem_eq param (.string expression)
  | array given =>
      obtain rfl := Option.some.inj h
      simp [readPaths, readItem_eq, asked, refusals]
  | _ => cases h

/-- **A selection is the merge of the declared paths that are asked for.** The paths are those of
the accepted items of the parameter, in order; an item that is not accepted is a fault and no more.
-/
theorem read_merges {d : Definition} {schema : Schema} {request : Request} {given : Json}
    {items : List Json} (hd : Schema.ofDefinition d = .ok schema)
    (hgiven : request.get? schema.params.select = some given) (hitems : items? given = some items) :
    Merges schema.fields ((asked items).filter (isDeclared schema.fields))
        (read schema request).output
      ∧ (read schema request).faults = refusals schema.params.select items := by
  have hpaths : readPaths schema.params.select (some given)
      = ⟨asked items, refusals schema.params.select items⟩ := readPaths_of_items hitems
  have hclear : ∀ path ∈ asked items, Clear path := by
    intro path hm
    have hread : path ∈ (readPaths schema.params.select (some given)).output := by
      rw [hpaths]
      exact hm
    exact clear_of_mem_readPaths hread
  rw [read, hgiven, hpaths]
  exact ⟨merges_foldl hd hclear, rfl⟩

/-- A list with a path that is repeated, paths that share their beginning, an undeclared field, a
value that is no text, and an expression that is not well written. -/
def mixed : List Json :=
  [.string "address.zip,name", .bool true, .string "age\x7b",
    .string "address\x7bsecret,city\x7d,name"]

/-- A repeated path and paths that share their beginning are merged, an undeclared path is left out,
and two items are refused. -/
theorem read_merges_mixed :
    ∃ schema, Schema.ofDefinition Sample.nested = .ok schema ∧
      Merges schema.fields [["address", "zip"], ["name"], ["address", "city"], ["name"]]
        (read schema ⟨[("select", .array mixed)]⟩).output ∧
      (read schema ⟨[("select", .array mixed)]⟩).faults
        = [(SelectionCause.item (.bool true)).fault "select",
          (SelectionCause.expression .unclosedGroup).fault "select"] := by
  have hfirst : Expression.paths "address.zip,name" = .ok [["address", "zip"], ["name"]] := by rfl
  have hsecond : Expression.paths "age\x7b" = .error .unclosedGroup := by rfl
  have hthird : Expression.paths "address\x7bsecret,city\x7d,name"
      = .ok [["address", "secret"], ["address", "city"], ["name"]] := by rfl
  have hasked : asked mixed
      = [["address", "zip"], ["name"], ["address", "secret"], ["address", "city"], ["name"]] := by
    simp [asked, mixed, itemPaths, hfirst, hsecond, hthird, Except.mapError, Except.toOption]
  have hrefusals : refusals "select" mixed
      = [(SelectionCause.item (.bool true)).fault "select",
        (SelectionCause.expression .unclosedGroup).fault "select"] := by
    simp [refusals, mixed, itemPaths, hfirst, hsecond, hthird, Except.mapError]
  obtain ⟨schema, hschema, hselect, hdeclared⟩ :
      ∃ schema, Schema.ofDefinition Sample.nested = .ok schema ∧ schema.params.select = "select" ∧
        [["address", "zip"], ["name"], ["address", "secret"], ["address", "city"], ["name"]].filter
            (isDeclared schema.fields)
          = [["address", "zip"], ["name"], ["address", "city"], ["name"]] :=
    ⟨_, rfl, rfl, by rfl⟩
  have hgiven : (Request.mk [("select", .array mixed)]).get? schema.params.select
      = some (.array mixed) := by rw [hselect]; rfl
  obtain ⟨hmerges, hfaults⟩ := read_merges hschema hgiven rfl
  rw [hasked, hdeclared] at hmerges
  rw [hselect, hrefusals] at hfaults
  exact ⟨schema, hschema, hmerges, hfaults⟩

end Selection

end ResourceQuery
