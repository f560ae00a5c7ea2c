import ResourceQuery.Proofs.Schema.Consistency
import ResourceQuery.Proofs.Selection.Grammar
import ResourceQuery.Proofs.Selection.Tree

/-!
# Looking a selection up

A field of a selection is looked up by its full path, `$` and the names that lead to it with dots.
The text of a full path is cut at its dots again, so a look-up follows exactly those names
(`Selection.pathNames?_eq_some_iff`), level by level. On a declared selection a look-up says all
about the tree: the fields of a namespace are the fields that are found one name below it.

## Main definitions

* `Expression.fullPath`: the full path of the names that lead to a field.
* `FieldNode.levelAt`: the level that names lead to.

## Main statements

* `Selection.node?_joinPath`: a field is found by its name among the fields of its namespace.
* `Selection.fieldsOf_fullPath`: the fields of a namespace are the level that the names lead to.
* `Selection.mem_fieldsOf_iff`: a declared selection is determined by its look-ups.
-/

namespace ResourceQuery

/-! ### Full paths -/

namespace Expression

/-- The full path of a field: `$`, and the names that lead to it, with dots. The full path of no
names is the namespace of the resource itself. -/
def fullPath (path : Path) : String :=
  dotted (rootNamespace :: path)

/-- The text of a path with one more name is that of the path, joined with the name. -/
theorem dotted_append_singleton {path : Path} (h : path ≠ []) (name : String) :
    dotted (path ++ [name]) = joinPath (dotted path) name := by
  rw [← String.toList_inj]
  induction path with
  | nil => exact absurd rfl h
  | cons first path ih =>
      cases path with
      | nil => simp [dotted, joinPath, List.intercalate_cons_cons]
      | cons second path =>
          have hrest := ih (List.cons_ne_nil _ _)
          have hlonger : (dotted (first :: (second :: path ++ [name]))).toList
              = first.toList ++ '.' :: (dotted (second :: path ++ [name])).toList :=
            dotted_cons (by simp) first
          have hshorter := dotted_cons (List.cons_ne_nil second path) first
          simp only [joinPath, String.toList_append] at hrest ⊢
          rw [List.cons_append, hlonger, hrest, hshorter]
          simp

/-- The full text of a path with one more name is that of the path, joined with the name. -/
theorem fullPath_append_singleton (path : Path) (name : String) :
    fullPath (path ++ [name]) = joinPath (fullPath path) name :=
  dotted_append_singleton (List.cons_ne_nil _ _) name

/-- Joining the names of a path from the root on gives its full text. -/
theorem foldl_joinPath (path : Path) : path.foldl joinPath rootNamespace = fullPath path := by
  induction path using List.reverseRecOn with
  | nil => rfl
  | append_singleton path name ih =>
      rw [List.foldl_append, List.foldl_cons, List.foldl_nil, ih, fullPath_append_singleton]

/-- The names of a path are found in its full text. -/
theorem pathNames?_fullPath {path : Path} (hne : path ≠ []) (h : Clear path) :
    Selection.pathNames? (fullPath path) = some path := by
  have hsplit : Text.splitOn '.' (dotted path).toList = path.map String.toList := by
    rw [dotted, String.toList_ofList, Text.splitOn_intercalate (by simpa using hne)]
    intro part hm
    obtain ⟨name, hname, rfl⟩ := List.mem_map.mp hm
    exact h name hname
  have htext : (fullPath path).toList = '$' :: '.' :: (dotted path).toList := dotted_cons hne _
  rw [Selection.pathNames?, htext]
  simp [hsplit]

end Expression

/-! ### Levels -/

namespace FieldNode

/-- The level below the first field of a name; the empty one, if there is none. -/
def levelBelow (level : List FieldNode) (name : String) : List FieldNode :=
  ((level.find? fun node => node.name = name).map (·.children)).getD []

/-- The level that a list of names leads to. -/
def levelAt (level : List FieldNode) (path : List String) : List FieldNode :=
  path.foldl levelBelow level

/-- There is nothing below a level without nodes. -/
theorem levelAt_nil (path : List String) : levelAt [] path = [] := by
  induction path with
  | nil => rfl
  | cons name path ih => exact ih

/-- A field is found on the level that all names but the last lead to. -/
theorem find?_append_singleton (level : List FieldNode) (path : List String) (name : String) :
    find? level (path ++ [name]) = (levelAt level path).find? fun node => node.name = name := by
  induction path generalizing level with
  | nil => rfl
  | cons first path ih =>
      have hne : path ++ [name] ≠ [] := by simp
      obtain ⟨second, rest, hrest⟩ := List.exists_cons_of_ne_nil hne
      change find? level (first :: (path ++ [name]))
        = (levelAt (levelBelow level first) path).find? fun node => node.name = name
      rw [hrest, find?, ← hrest, levelBelow]
      · cases level.find? fun node => node.name = first with
        | none => simp [levelAt_nil]
        | some node => exact ih node.children
      · simp

/-- The level that names lead to is the one below the field that they lead to. -/
theorem levelAt_eq {level : List FieldNode} {path : List String} (hne : path ≠ []) :
    levelAt level path = ((find? level path).map (·.children)).getD [] := by
  induction path using List.reverseRecOn with
  | nil => exact absurd rfl hne
  | append_singleton path name _ =>
      rw [find?_append_singleton, levelAt, List.foldl_append]
      rfl

/-- A field that is found has the last name. -/
theorem getLast?_of_find? {level : List FieldNode} {path : List String} {node : FieldNode}
    (h : find? level path = some node) : path.getLast? = some node.name := by
  induction path using List.reverseRecOn with
  | nil => cases h
  | append_singleton path name _ =>
      rw [find?_append_singleton] at h
      have hname : node.name = name := by simpa using List.find?_some h
      rw [hname, List.getLast?_append, List.getLast?_singleton]
      rfl

/-- A field that is found stands where the names lead to. -/
theorem occursAt_of_find? {level : List FieldNode} {path : List String} {node : FieldNode}
    {space : String} (h : find? level path = some node) :
    OccursAt level space (path.foldl joinPath space) node := by
  fun_induction find? level path generalizing space with
  | case1 => cases h
  | case2 level name =>
      have hname : node.name = name := by simpa using List.find?_some h
      subst hname
      exact .here (List.mem_of_find?_eq_some h)
  | case3 level name rest _ parent hparent ih =>
      have hname : parent.name = name := by simpa using List.find?_some hparent
      subst hname
      exact .deeper (List.mem_of_find?_eq_some hparent) (ih h)
  | case4 => cases h

/-- The level below a field of a declared tree is declared. -/
theorem Declared.children {tree : FieldTree} {level : List FieldNode} {space path : String}
    {node : FieldNode} (h : Declared tree space level) (ho : OccursAt level space path node) :
    Declared tree path node.children := by
  induction h with
  | nil => cases ho with
    | here hm => cases hm
    | deeper hm _ => cases hm
  | cons _ _ _ hchildren _ ihchildren ihnodes =>
      cases ho with
      | here hm =>
          rcases List.mem_cons.mp hm with rfl | hm
          · exact hchildren
          · exact ihnodes (.here hm)
      | deeper hm hbelow =>
          rcases List.mem_cons.mp hm with rfl | hm
          · exact ihchildren hbelow
          · exact ihnodes (.deeper hm hbelow)

/-- The fields of a declared level are found by their names. -/
theorem Declared.find?_name {tree : FieldTree} {space : String} {level : List FieldNode}
    (h : Declared tree space level) {node : FieldNode} (hm : node ∈ level) :
    (level.find? fun other => other.name = node.name) = some node := by
  induction h with
  | nil => cases hm
  | cons _ _ hfresh _ _ _ ihnodes =>
      rcases List.mem_cons.mp hm with rfl | hm
      · simp
      · rw [List.find?_cons_of_neg (by simpa using Ne.symm (hfresh node hm)), ihnodes hm]

/-- The name of a declared node has no dot. -/
theorem Declared.dot_notMem {tree : FieldTree} {space : String} {level : List FieldNode}
    (h : Declared tree space level) {node : FieldNode} (hm : node ∈ level) :
    '.' ∉ node.name.toList := by
  induction h with
  | nil => cases hm
  | cons _ hdot _ _ _ _ ihnodes =>
      rcases List.mem_cons.mp hm with rfl | hm
      · exact hdot
      · exact ihnodes hm

end FieldNode

/-! ### Look-ups -/

namespace Selection

open Expression (Path Clear fullPath)

/-- A text is the full path of the names that are read from it. -/
theorem pathNames?_eq_some_iff {path : String} {names : List String} :
    pathNames? path = some names ↔ names ≠ [] ∧ Clear names ∧ path = fullPath names := by
  constructor
  · intro h
    rw [pathNames?] at h
    split at h
    · next rest htext =>
        obtain rfl := Option.some.inj h
        have hne : (Text.splitOn '.' rest).map String.ofList ≠ [] := by
          simpa using Text.splitOn_ne_nil _ _
        refine ⟨hne, fun name hname => ?_, ?_⟩
        · obtain ⟨part, hpart, rfl⟩ := List.mem_map.mp hname
          rw [String.toList_ofList]
          exact Text.notMem_of_mem_splitOn hpart
        · have hfull := Expression.dotted_cons hne rootNamespace
          rw [← String.toList_inj, htext, fullPath, hfull, Expression.dotted, List.map_map]
          simp [Function.comp_def, Text.intercalate_splitOn, rootNamespace]
    · cases h
  · rintro ⟨hne, hclear, rfl⟩
    exact Expression.pathNames?_fullPath hne hclear

/-- One more name at the end of a path is one more name on it. -/
theorem pathNames?_joinPath {space name : String} (hdot : '.' ∉ name.toList) :
    pathNames? (joinPath space name)
      = if space = rootNamespace then some [name] else (pathNames? space).map (· ++ [name]) := by
  have hclear : Clear [name] := by simpa [Clear] using hdot
  split
  · next hroot =>
      have hfull : joinPath rootNamespace name = fullPath [name] :=
        (Expression.fullPath_append_singleton [] name).symm
      rw [hroot, hfull]
      exact Expression.pathNames?_fullPath (List.cons_ne_nil _ _) hclear
  · next hroot =>
      cases hspace : pathNames? space with
      | some names =>
          obtain ⟨hne, hnames, rfl⟩ := pathNames?_eq_some_iff.mp hspace
          rw [← Expression.fullPath_append_singleton]
          exact Expression.pathNames?_fullPath (by simp)
            (List.forall_mem_append.mpr ⟨hnames, hclear⟩)
      | none =>
          -- the names on the longer path would be those of the namespace and one more
          refine Option.eq_none_iff_forall_ne_some.mpr fun names hnames => ?_
          obtain ⟨hne, hnames, hpath⟩ := pathNames?_eq_some_iff.mp hnames
          obtain ⟨before, last, rfl⟩ := (List.eq_nil_or_concat' names).resolve_left hne
          obtain ⟨hbefore, hlast⟩ := List.forall_mem_append.mp hnames
          rw [Expression.fullPath_append_singleton] at hpath
          obtain ⟨rfl, -⟩ := eq_of_joinPath_eq hpath hdot (by simpa using hlast)
          have hnil : before = [] := by
            by_contra hne
            simp [Expression.pathNames?_fullPath hne hbefore] at hspace
          exact hroot (by rw [hnil]; rfl)

/-- A field is found by its path among the fields of the namespace that it lies in. -/
theorem node?_joinPath (selection : Selection) {space name : String} (hdot : '.' ∉ name.toList) :
    selection.node? (joinPath space name)
      = (selection.fieldsOf space).find? fun node => node.name = name := by
  rw [node?, pathNames?_joinPath hdot, fieldsOf]
  split
  · rfl
  · rw [node?]
    cases hspace : pathNames? space with
    | none => rfl
    | some names =>
        have hne := (pathNames?_eq_some_iff.mp hspace).1
        simp only [Option.map_some, Option.bind_some]
        rw [FieldNode.find?_append_singleton, FieldNode.levelAt_eq hne]

/-- The fields of a namespace are the level that the names on its full path lead to. -/
theorem fieldsOf_fullPath (selection : Selection) {path : Path} (h : Clear path) :
    selection.fieldsOf (fullPath path) = FieldNode.levelAt selection.fields path := by
  cases path with
  | nil => rfl
  | cons first rest =>
      have hnames := Expression.pathNames?_fullPath (List.cons_ne_nil first rest) h
      have hroot : fullPath (first :: rest) ≠ rootNamespace := fun hroot => by
        rw [hroot] at hnames
        cases hnames
      rw [fieldsOf, if_neg hroot, node?, hnames, Option.bind_some,
        FieldNode.levelAt_eq (List.cons_ne_nil _ _)]

/-- Fields are found in the namespaces of full paths only. -/
theorem exists_fullPath_of_mem_fieldsOf {selection : Selection} {space : String} {node : FieldNode}
    (h : node ∈ selection.fieldsOf space) : ∃ path, Clear path ∧ space = fullPath path := by
  rw [fieldsOf] at h
  split at h
  · next hroot => exact ⟨[], by simp [Clear], hroot⟩
  · rw [node?] at h
    cases hnames : pathNames? space with
    | none => simp [hnames] at h
    | some names => exact ⟨names, (pathNames?_eq_some_iff.mp hnames).2⟩

/-- What is found at a path stands there. -/
theorem occursAt_of_node? {selection : Selection} {path : String} {node : FieldNode}
    (h : selection.node? path = some node) :
    FieldNode.OccursAt selection.fields rootNamespace path node := by
  rw [node?, Option.bind_eq_some_iff] at h
  obtain ⟨names, hnames, hfind⟩ := h
  obtain ⟨-, -, rfl⟩ := pathNames?_eq_some_iff.mp hnames
  rw [← Expression.foldl_joinPath]
  exact FieldNode.occursAt_of_find? hfind

/-- The fields of every namespace of a declared selection are declared there. -/
theorem declared_fieldsOf {tree : FieldTree} {selection : Selection}
    (h : FieldNode.Declared tree rootNamespace selection.fields) (space : String) :
    FieldNode.Declared tree space (selection.fieldsOf space) := by
  rw [fieldsOf]
  split
  · next hroot => rwa [hroot]
  · cases hnode : selection.node? space with
    | none => exact .nil
    | some node => exact h.children (occursAt_of_node? hnode)

/-- The fields of a namespace are the fields that are found one name below it. -/
theorem mem_fieldsOf_iff {tree : FieldTree} {selection : Selection}
    (h : FieldNode.Declared tree rootNamespace selection.fields) {space : String}
    {node : FieldNode} :
    node ∈ selection.fieldsOf space ↔ selection.node? (joinPath space node.name) = some node := by
  constructor
  · intro hm
    have hdeclared := declared_fieldsOf h space
    rw [node?_joinPath selection (hdeclared.dot_notMem hm), hdeclared.find?_name hm]
  · intro hnode
    -- a field that is found has the last name of its path, so the name has no dot
    have hdot : '.' ∉ node.name.toList := by
      rw [node?, Option.bind_eq_some_iff] at hnode
      obtain ⟨names, hnames, hfind⟩ := hnode
      exact (pathNames?_eq_some_iff.mp hnames).2.1 _
        (List.mem_of_getLast? (FieldNode.getLast?_of_find? hfind))
    rw [node?_joinPath selection hdot] at hnode
    exact List.mem_of_find?_eq_some hnode

end Selection

end ResourceQuery
