import ResourceQuery.Proofs.Schema.Consistency

/-!
# The names below declared paths

The tree of declared fields is an index from paths to the names below them. A path is looked up as a
whole, so it is not plain from the look-up that the fields on the way to it are declared too, and
know of the next one. They do: declaring a field writes its name below the path that it is declared
in. `FieldTree.Linked` says so of a whole tree, `FieldTree.Linked.add` is the step, and
`FieldTree.Keeps` carries it along the declarations.

A field below which another one is declared is therefore nested, and nothing is declared below an
atomic field.

## Main statements

* `Schema.linked_fields`: the names below a path are all that lead to longer paths.
* `Schema.eq_nested_of_kind?`: a field below which another one is declared is nested.
-/

namespace ResourceQuery

namespace FieldTree

/-- Whether a path is in the tree. -/
def Has (tree : FieldTree) (path : String) : Prop :=
  (tree.index.get? path).isSome = true

/-- The names below a path are all that lead to longer paths of the tree. -/
def Linked (tree : FieldTree) : Prop :=
  ∀ space name, '.' ∉ name.toList → tree.Has (joinPath space name) → name ∈ tree.children space

/-- An addition adds one path, and its namespace. -/
theorem has_add {tree : FieldTree} {space name path : String} :
    (tree.add space name).Has path ↔ path = space ∨ path = joinPath space name ∨ tree.Has path := by
  simp only [Has, add, Entries.get?_put]
  by_cases hspace : space = path
  · simp [hspace]
  · by_cases hname : joinPath space name = path
    · simp [hspace, hname]
    · simp [hspace, hname, Ne.symm hspace, Ne.symm hname]

/-- An addition adds one name below its namespace, with nothing below it. -/
theorem children_add {tree : FieldTree} {space name path : String} :
    (tree.add space name).children path
      = if path = space then tree.children space ++ [name]
        else if path = joinPath space name then [] else tree.children path := by
  rw [children, add, Entries.get?_put, Entries.get?_put]
  by_cases hspace : path = space
  · rw [if_pos hspace.symm, if_pos hspace]
    rfl
  · rw [if_neg (Ne.symm hspace), if_neg hspace]
    by_cases hname : path = joinPath space name
    · rw [if_pos hname.symm, if_pos hname]
      rfl
    · rw [if_neg (Ne.symm hname), if_neg hname]
      rfl

/-- The tree without fields has the root. -/
theorem has_empty : empty.Has rootNamespace :=
  rfl

/-- The tree without fields is linked. -/
theorem linked_empty : empty.Linked := by
  intro space name _ hhas
  have hroot : joinPath space name = rootNamespace := by
    by_contra hne
    simp [Has, empty, Entries.get?, Ne.symm hne] at hhas
  have hdot : '.' ∈ (joinPath space name).toList := by simp [joinPath]
  rw [hroot] at hdot
  exact absurd hdot (by decide)

/-- **The step.** A new name below a path of the tree keeps the tree linked. -/
theorem Linked.add {tree : FieldTree} {space name : String} (h : tree.Linked)
    (hspace : tree.Has space) (hdot : '.' ∉ name.toList) (hnew : ¬tree.Has (joinPath space name)) :
    (tree.add space name).Linked := by
  intro above below hbelow hhas
  -- a path of the old tree has its last name where it had it
  have hold : tree.Has (joinPath above below) →
      below ∈ (tree.add space name).children above := by
    intro hpath
    have hmem : below ∈ tree.children above := h above below hbelow hpath
    rw [children_add]
    split
    · next hsame =>
        subst hsame
        exact List.mem_append_left _ hmem
    · split
      · next hsame =>
          have hnone : tree.children above = [] := by
            rw [children, hsame, Option.not_isSome_iff_eq_none.mp hnew]
            rfl
          rwa [hnone] at hmem
      · exact hmem
  rcases has_add.mp hhas with hself | hself | hpath
  · exact hold (hself ▸ hspace)
  · obtain ⟨rfl, rfl⟩ := eq_of_joinPath_eq hself hbelow hdot
    rw [children_add, if_pos rfl]
    exact List.mem_append_right _ (List.mem_singleton_self _)
  · exact hold hpath

/-- A name that is declared was not there before. -/
theorem not_has_of_declareName {tree tree' : FieldTree} {space name : String}
    (h : tree.declareName space name = .ok tree') : ¬tree.Has (joinPath space name) := by
  rw [declareName] at h
  split at h
  · cases h
  · split at h
    · cases h
    · next habsent => exact habsent

/-- What declarations keep of a tree: that it is linked, that no path stands twice in it, and its
paths. -/
structure Keeps (tree tree' : FieldTree) : Prop where
  linked : tree.Linked → tree'.Linked
  nodup : tree.index.keys.Nodup → tree'.index.keys.Nodup
  has : ∀ path, tree.Has path → tree'.Has path

/-- What is kept twice is kept. -/
theorem Keeps.trans {tree tree' tree'' : FieldTree} (h : Keeps tree tree')
    (h' : Keeps tree' tree'') : Keeps tree tree'' :=
  ⟨h'.linked ∘ h.linked, h'.nodup ∘ h.nodup, fun path hp => h'.has path (h.has path hp)⟩

/-- Declaring a name keeps what the tree has, and adds the path of the name. -/
theorem keeps_declareName {tree tree' : FieldTree} {space name : String} (hs : tree.Has space)
    (h : tree.declareName space name = .ok tree') :
    Keeps tree tree' ∧ tree'.Has (joinPath space name) := by
  obtain ⟨hname, rfl⟩ := declareName_eq_ok h
  refine ⟨⟨fun hlinked => ?_, fun hnodup => ?_, fun path hp => ?_⟩, ?_⟩
  · exact hlinked.add hs (dot_notMem_of_isFieldName hname) (not_has_of_declareName h)
  · exact Entries.nodup_keys_put (Entries.nodup_keys_put hnodup _ _) _ _
  · exact has_add.mpr (Or.inr (Or.inr hp))
  · exact has_add.mpr (Or.inr (Or.inl rfl))

/-- **The run.** Declarations keep a tree linked, and its paths. -/
theorem keeps_declareAll {tree tree' : FieldTree} {space : String}
    {declarations : List FieldDeclaration} (hs : tree.Has space)
    (hd : tree.declareAll space declarations = .ok tree') : Keeps tree tree' :=
  declareAll_run Has Keeps (fun _ => ⟨id, id, fun _ => id⟩) Keeps.trans keeps_declareName
    (fun hspace hkeeps => hkeeps.has _ hspace) declarations hs hd

end FieldTree

namespace Schema

variable {d : Definition} {schema : Schema}

/-- The tree of a built schema is linked. -/
theorem linked_fields (h : ofDefinition d = .ok schema) : schema.fields.Linked := by
  rcases fields_of_ofDefinition h with hempty | ⟨declarations, htree⟩
  · rw [hempty]
    exact FieldTree.linked_empty
  · exact (FieldTree.keeps_declareAll FieldTree.has_empty htree).linked FieldTree.linked_empty

/-- **A field below which another one is declared is nested.** -/
theorem eq_nested_of_kind? {space name : String} {kind below : FieldKind}
    (h : ofDefinition d = .ok schema) (hkind : schema.fields.kind? space = some kind)
    (hdot : '.' ∉ name.toList) (hbelow : schema.fields.kind? (joinPath space name) = some below) :
    kind = .nested := by
  rw [FieldTree.kind?] at hbelow hkind
  split at hbelow
  · cases hbelow
  · split at hkind
    · cases hkind
    · obtain ⟨names, hnames, rfl⟩ := Option.map_eq_some_iff.mp hkind
      obtain ⟨others, hothers, -⟩ := Option.map_eq_some_iff.mp hbelow
      have hmem : name ∈ schema.fields.children space :=
        linked_fields h space name hdot (Option.isSome_of_eq_some hothers)
      rw [FieldTree.children, hnames, Option.getD_some] at hmem
      simp [List.ne_nil_of_mem hmem]

end Schema

end ResourceQuery
