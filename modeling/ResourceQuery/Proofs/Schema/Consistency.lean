import ResourceQuery.Proofs.Entries
import ResourceQuery.Proofs.Schema.Declaring
import ResourceQuery.Proofs.Text.Cutting
import ResourceQuery.Schema.Basic

/-!
# Consistency of schemas

A schema is built from a definition that has been checked, so it says less than its type allows:
the ordering it falls back to is by a sortable field, every search target stands for at least one
field, and every declared path ends in a valid field name. Readers rely on these facts at request
time and do not check them again.

The field tree is built by declaring one field after the other. What one declaration preserves is
`WellNamed.add`, and `wellNamed_declareAll` carries it to the whole tree.

## Main statements

* `Schema.ofDefinition_eq_ok`: the sections that a built schema is made of.
* `Schema.isSortable_of_defaultSort`: the default ordering is by a sortable field.
* `Schema.searchTarget?_ne_nil`: a search target stands for at least one field.
* `Schema.isFieldName_of_kind?`: a declared path ends in a valid field name.
-/

namespace ResourceQuery

/-- A section that has been read was given, and its reading succeeded. -/
theorem exists_of_mapM_eq_some {α β ε : Type} {f : α → Except ε β} {o : Option α} {b : β}
    (h : o.mapM f = .ok (some b)) : ∃ a, o = some a ∧ f a = .ok b := by
  cases o with
  | none => cases h
  | some a =>
      cases hf : f a with
      | error e => simp [Option.mapM_some, hf, Functor.map, Except.map] at h
      | ok b' =>
          simp only [Option.mapM_some, hf, Functor.map, Except.map, Except.ok.injEq,
            Option.some.injEq] at h
          exact ⟨a, rfl, h ▸ hf⟩

namespace Schema

/-- The sections of a built schema that are checked: each is absent as in the definition, or was
made from the section of the definition. -/
theorem ofDefinition_eq_ok {d : Definition} {schema : Schema} (h : ofDefinition d = .ok schema) :
    (d.fields.mapM fun declarations =>
      (FieldTree.ofDeclarations declarations).mapError SchemaError.fields) = .ok schema.fieldTree ∧
      d.sort.mapM SortRules.ofDeclaration = .ok schema.sortRules ∧
      d.search.mapM SearchRules.ofDeclaration = .ok schema.searchRules := by
  rw [ofDefinition] at h
  cases hf : d.fields.mapM fun declarations =>
      (FieldTree.ofDeclarations declarations).mapError SchemaError.fields with
  | error e => rw [hf] at h; cases h
  | ok fieldTree =>
      cases hs : d.sort.mapM SortRules.ofDeclaration with
      | error e => rw [hf, hs] at h; cases h
      | ok sortRules =>
          cases hq : d.search.mapM SearchRules.ofDeclaration with
          | error e => rw [hf, hs, hq] at h; cases h
          | ok searchRules =>
              rw [hf, hs, hq] at h
              obtain rfl := Except.ok.inj h
              exact ⟨rfl, rfl, rfl⟩

end Schema

/-! ### The default ordering -/

/-- The rules of a declaration fall back to one of their own fields. -/
theorem SortRules.fallback_mem {d : SortDeclaration} {rules : SortRules} {key : SortKey}
    (h : SortRules.ofDeclaration d = .ok rules) (hk : rules.fallback = some key) :
    ∃ field, key.field = some field ∧ field ∈ rules.fields := by
  rw [SortRules.ofDeclaration] at h
  split at h
  · obtain rfl := Except.ok.inj h
    simp at hk
  · next field direction _ =>
      split at h
      · next hm =>
          obtain rfl := Except.ok.inj h
          obtain rfl := Option.some.inj hk
          exact ⟨field, rfl, hm⟩
      · cases h

/-- **The default ordering is by a sortable field.** -/
theorem Schema.isSortable_of_defaultSort {d : Definition} {schema : Schema} {key : SortKey}
    (h : ofDefinition d = .ok schema) (hk : schema.defaultSort = some key) :
    ∃ field, key.field = some field ∧ schema.isSortable field = true := by
  obtain ⟨-, hsort, -⟩ := ofDefinition_eq_ok h
  obtain ⟨rules, hrules, hfallback⟩ := Option.bind_eq_some_iff.mp hk
  rw [hrules] at hsort
  obtain ⟨declaration, -, hok⟩ := exists_of_mapM_eq_some hsort
  obtain ⟨field, hfield, hmem⟩ := SortRules.fallback_mem hok hfallback
  exact ⟨field, hfield, by simp [isSortable, hrules, hmem]⟩

/-! ### Search targets -/

/-- What holds of the entries and of all writes holds of the entries after the writes. -/
theorem SortedEntries.forall_foldl_put {α : Type} {P : String × α → Prop}
    {writes : List (String × α)} {sorted : SortedEntries α} (hw : ∀ write ∈ writes, P write)
    (hs : ∀ entry ∈ sorted.entries, P entry) :
    ∀ entry ∈ (writes.foldl (fun sorted (name, v) => sorted.put name v) sorted).entries,
      P entry := by
  induction writes generalizing sorted with
  | nil => exact hs
  | cons write rest ih =>
      refine ih (fun w hm => hw w (List.mem_cons_of_mem _ hm)) fun entry hm => ?_
      rcases Entries.mem_putSorted hm with rfl | hold
      · exact hw _ List.mem_cons_self
      · exact hs entry hold

/-- The targets of a declaration whose named sets are not empty stand for fields. -/
theorem SearchRules.targetsOf_ne_nil {d : SearchDeclaration}
    (h : ∀ entry ∈ d.targets.entries, entry.2 ≠ []) :
    ∀ entry ∈ (targetsOf d).entries, entry.2 ≠ [] := by
  refine SortedEntries.forall_foldl_put h (SortedEntries.forall_foldl_put ?_ ?_)
  · intro write hm
    obtain ⟨field, -, rfl⟩ := List.mem_map.mp hm
    simp
  · simp [SortedEntries.empty]

/-- The rules of a declaration have the targets of the declaration, none of which is empty. -/
theorem SearchRules.targets_ne_nil {d : SearchDeclaration} {rules : SearchRules}
    (h : SearchRules.ofDeclaration d = .ok rules) :
    ∀ entry ∈ rules.targets.entries, entry.2 ≠ [] := by
  rw [SearchRules.ofDeclaration] at h
  split at h
  · cases h
  · next hfind =>
      -- the check for an empty target has found none
      have hne : ∀ entry ∈ d.targets.entries, entry.2 ≠ [] := by
        intro entry hm hnil
        simpa [hnil] using List.find?_eq_none.mp hfind entry hm
      split at h
      · obtain rfl := Except.ok.inj h
        exact targetsOf_ne_nil hne
      · split at h
        · obtain rfl := Except.ok.inj h
          exact targetsOf_ne_nil hne
        · cases h

/-- **A search target stands for at least one field.** -/
theorem Schema.searchTarget?_ne_nil {d : Definition} {schema : Schema} {target : String}
    {fields : List String} (h : ofDefinition d = .ok schema)
    (ht : schema.searchTarget? target = some fields) : fields ≠ [] := by
  obtain ⟨-, -, hsearch⟩ := ofDefinition_eq_ok h
  obtain ⟨rules, hrules, hget⟩ := Option.bind_eq_some_iff.mp ht
  rw [hrules] at hsearch
  obtain ⟨declaration, -, hok⟩ := exists_of_mapM_eq_some hsearch
  exact SearchRules.targets_ne_nil hok _ (Entries.mem_of_get? hget)

/-! ### Declared paths -/

/-- A path that a field can be declared below: the namespace of the resource itself, or one that
ends in a valid field name. -/
def IsSpace (path : String) : Prop :=
  path = rootNamespace ∨ ∃ space name, path = joinPath space name ∧ isFieldName name = true

namespace FieldTree

/-- Every path of a tree is one that a field can be declared below. -/
def WellNamed (tree : FieldTree) : Prop :=
  ∀ path ∈ tree.index.keys, IsSpace path

/-- The tree without fields is well named. -/
theorem wellNamed_empty : empty.WellNamed := by
  intro path hm
  exact Or.inl (by simpa [empty, Entries.keys] using hm)

/-- Writing under a path that a field can be declared below keeps a tree well named. -/
theorem WellNamed.put {tree : FieldTree} {path : String} {names : List String}
    (h : tree.WellNamed) (hp : IsSpace path) : WellNamed ⟨tree.index.put path names⟩ := by
  intro key hm
  rw [Entries.keys_put] at hm
  split at hm
  · exact h key hm
  · rcases List.mem_append.mp hm with hm | hm
    · exact h key hm
    · rw [List.mem_singleton.mp hm]
      exact hp

/-- **The step.** A field with a valid name keeps a tree well named. -/
theorem WellNamed.add {tree : FieldTree} {space name : String} (h : tree.WellNamed)
    (hs : IsSpace space) (hn : isFieldName name = true) : (tree.add space name).WellNamed :=
  (h.put (Or.inr ⟨space, name, rfl, hn⟩)).put hs

/-- **The run.** Declarations keep a tree well named. -/
theorem wellNamed_declareAll {tree tree' : FieldTree} {space : String}
    {declarations : List FieldDeclaration} (hs : IsSpace space) (h : tree.WellNamed)
    (hd : tree.declareAll space declarations = .ok tree') : tree'.WellNamed := by
  refine declareAll_run (fun _ space => IsSpace space)
    (fun tree tree' => tree.WellNamed → tree'.WellNamed) (fun _ => id)
    (fun hfirst hrest => hrest ∘ hfirst) (fun hspace hname => ?_) (fun hspace _ => hspace)
    declarations hs hd h
  obtain ⟨hn, rfl⟩ := declareName_eq_ok hname
  exact ⟨fun hwell => hwell.add hspace hn, Or.inr ⟨_, _, rfl, hn⟩⟩

end FieldTree

/-- The tree of a built schema is the empty one, or that of some declarations. -/
theorem Schema.fields_of_ofDefinition {d : Definition} {schema : Schema}
    (h : ofDefinition d = .ok schema) :
    schema.fields = FieldTree.empty ∨
      ∃ declarations, FieldTree.ofDeclarations declarations = .ok schema.fields := by
  obtain ⟨hfields, -, -⟩ := ofDefinition_eq_ok h
  rw [fields]
  cases hsection : schema.fieldTree with
  | none => exact Or.inl rfl
  | some tree =>
      rw [hsection] at hfields
      obtain ⟨declarations, -, hok⟩ := exists_of_mapM_eq_some hfields
      cases htree : FieldTree.ofDeclarations declarations with
      | error e => rw [htree] at hok; cases hok
      | ok tree' =>
          rw [htree] at hok
          obtain rfl := Except.ok.inj hok
          exact Or.inr ⟨declarations, htree⟩

/-- The fields of a built schema are well named. -/
theorem Schema.wellNamed_fields {d : Definition} {schema : Schema}
    (h : ofDefinition d = .ok schema) : schema.fields.WellNamed := by
  rcases fields_of_ofDefinition h with hempty | ⟨declarations, htree⟩
  · rw [hempty]
    exact FieldTree.wellNamed_empty
  · exact FieldTree.wellNamed_declareAll (Or.inl rfl) FieldTree.wellNamed_empty htree

/-- The characters of a valid field name are neither blank nor ones that paths are written with. -/
theorem of_mem_isFieldName {name : String} {c : Char} (h : isFieldName name = true)
    (hc : c ∈ name.toList) : Text.isBlank c = false ∧ isPathChar c = false := by
  simp only [isFieldName, Bool.and_eq_true, Bool.not_eq_true', List.any_eq_false,
    Bool.or_eq_true, not_or, Bool.not_eq_true] at h
  exact h.2 c hc

/-- A valid field name is not empty. -/
theorem toList_ne_nil_of_isFieldName {name : String} (h : isFieldName name = true) :
    name.toList ≠ [] := by
  simp only [isFieldName, Bool.and_eq_true, decide_eq_true_eq] at h
  exact fun hnil => h.1.1 (String.toList_eq_nil_iff.mp hnil)

/-- A valid field name has no dot. -/
theorem dot_notMem_of_isFieldName {name : String} (h : isFieldName name = true) :
    '.' ∉ name.toList :=
  fun hc => absurd (of_mem_isFieldName h hc).2 (by decide)

/-- A path without a dot behind the joint can be joined in one way only. -/
theorem eq_of_joinPath_eq {space space' name name' : String}
    (h : joinPath space name = joinPath space' name') (hn : '.' ∉ name.toList)
    (hn' : '.' ∉ name'.toList) : space = space' ∧ name = name' := by
  have hlists : space.toList ++ '.' :: name.toList = space'.toList ++ '.' :: name'.toList := by
    simpa [joinPath] using congrArg String.toList h
  have hcut : Text.cutLast '.' (space.toList ++ '.' :: name.toList)
      = some (space.toList, name.toList) := Text.cutLast_append hn
  rw [hlists, Text.cutLast_append hn'] at hcut
  simp only [Option.some.injEq, Prod.mk.injEq, String.toList_inj] at hcut
  exact ⟨hcut.1.symm, hcut.2.symm⟩

/-- **A declared path ends in a valid field name**, wherever it is cut in front of a text without a
dot. -/
theorem Schema.isFieldName_of_kind? {d : Definition} {schema : Schema} {space name : String}
    {kind : FieldKind} (h : ofDefinition d = .ok schema)
    (hk : schema.fields.kind? (joinPath space name) = some kind) (hn : '.' ∉ name.toList) :
    isFieldName name = true := by
  rw [FieldTree.kind?] at hk
  split at hk
  · cases hk
  · next hroot =>
      obtain ⟨names, hget, -⟩ := Option.map_eq_some_iff.mp hk
      have hkey : joinPath space name ∈ schema.fields.index.keys :=
        List.mem_map.mpr ⟨_, Entries.mem_of_get? hget, rfl⟩
      rcases wellNamed_fields h _ hkey with hr | ⟨space', name', hjoin, hvalid⟩
      · exact absurd hr hroot
      · obtain ⟨-, rfl⟩ := eq_of_joinPath_eq hjoin hn (dot_notMem_of_isFieldName hvalid)
        exact hvalid

end ResourceQuery
