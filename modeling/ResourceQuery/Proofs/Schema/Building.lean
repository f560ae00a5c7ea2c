import ResourceQuery.Proofs.Schema.Consistency
import ResourceQuery.Proofs.Text.ByteOrder

/-!
# Schemas are built from consistent definitions

A schema is built exactly from the definitions whose sections are consistent
(`Definition.Consistent`). Otherwise the answer is the violation of the first check that fails
(`Definition.Violates`, `SchemaError.rank`). Each check has at most one violation, since of several
search targets without a field the least one counts, so the answer is determined.

A schema that is built realises its definition (`Schema.Realises`): it offers the capabilities of
the sections that are there, and what it finds under a name is what was declared for the name. A
search field is a target of its own, unless a named set of fields has taken its name.

Each section is checked by itself. What its check accepts and reports is one equivalence for each,
and `ofDefinition_eq_error_iff` puts them together in the order of the checks.

## Main definitions

* `Definition.Consistent`, `Definition.Violates`, `SchemaError.rank`.
* `Schema.Realises`: a schema offers what a definition declares.

## Main statements

* `SearchRules.get?_targetsOf`: what a search target stands for.
* `Schema.ofDefinition_spec`: when a schema is built, which failure there is otherwise, and that the
  schema realises its definition.
-/

namespace ResourceQuery

/-! ### What makes a definition consistent -/

/-- A target without a field, before all others of a search section by their bytes. -/
structure SearchDeclaration.LeastEmpty (d : SearchDeclaration) (target : String) : Prop where
  empty : d.targets.get? target = some []
  least : ∀ other, d.targets.get? other = some [] → other ≠ target →
    target.toUTF8.data.toList < other.toUTF8.data.toList

namespace Definition

/-- The sections of a definition are consistent: the declared fields make a tree, the default
ordering is by a sortable field, every named set of fields has a field, and the default target is a
search field or a named set. -/
structure Consistent (d : Definition) : Prop where
  fields : ∀ declarations, d.fields = some declarations →
    ∃ tree, FieldTree.ofDeclarations declarations = .ok tree
  fallback : ∀ sort fallback, d.sort = some sort → sort.fallback = some fallback →
    fallback.field ∈ sort.fields
  targets : ∀ search target, d.search = some search → search.targets.get? target ≠ some []
  defaultTarget : ∀ search target, d.search = some search → search.defaultTarget = some target →
    target ∈ search.fields ∨ ∃ fields, search.targets.get? target = some fields

/-- What is wrong with a definition. Of several targets without a field the least one counts. -/
inductive Violates (d : Definition) : SchemaError → Prop
  | fields {declarations : List FieldDeclaration} {e : FieldError} :
      d.fields = some declarations → FieldTree.ofDeclarations declarations = .error e →
      Violates d (.fields e)
  | unsortableDefault {sort : SortDeclaration} {fallback : DefaultSort} :
      d.sort = some sort → sort.fallback = some fallback → fallback.field ∉ sort.fields →
      Violates d (.unsortableDefault fallback.field)
  | emptySearchTarget {search : SearchDeclaration} {target : String} :
      d.search = some search → search.LeastEmpty target → Violates d (.emptySearchTarget target)
  | unknownDefaultTarget {search : SearchDeclaration} {target : String} :
      d.search = some search → search.defaultTarget = some target → target ∉ search.fields →
      search.targets.get? target = none → Violates d (.unknownDefaultTarget target)

/-- The section behind a capability is there. -/
def declares (d : Definition) : Capability → Bool
  | .selection => d.fields.isSome
  | .filtering => d.filters.isSome
  | .pagination => d.pagination.isSome
  | .sorting => d.sort.isSome
  | .search => d.search.isSome

end Definition

/-- The place of a check among the checks of a definition. -/
def SchemaError.rank : SchemaError → Nat
  | .fields _ => 0
  | .unsortableDefault _ => 1
  | .emptySearchTarget _ => 2
  | .unknownDefaultTarget _ => 3

/-- A schema offers what a definition declares. -/
structure Schema.Realises (schema : Schema) (d : Definition) : Prop where
  enabled : ∀ c, schema.enabled.isEnabled c = d.declares c
  filterable : ∀ field, (schema.filterRule? field).isSome = true ↔
    ∃ filters, d.filters = some filters ∧ (filters.get? field).isSome = true
  allowed : ∀ field rule, schema.filterRule? field = some rule →
    ∃ filters declaration, d.filters = some filters ∧ filters.get? field = some declaration ∧
      rule.type = declaration.type ∧
      ∀ op, rule.allows op = true ↔ declaration.operators = [] ∨ op ∈ declaration.operators
  sortable : ∀ field, schema.isSortable field = true ↔
    ∃ sort, d.sort = some sort ∧ field ∈ sort.fields
  defaultSort : ∀ key, schema.defaultSort = some key ↔
    ∃ sort fallback, d.sort = some sort ∧ sort.fallback = some fallback ∧
      key = ⟨some fallback.field, fallback.direction⟩
  defaultSortable : ∀ key, schema.defaultSort = some key →
    ∃ field, key.field = some field ∧ schema.isSortable field = true
  searchField : ∀ search field, d.search = some search → field ∈ search.fields →
    search.targets.get? field = none → schema.searchTarget? field = some [field]
  composite : ∀ search target fields, d.search = some search →
    search.targets.get? target = some fields → schema.searchTarget? target = some fields
  declaredTarget : ∀ target fields, schema.searchTarget? target = some fields →
    ∃ search, d.search = some search ∧
      (search.targets.get? target = some fields ∨ target ∈ search.fields ∧ fields = [target])
  resolves : ∀ target, schema.searchTarget? target ≠ some []
  defaultTarget : ∀ target, schema.defaultTarget = some target ↔
    ∃ search, d.search = some search ∧ search.defaultTarget = some target
  defaultResolves : ∀ target, schema.defaultTarget = some target →
    ∃ fields, schema.searchTarget? target = some fields

/-! ### The checks of the sections -/

/-- A section that is given is checked, and one that is missing is not. -/
theorem mapM_eq_error_iff {α β ε : Type} {f : α → Except ε β} {o : Option α} {e : ε} :
    o.mapM f = .error e ↔ ∃ a, o = some a ∧ f a = .error e := by
  cases o with
  | none => simp [pure, Except.pure]
  | some a => cases hf : f a <;> simp [Option.mapM_some, hf, Functor.map, Except.map]

/-- A step on a value that may be missing succeeds without a value, or with the step. -/
theorem mapM_eq_ok_iff {α β ε : Type} {f : α → Except ε β} {o : Option α} {r : Option β} :
    o.mapM f = .ok r ↔ o = none ∧ r = none ∨ ∃ a b, o = some a ∧ r = some b ∧ f a = .ok b := by
  cases o with
  | none => simp [pure, Except.pure, eq_comm]
  | some a => cases hf : f a <;> simp [Option.mapM_some, hf, Functor.map, Except.map, eq_comm]

/-- When a step on a value succeeds, it does so on the value that is there. -/
theorem exists_of_mapM_eq_ok {α β ε : Type} {f : α → Except ε β} {o : Option α} {r : Option β}
    {a : α} (h : o.mapM f = .ok r) (ho : o = some a) : ∃ b, r = some b ∧ f a = .ok b := by
  rcases mapM_eq_ok_iff.mp h with ⟨hnone, -⟩ | ⟨a', b, ha, hr, hf⟩
  · cases ho.symm.trans hnone
  · obtain rfl := Option.some.inj (ho.symm.trans ha)
    exact ⟨b, hr, hf⟩

/-- A step that succeeds leaves a value exactly where there was one. -/
theorem isSome_of_mapM_eq_ok {α β ε : Type} {f : α → Except ε β} {o : Option α} {r : Option β}
    (h : o.mapM f = .ok r) : r.isSome = o.isSome := by
  rcases mapM_eq_ok_iff.mp h with ⟨rfl, rfl⟩ | ⟨a, b, rfl, rfl, -⟩ <;> rfl

/-- An error of a field is the error of a schema that says so, and no other. -/
theorem mapError_eq_error_iff {α : Type} {r : Except FieldError α} {e : SchemaError} :
    r.mapError SchemaError.fields = .error e ↔ ∃ e', r = .error e' ∧ e = .fields e' := by
  cases r <;> simp [Except.mapError, eq_comm]

/-- Turning errors of fields into errors of schemas leaves results as they are. -/
theorem mapError_eq_ok_iff {α : Type} {r : Except FieldError α} {a : α} :
    r.mapError SchemaError.fields = .ok a ↔ r = .ok a := by
  cases r <;> simp [Except.mapError]

/-- The rule of a declaration allows the listed operators, and all when none is listed. -/
theorem FilterRule.allows_ofDeclaration {d : FilterDeclaration} {op : Operator} :
    (ofDeclaration d).allows op = true ↔ d.operators = [] ∨ op ∈ d.operators := by
  rw [allows, ofDeclaration]
  cases d.operators <;> simp

namespace SortRules

/-- The only error of sort rules is a default field that is not sortable. -/
theorem ofDeclaration_eq_error_iff {d : SortDeclaration} {e : SchemaError} :
    ofDeclaration d = .error e ↔
      ∃ fallback, d.fallback = some fallback ∧ fallback.field ∉ d.fields ∧
        e = .unsortableDefault fallback.field := by
  rw [ofDeclaration]
  cases d.fallback with
  | none => simp
  | some fallback => by_cases hm : fallback.field ∈ d.fields <;> simp [hm, eq_comm]

/-- Sort rules have a sortable default field, and are made of what was declared. -/
theorem ofDeclaration_eq_ok {d : SortDeclaration} {rules : SortRules}
    (h : ofDeclaration d = .ok rules) :
    (∀ fallback, d.fallback = some fallback → fallback.field ∈ d.fields) ∧
      rules = ⟨d.fields, d.fallback.map fun fallback => ⟨fallback.field, fallback.direction⟩⟩ := by
  rw [ofDeclaration] at h
  cases hfallback : d.fallback with
  | none =>
      rw [hfallback] at h
      exact ⟨by simp, (Except.ok.inj h).symm⟩
  | some fallback =>
      rw [hfallback] at h
      by_cases hm : fallback.field ∈ d.fields
      · simp only [hm, if_true, Except.ok.injEq] at h
        exact ⟨fun _ heq => Option.some.inj heq ▸ hm, h.symm⟩
      · simp [hm] at h

end SortRules

namespace SearchRules

/-- **What a search target stands for**: the named set of the name, or else the field itself. -/
theorem get?_targetsOf (d : SearchDeclaration) (target : String) :
    (targetsOf d).get? target
      = (d.targets.get? target).or (if target ∈ d.fields then some [target] else none) := by
  have hfields : (SortedEntries.ofWrites (d.fields.map fun field => (field, [field]))).get? target
      = if target ∈ d.fields then some [target] else none := by
    have hagree : ∀ w, (target, w) ∈ d.fields.map (fun field => (field, [field])) →
        w = [target] := by
      intro w hm
      obtain ⟨field, -, heq⟩ := List.mem_map.mp hm
      obtain ⟨rfl, rfl⟩ := Prod.mk.inj heq
      rfl
    rw [SortedEntries.ofWrites, SortedEntries.get?_foldl_put hagree]
    simp [Entries.keys, SortedEntries.empty, SortedEntries.get?, Function.comp_def]
  cases hget : d.targets.get? target with
  | none =>
      have hnone : target ∉ d.targets.entries.keys := by
        rw [← Entries.isSome_get?_iff]
        simp [show d.targets.entries.get? target = none from hget]
      have hagree : ∀ w, (target, w) ∈ d.targets.entries → w = [] :=
        fun w hm => absurd (List.mem_map.mpr ⟨_, hm, rfl⟩) hnone
      rw [targetsOf, SortedEntries.get?_foldl_put hagree, if_neg hnone, hfields, Option.none_or]
  | some fields =>
      have hsome : target ∈ d.targets.entries.keys := by
        rw [← Entries.isSome_get?_iff]
        simp [show d.targets.entries.get? target = some fields from hget]
      have hagree : ∀ w, (target, w) ∈ d.targets.entries → w = fields := by
        intro w hm
        rw [SortedEntries.mem_entries_iff, hget] at hm
        exact (Option.some.inj hm).symm
      rw [targetsOf, SortedEntries.get?_foldl_put hagree, if_pos hsome, Option.some_or]

/-- A search target is a field to search in, or has declared fields. -/
theorem contains_targetsOf_iff {d : SearchDeclaration} {target : String} :
    (targetsOf d).contains target = true ↔
      target ∈ d.fields ∨ ∃ fields, d.targets.get? target = some fields := by
  have hcontains : (targetsOf d).contains target = ((targetsOf d).get? target).isSome := rfl
  rw [hcontains, get?_targetsOf]
  cases d.targets.get? target <;> simp

/-- The check for targets without a field finds the least one. -/
theorem find?_isEmpty_eq_some_iff {d : SearchDeclaration} {target : String}
    {fields : List String} :
    d.targets.entries.find? (fun (_, fields) => fields.isEmpty) = some (target, fields) ↔
      fields = [] ∧ d.LeastEmpty target := by
  refine (@SortedEntries.find?_eq_some_iff _ d.targets List.isEmpty target fields).trans ?_
  constructor
  · rintro ⟨hget, hempty, hleast⟩
    obtain rfl := List.isEmpty_iff.mp hempty
    exact ⟨rfl, hget, fun other hother hne =>
      Text.lt_iff_bytes_lt.mp (hleast other [] hother rfl hne)⟩
  · rintro ⟨rfl, hget, hleast⟩
    refine ⟨hget, rfl, fun other w hother hw hne => ?_⟩
    obtain rfl := List.isEmpty_iff.mp hw
    exact Text.lt_iff_bytes_lt.mpr (hleast other hother hne)

/-- When no target without fields is found, no target is declared without fields. -/
theorem find?_isEmpty_eq_none_iff {d : SearchDeclaration} :
    d.targets.entries.find? (fun (_, fields) => fields.isEmpty) = none ↔
      ∀ target, d.targets.get? target ≠ some [] := by
  rw [List.find?_eq_none]
  constructor
  · intro h target hget
    exact h _ (SortedEntries.mem_entries_iff.mpr hget) rfl
  · rintro h ⟨target, fields⟩ hm hempty
    obtain rfl := List.isEmpty_iff.mp hempty
    exact h target (SortedEntries.mem_entries_iff.mp hm)

/-- The errors of search rules: a target without fields comes before a default that is no target. -/
theorem ofDeclaration_eq_error_iff {d : SearchDeclaration} {e : SchemaError} :
    ofDeclaration d = .error e ↔
      (∃ target, d.LeastEmpty target ∧ e = .emptySearchTarget target) ∨
        (∀ target, d.targets.get? target ≠ some []) ∧
          ∃ target, d.defaultTarget = some target ∧
            ¬(target ∈ d.fields ∨ ∃ fields, d.targets.get? target = some fields) ∧
            e = .unknownDefaultTarget target := by
  rw [ofDeclaration, ← find?_isEmpty_eq_none_iff]
  cases hfind : d.targets.entries.find? fun (_, fields) => fields.isEmpty with
  | some entry =>
      obtain ⟨target, fields⟩ := entry
      obtain ⟨rfl, hleast⟩ := find?_isEmpty_eq_some_iff.mp hfind
      constructor
      · intro h
        exact Or.inl ⟨target, hleast, (Except.error.inj h).symm⟩
      · rintro (⟨other, hother, rfl⟩ | ⟨hnone, -⟩)
        · rw [find?_isEmpty_eq_some_iff.mpr ⟨rfl, hother⟩] at hfind
          rw [(Prod.mk.inj (Option.some.inj hfind)).1]
        · cases hnone
  | none =>
      have hempty : ¬∃ target, d.LeastEmpty target ∧ e = .emptySearchTarget target := by
        rintro ⟨target, hleast, -⟩
        exact find?_isEmpty_eq_none_iff.mp hfind target hleast.empty
      rw [or_iff_right hempty, and_iff_right rfl]
      cases d.defaultTarget with
      | none => simp
      | some target =>
          simp only [Option.some.injEq, exists_eq_left', ← contains_targetsOf_iff]
          cases (targetsOf d).contains target <;> simp [eq_comm]

/-- Search rules have targets with fields and a default that is one of them, and are made of what
was declared. -/
theorem ofDeclaration_eq_ok {d : SearchDeclaration} {rules : SearchRules}
    (h : ofDeclaration d = .ok rules) :
    (∀ target, d.targets.get? target ≠ some []) ∧
      (∀ target, d.defaultTarget = some target →
        target ∈ d.fields ∨ ∃ fields, d.targets.get? target = some fields) ∧
      rules = ⟨targetsOf d, d.defaultTarget⟩ := by
  rw [← find?_isEmpty_eq_none_iff]
  rw [ofDeclaration] at h
  split at h
  · cases h
  · next hfind =>
      refine ⟨hfind, ?_⟩
      simp only [← contains_targetsOf_iff]
      cases hdefault : d.defaultTarget with
      | none =>
          rw [hdefault] at h
          exact ⟨by simp, (Except.ok.inj h).symm⟩
      | some target =>
          rw [hdefault] at h
          cases hcontains : (targetsOf d).contains target with
          | false => simp [hcontains] at h
          | true =>
              simp only [hcontains, if_true, Except.ok.injEq] at h
              exact ⟨fun _ heq => Option.some.inj heq ▸ hcontains, h.symm⟩

end SearchRules

/-! ### The checks of a definition -/

namespace Schema

/-- **The first check that fails is the answer.** -/
theorem ofDefinition_eq_error_iff {d : Definition} {e : SchemaError} :
    ofDefinition d = .error e ↔
      (d.fields.mapM fun declarations =>
          (FieldTree.ofDeclarations declarations).mapError SchemaError.fields) = .error e ∨
        (∃ fieldTree, (d.fields.mapM fun declarations =>
          (FieldTree.ofDeclarations declarations).mapError SchemaError.fields) = .ok fieldTree) ∧
          (d.sort.mapM SortRules.ofDeclaration = .error e ∨
            (∃ sortRules, d.sort.mapM SortRules.ofDeclaration = .ok sortRules) ∧
              d.search.mapM SearchRules.ofDeclaration = .error e) := by
  rw [ofDefinition]
  cases hf : d.fields.mapM fun declarations =>
      (FieldTree.ofDeclarations declarations).mapError SchemaError.fields with
  | error e' => simp [bind, Except.bind]
  | ok fieldTree =>
      cases hs : d.sort.mapM SortRules.ofDeclaration with
      | error e' => simp [bind, Except.bind]
      | ok sortRules =>
          cases hq : d.search.mapM SearchRules.ofDeclaration <;>
            simp [bind, Except.bind, pure, Except.pure]

end Schema

namespace Definition

variable {d : Definition} {e e' : SchemaError}

/-! Each check is passed or has a violation of its rank. -/

/-- Declared fields that pass make a tree. -/
theorem fields_of_mapM {r : Option FieldTree} (h : (d.fields.mapM fun declarations =>
      (FieldTree.ofDeclarations declarations).mapError SchemaError.fields) = .ok r) :
    ∀ declarations, d.fields = some declarations →
      ∃ tree, FieldTree.ofDeclarations declarations = .ok tree := by
  intro declarations hsection
  obtain ⟨tree, -, hok⟩ := exists_of_mapM_eq_ok h hsection
  exact ⟨tree, mapError_eq_ok_iff.mp hok⟩

/-- Declared orderings that pass have a sortable default field. -/
theorem fallback_of_mapM {r : Option SortRules}
    (h : d.sort.mapM SortRules.ofDeclaration = .ok r) :
    ∀ sort fallback, d.sort = some sort → sort.fallback = some fallback →
      fallback.field ∈ sort.fields := by
  intro sort fallback hsection hfallback
  obtain ⟨rules, -, hok⟩ := exists_of_mapM_eq_ok h hsection
  exact (SortRules.ofDeclaration_eq_ok hok).1 fallback hfallback

/-- When the fields pass, no violation is about them. -/
theorem Violates.rank_ne_zero (h : d.Violates e)
    (hpassed : ∀ declarations, d.fields = some declarations →
      ∃ tree, FieldTree.ofDeclarations declarations = .ok tree) : e.rank ≠ 0 := by
  intro hrank
  cases h with
  | fields hsection herror =>
      obtain ⟨tree, hok⟩ := hpassed _ hsection
      cases hok.symm.trans herror
  | _ => cases hrank

/-- When the default ordering passes, no violation is about it. -/
theorem Violates.rank_ne_one (h : d.Violates e)
    (hpassed : ∀ sort fallback, d.sort = some sort → sort.fallback = some fallback →
      fallback.field ∈ sort.fields) : e.rank ≠ 1 := by
  intro hrank
  cases h with
  | unsortableDefault hsection hfallback hnot => exact hnot (hpassed _ _ hsection hfallback)
  | _ => cases hrank

/-- When no target is without fields, no violation is about that. -/
theorem Violates.rank_ne_two (h : d.Violates e)
    (hpassed : ∀ search target, d.search = some search →
      search.targets.get? target ≠ some []) : e.rank ≠ 2 := by
  intro hrank
  cases h with
  | emptySearchTarget hsection hleast => exact hpassed _ _ hsection hleast.empty
  | _ => cases hrank

/-- When the default target passes, no violation is about it. -/
theorem Violates.rank_ne_three (h : d.Violates e)
    (hpassed : ∀ search target, d.search = some search → search.defaultTarget = some target →
      target ∈ search.fields ∨ ∃ fields, search.targets.get? target = some fields) :
    e.rank ≠ 3 := by
  intro hrank
  cases h with
  | unknownDefaultTarget hsection hdefault hfield htarget =>
      rcases hpassed _ _ hsection hdefault with hm | ⟨fields, hget⟩
      · exact hfield hm
      · cases htarget.symm.trans hget
  | _ => cases hrank

/-- Nothing is wrong with a consistent definition. -/
theorem Consistent.not_violates (h : d.Consistent) : ¬d.Violates e := by
  intro hviolates
  have hfields := hviolates.rank_ne_zero h.fields
  have hsort := hviolates.rank_ne_one h.fallback
  have htargets := hviolates.rank_ne_two h.targets
  have hdefault := hviolates.rank_ne_three h.defaultTarget
  cases e <;> simp_all [SchemaError.rank]

/-- Each check has one violation at most. -/
theorem Violates.eq_of_rank (h : d.Violates e) (h' : d.Violates e') (hrank : e.rank = e'.rank) :
    e = e' := by
  cases h with
  | fields hsection herror =>
      cases h' with
      | fields hsection' herror' =>
          obtain rfl := Option.some.inj (hsection.symm.trans hsection')
          rw [Except.error.inj (herror.symm.trans herror')]
      | _ => cases hrank
  | unsortableDefault hsection hfallback _ =>
      cases h' with
      | unsortableDefault hsection' hfallback' _ =>
          obtain rfl := Option.some.inj (hsection.symm.trans hsection')
          rw [Option.some.inj (hfallback.symm.trans hfallback')]
      | _ => cases hrank
  | @emptySearchTarget search target hsection hleast =>
      cases h' with
      | @emptySearchTarget _ target' hsection' hleast' =>
          obtain rfl := Option.some.inj (hsection.symm.trans hsection')
          by_cases heq : target = target'
          · rw [heq]
          · have hlt := hleast.least target' hleast'.empty (Ne.symm heq)
            exact absurd (hleast'.least target hleast.empty heq) (List.lt_asymm hlt)
      | _ => cases hrank
  | unknownDefaultTarget hsection hdefault _ _ =>
      cases h' with
      | unknownDefaultTarget hsection' hdefault' _ _ =>
          obtain rfl := Option.some.inj (hsection.symm.trans hsection')
          rw [Option.some.inj (hdefault.symm.trans hdefault')]
      | _ => cases hrank

end Definition

namespace Schema

/-- The definition of a schema is consistent. -/
theorem consistent_of_ofDefinition {d : Definition} {schema : Schema}
    (h : ofDefinition d = .ok schema) : d.Consistent := by
  obtain ⟨hfields, hsort, hsearch⟩ := ofDefinition_eq_ok h
  refine ⟨Definition.fields_of_mapM hfields, Definition.fallback_of_mapM hsort,
    fun search target hsection => ?_, fun search target hsection hdefault => ?_⟩
  · obtain ⟨rules, -, hok⟩ := exists_of_mapM_eq_ok hsearch hsection
    exact (SearchRules.ofDeclaration_eq_ok hok).1 target
  · obtain ⟨rules, -, hok⟩ := exists_of_mapM_eq_ok hsearch hsection
    exact (SearchRules.ofDeclaration_eq_ok hok).2.1 target hdefault

/-- **The failure is a violation, and no check before it fails.** -/
theorem violates_of_ofDefinition {d : Definition} {e : SchemaError}
    (h : ofDefinition d = .error e) :
    d.Violates e ∧ ∀ e', d.Violates e' → e.rank ≤ e'.rank := by
  rcases ofDefinition_eq_error_iff.mp h with hfields | ⟨⟨fieldTree, hfields⟩, h⟩
  · obtain ⟨declarations, hsection, herror⟩ := mapM_eq_error_iff.mp hfields
    obtain ⟨e', hfailed, rfl⟩ := mapError_eq_error_iff.mp herror
    exact ⟨.fields hsection hfailed, fun _ _ => Nat.zero_le _⟩
  have hzero := fun e' (h : d.Violates e') => h.rank_ne_zero (Definition.fields_of_mapM hfields)
  rcases h with hsort | ⟨⟨sortRules, hsort⟩, hsearch⟩
  · obtain ⟨sort, hsection, herror⟩ := mapM_eq_error_iff.mp hsort
    obtain ⟨fallback, hfallback, hnot, rfl⟩ := SortRules.ofDeclaration_eq_error_iff.mp herror
    exact ⟨.unsortableDefault hsection hfallback hnot,
      fun e' hviolates => Nat.one_le_iff_ne_zero.mpr (hzero e' hviolates)⟩
  have hone := fun e' (h : d.Violates e') => h.rank_ne_one (Definition.fallback_of_mapM hsort)
  obtain ⟨search, hsection, herror⟩ := mapM_eq_error_iff.mp hsearch
  rcases SearchRules.ofDeclaration_eq_error_iff.mp herror with
    ⟨target, hleast, rfl⟩ | ⟨hnonempty, target, hdefault, hunknown, rfl⟩
  · refine ⟨.emptySearchTarget hsection hleast, fun e' hviolates => ?_⟩
    have hrank : SchemaError.rank (.emptySearchTarget target) = 2 := rfl
    have hfirst := hzero e' hviolates
    have hsecond := hone e' hviolates
    omega
  · obtain ⟨hfield, hnone⟩ := not_or.mp hunknown
    have hget : search.targets.get? target = none :=
      Option.eq_none_iff_forall_ne_some.mpr fun fields hsome => hnone ⟨fields, hsome⟩
    refine ⟨.unknownDefaultTarget hsection hdefault hfield hget, fun e' hviolates => ?_⟩
    have hrank : SchemaError.rank (.unknownDefaultTarget target) = 3 := rfl
    have hfirst := hzero e' hviolates
    have hsecond := hone e' hviolates
    have hthird : e'.rank ≠ 2 := by
      refine hviolates.rank_ne_two fun search' target' hsection' => ?_
      obtain rfl := Option.some.inj (hsection.symm.trans hsection')
      exact hnonempty target'
    omega

/-! ### What a built schema offers -/

section Built

variable {d : Definition} {schema : Schema}

/-- The rules of a built schema, as its definition declares them. -/
theorem rules_of_ofDefinition (h : ofDefinition d = .ok schema) :
    schema.filterRules = d.filters.map (fun filters =>
        filters.entries.map fun (field, declaration) => (field, .ofDeclaration declaration)) ∧
      schema.bounds = d.pagination ∧
      schema.sortRules = d.sort.map (fun sort => ⟨sort.fields,
        sort.fallback.map fun fallback => ⟨fallback.field, fallback.direction⟩⟩) ∧
      schema.searchRules = d.search.map fun search =>
        ⟨SearchRules.targetsOf search, search.defaultTarget⟩ := by
  obtain ⟨hf, hs, hq⟩ := ofDefinition_eq_ok h
  have hschema := h
  rw [ofDefinition, hf, hs, hq] at hschema
  have hschema := Except.ok.inj hschema
  refine ⟨by rw [← hschema], by rw [← hschema], ?_, ?_⟩
  · rcases mapM_eq_ok_iff.mp hs with ⟨hnone, hr⟩ | ⟨sort, rules, hsome, hr, hok⟩
    · rw [hnone, hr, Option.map_none]
    · rw [hsome, hr, Option.map_some, (SortRules.ofDeclaration_eq_ok hok).2]
  · rcases mapM_eq_ok_iff.mp hq with ⟨hnone, hr⟩ | ⟨search, rules, hsome, hr, hok⟩
    · rw [hnone, hr, Option.map_none]
    · rw [hsome, hr, Option.map_some, (SearchRules.ofDeclaration_eq_ok hok).2.2]

/-- The rule of a field is made of its declaration. -/
theorem filterRule?_of_ofDefinition (h : ofDefinition d = .ok schema) (field : String) :
    schema.filterRule? field
      = (d.filters.bind fun filters => filters.get? field).map .ofDeclaration := by
  rw [filterRule?, (rules_of_ofDefinition h).1]
  cases d.filters with
  | none => rfl
  | some filters => exact Entries.get?_map _ _ _

/-- A target has its declared fields, or else the field of that name if it is to be searched in. -/
theorem searchTarget?_of_ofDefinition (h : ofDefinition d = .ok schema) (target : String) :
    schema.searchTarget? target = d.search.bind fun search =>
      (search.targets.get? target).or (if target ∈ search.fields then some [target] else none) := by
  rw [searchTarget?, (rules_of_ofDefinition h).2.2.2, Option.bind_map]
  cases d.search with
  | none => rfl
  | some search => exact SearchRules.get?_targetsOf search target

/-- **A built schema offers what its definition declares.** -/
theorem realises_of_ofDefinition (h : ofDefinition d = .ok schema) : schema.Realises d where
  enabled c := by
    obtain ⟨hfields, -, -⟩ := ofDefinition_eq_ok h
    obtain ⟨hfilters, hbounds, hsort, hsearch⟩ := rules_of_ofDefinition h
    rw [isEnabled_enabled]
    cases c with
    | selection => exact isSome_of_mapM_eq_ok hfields
    | filtering => simp [offers, Definition.declares, hfilters]
    | pagination => simp [offers, Definition.declares, hbounds]
    | sorting => simp [offers, Definition.declares, hsort]
    | search => simp [offers, Definition.declares, hsearch]
  filterable field := by
    rw [filterRule?_of_ofDefinition h]
    cases d.filters <;> simp
  allowed field rule hrule := by
    rw [filterRule?_of_ofDefinition h, Option.map_eq_some_iff] at hrule
    obtain ⟨declaration, hdeclared, rfl⟩ := hrule
    obtain ⟨filters, hfilters, hget⟩ := Option.bind_eq_some_iff.mp hdeclared
    exact ⟨filters, declaration, hfilters, hget, rfl, fun op => FilterRule.allows_ofDeclaration⟩
  sortable field := by
    rw [isSortable, (rules_of_ofDefinition h).2.2.1]
    cases d.sort <;> simp
  defaultSort key := by
    rw [defaultSort, (rules_of_ofDefinition h).2.2.1]
    cases d.sort with
    | none => simp
    | some sort => cases hfallback : sort.fallback <;> simp [hfallback, eq_comm]
  defaultSortable key := isSortable_of_defaultSort h
  searchField search field hsection hm hnone := by
    rw [searchTarget?_of_ofDefinition h, hsection, Option.bind_some, hnone, if_pos hm,
      Option.none_or]
  composite search target fields hsection hget := by
    rw [searchTarget?_of_ofDefinition h, hsection, Option.bind_some, hget, Option.some_or]
  declaredTarget target fields htarget := by
    rw [searchTarget?_of_ofDefinition h, Option.bind_eq_some_iff] at htarget
    obtain ⟨search, hsection, htarget⟩ := htarget
    refine ⟨search, hsection, ?_⟩
    rcases Option.or_eq_some_iff.mp htarget with hget | ⟨-, hfield⟩
    · exact Or.inl hget
    · obtain ⟨hm, hfields⟩ := Option.ite_none_right_eq_some.mp hfield
      exact Or.inr ⟨hm, (Option.some.inj hfields).symm⟩
  resolves target htarget := searchTarget?_ne_nil h htarget rfl
  defaultTarget target := by
    rw [defaultTarget, (rules_of_ofDefinition h).2.2.2]
    cases d.search <;> simp
  defaultResolves target htarget := by
    rw [defaultTarget, (rules_of_ofDefinition h).2.2.2] at htarget
    cases hsection : d.search with
    | none => simp [hsection] at htarget
    | some search =>
        have hdefault : search.defaultTarget = some target := by simpa [hsection] using htarget
        rw [searchTarget?_of_ofDefinition h, hsection, Option.bind_some]
        rcases (consistent_of_ofDefinition h).defaultTarget _ _ hsection hdefault with
          hm | ⟨fields, hget⟩
        · cases hget : search.targets.get? target <;> simp [hm]
        · exact ⟨fields, by rw [hget, Option.some_or]⟩

end Built

/-- **Schemas are built from consistent definitions.** A schema is built exactly from the consistent
definitions. Otherwise the failure is the violation of the first check that fails. And a schema that
is built offers what its definition declares. -/
theorem ofDefinition_spec (d : Definition) :
    ((∃ schema, ofDefinition d = .ok schema) ↔ d.Consistent) ∧
      (∀ e, ofDefinition d = .error e ↔
        d.Violates e ∧ ∀ e', d.Violates e' → e.rank ≤ e'.rank) ∧
      ∀ schema, ofDefinition d = .ok schema → schema.Realises d := by
  refine ⟨⟨fun ⟨schema, h⟩ => consistent_of_ofDefinition h, fun h => ?_⟩, fun e =>
    ⟨violates_of_ofDefinition, fun ⟨hviolates, hfirst⟩ => ?_⟩,
    fun schema => realises_of_ofDefinition⟩
  · cases hbuilt : ofDefinition d with
    | ok schema => exact ⟨schema, rfl⟩
    | error e => exact absurd (violates_of_ofDefinition hbuilt).1 h.not_violates
  · cases hbuilt : ofDefinition d with
    | ok schema => exact absurd hviolates (consistent_of_ofDefinition hbuilt).not_violates
    | error e' =>
        -- both violations are of the first check that fails, and it has only one
        obtain ⟨hviolates', hfirst'⟩ := violates_of_ofDefinition hbuilt
        rw [hviolates.eq_of_rank hviolates'
          (Nat.le_antisymm (hfirst e' hviolates') (hfirst' e hviolates))]

/-- A definition with all sections, in which a named set of fields has the name of a field. -/
def wares : Definition where
  resource := "wares"
  fields := some [.atomic "name", .nested "price" [.atomic "amount"]]
  filters := some ((SortedEntries.empty.put "price" ⟨[.gte, .lte], some .integer⟩).put "name" {})
  pagination := some ⟨some 50⟩
  sort := some ⟨["price", "name"], some ⟨"price", .descending⟩⟩
  search := some ⟨["name", "tags"], SortedEntries.empty.put "name" ["name", "title"], some "tags"⟩

/-- The definition without a field for two of its targets, and with a default target that there is
not. -/
def emptyWares : Definition :=
  { wares with search := some ⟨["name"],
      ((SortedEntries.empty.put "é" []).put "zone" []).put "name" ["title"], some "tags"⟩ }

/-- The definition has a schema, in which the named set has replaced the field. Among the targets
without a field, the one whose name has the least bytes is the failure, before the default
target. -/
theorem ofDefinition_spec_wares :
    (∃ schema, ofDefinition wares = .ok schema ∧ schema.Realises wares ∧
      schema.searchTarget? "name" = some ["name", "title"] ∧
      schema.searchTarget? "tags" = some ["tags"]) ∧
      ofDefinition emptyWares = .error (.emptySearchTarget "zone") ∧
      emptyWares.Violates (.emptySearchTarget "zone") := by
  have hbuilt : ofDefinition wares = .ok _ := rfl
  have hfailed : ofDefinition emptyWares = .error (.emptySearchTarget "zone") := rfl
  exact ⟨⟨_, hbuilt, (ofDefinition_spec wares).2.2 _ hbuilt, rfl, rfl⟩, hfailed,
    (((ofDefinition_spec emptyWares).2.1 _).mp hfailed).1⟩

end Schema

end ResourceQuery
