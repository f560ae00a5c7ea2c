import ResourceQuery.Proofs.Filter.Reading
import ResourceQuery.Sample
import ResourceQuery.Specification

/-!
# Capabilities are independent of each other

A capability reads its own section of the schema and its own parameters, and reports under its own
name. So what a specification says about it, and the faults it reports, depend on nothing else: not
on the other sections, not on parameters with other names, and not on what goes wrong with them.

The statement compares two runs, with two schemas and two requests. It is put together from two
facts about each reader, that it returns the same for schemas and requests that agree on what is its
own, and that all of its faults are of its capability. Schemas agree on a section when it answers
alike, however it is written down.

## Main definitions

* `Capability.paramsOf`: the names of the parameters of a capability.
* `Schema.AgreeOn`: two schemas have the same to say about a capability.
* `Specification.SameFragment`: two specifications have the same part for a capability.

## Main statements

* `Specification.capability_of_mem_faultsOf`: a reader's faults are of its capability.
* `Specification.ofCapability_report`: a capability's faults in a report are those of its reader.
* `Specification.independent`: the fragment and the faults of a capability depend on its own section
  and parameters only.
-/

namespace ResourceQuery

/-! ### What is a capability's own -/

/-- The names of the parameters of a capability. -/
def Capability.paramsOf (names : ParamNames) : Capability → List String
  | .selection => [names.select]
  | .filtering => [names.filter]
  | .pagination => [names.limit, names.offset]
  | .sorting => [names.sort]
  | .search => [names.search]

/-- Two rules allow the same operators and coerce to the same type. -/
structure FilterRule.Agrees (rule rule' : FilterRule) : Prop where
  allows : ∀ op, rule.allows op = rule'.allows op
  type : rule.type = rule'.type

namespace Schema

/-- Two schemas have the same section for a capability. -/
def SameSection (schema schema' : Schema) : Capability → Prop
  | .selection => ∀ path, schema.fields.kind? path = schema'.fields.kind? path
  | .filtering =>
    ∀ field, Option.Rel FilterRule.Agrees (schema.filterRule? field) (schema'.filterRule? field)
  | .pagination => schema.maxLimit = schema'.maxLimit
  | .sorting =>
    (∀ field, schema.isSortable field = schema'.isSortable field) ∧
      schema.defaultSort = schema'.defaultSort
  | .search =>
    (∀ target, schema.searchTarget? target = schema'.searchTarget? target) ∧
      schema.defaultTarget = schema'.defaultTarget

/-- Two schemas have the same to say about a capability: whether it is enabled, its section, and the
names of its parameters. -/
structure AgreeOn (c : Capability) (schema schema' : Schema) : Prop where
  enabled : schema.enabled.isEnabled c = schema'.enabled.isEnabled c
  sameSection : schema.SameSection schema' c
  params : c.paramsOf schema.params = c.paramsOf schema'.params

end Schema

/-- Two specifications have the same part for a capability. -/
def Specification.SameFragment (c : Capability) (spec spec' : Specification) : Prop :=
  match c with
  | .selection => spec.selection = spec'.selection
  | .filtering => spec.filters = spec'.filters
  | .pagination => spec.window = spec'.window
  | .sorting => spec.sort = spec'.sort
  | .search => spec.search = spec'.search

/-! ### Faults are of the capability that reads -/

/-- All faults of a reading are of one capability. -/
def Reading.Blames {α : Type} (c : Capability) (reading : Reading α) : Prop :=
  ∀ fault ∈ reading.faults, fault.capability = c

/-- A reading without faults blames no other capability. -/
theorem Reading.blames_clean {α : Type} (c : Capability) (output : α) :
    (Reading.clean output).Blames c :=
  fun _ h => absurd h List.not_mem_nil

/-- A reading with one fault blames the capability of the fault. -/
theorem Reading.blames_singleton {α : Type} {c : Capability} (output : α) {fault : Fault}
    (h : fault.capability = c) : (Reading.mk output [fault]).Blames c := by
  intro found hfound
  rw [List.mem_singleton.mp hfound]
  exact h

namespace Selection

/-- The faults of a selection expression are about the selection. -/
theorem blames_readExpression (param expression : String) :
    (readExpression param expression).Blames .selection := by
  unfold readExpression
  split
  · exact Reading.blames_clean _ _
  · exact Reading.blames_singleton _ rfl

/-- The faults of a selection are about the selection. -/
theorem blames_read (schema : Schema) (request : Request) :
    (read schema request).Blames .selection := by
  have hpaths : ∀ param given, (readPaths param given).Blames .selection := by
    intro param given
    unfold readPaths
    split
    · exact Reading.blames_clean _ _
    · exact Reading.blames_clean _ _
    · exact blames_readExpression param _
    · next items =>
        intro fault hfault
        obtain ⟨item, -, hitem⟩ := List.mem_flatMap.mp hfault
        unfold readItem at hitem
        split at hitem
        · exact blames_readExpression param _ fault hitem
        · exact Reading.blames_singleton _ rfl fault hitem
    · exact Reading.blames_singleton _ rfl
  exact hpaths _ _

end Selection

namespace Filter

/-- An outcome about a field has a fault of this capability, if it has one. -/
theorem Outcome.About.capability {field : String} {asked : Option Operator} {outcome : Outcome}
    (h : outcome.About field asked) : ∀ fault ∈ fault? outcome, fault.capability = .filtering := by
  rintro fault hfault
  cases outcome with
  | ok p => cases hfault
  | error found =>
      obtain rfl := Option.some.inj hfault
      exact h.1

/-- The outcomes of the parameter are about fields, or about the parameter itself. -/
theorem Origin.exists_about {schema : Schema} {param : String} {outcome : Outcome}
    (h : Origin schema param outcome) : ∃ field asked, outcome.About field asked := by
  cases h with
  | entry field token given => exact ⟨field, _, about_entryOutcome schema field token given⟩
  | operator field => exact ⟨field, none, rfl, rfl⟩
  | parameter cause => exact ⟨param, none, rfl, rfl⟩

/-- The faults of filters are about filtering. -/
theorem blames_read (schema : Schema) (request : Request) :
    (read schema request).Blames .filtering := by
  intro fault hfault
  obtain ⟨outcome, hmem, hfound⟩ := List.mem_filterMap.mp hfault
  obtain ⟨field, asked, habout⟩ := (origin_of_mem_outcomes hmem).exists_about
  exact habout.capability fault hfound

end Filter

namespace Window

/-- The faults of a window are about pagination. -/
theorem blames_read (schema : Schema) (request : Request) :
    (read schema request).Blames .pagination := by
  have hcount : ∀ param count, ∀ fault ∈ CountParam.faults param count,
      fault.capability = .pagination := by
    intro param count fault hfault
    cases count with
    | invalid given =>
        rw [List.mem_singleton.mp hfault]
        rfl
    | _ => cases hfault
  have hbounded : ∀ param maximum limit, (boundedLimit param maximum limit).Blames .pagination := by
    intro param maximum limit
    unfold boundedLimit
    split
    · split
      · exact Reading.blames_singleton _ rfl
      · exact Reading.blames_clean _ _
    · exact Reading.blames_clean _ _
  intro fault hfault
  rcases List.mem_append.mp hfault with hfault | hfault
  · rcases List.mem_append.mp hfault with hfault | hfault
    · exact hcount _ _ fault hfault
    · exact hcount _ _ fault hfault
  · exact hbounded _ _ _ fault hfault

end Window

namespace SortKey

/-- The faults of a field and a direction are about sorting. -/
theorem blames_validate (schema : Schema) (field : String) (token : Option String) :
    (validate schema field token).Blames .sorting := by
  have hfield : ∀ fault ∈ fieldFaults schema field, fault.capability = .sorting := by
    intro fault hfault
    unfold fieldFaults at hfault
    split at hfault
    · cases hfault
    · rw [List.mem_singleton.mp hfault]
      rfl
  have hdirection : (readDirection field token).Blames .sorting := by
    unfold readDirection
    split
    · exact Reading.blames_clean _ _
    · exact Reading.blames_clean _ _
    · split
      · exact Reading.blames_clean _ _
      · exact Reading.blames_singleton _ rfl
  unfold validate
  dsimp only
  split
  · exact Reading.blames_clean _ _
  · intro fault hfault
    rcases List.mem_append.mp hfault with hfault | hfault
    · exact hfield fault hfault
    · exact hdirection fault hfault

/-- The faults of an ordering are about sorting. -/
theorem blames_read (schema : Schema) (request : Request) :
    (read schema request).Blames .sorting := by
  have hmember : ∀ field member, (ofDirectionMember schema field member).Blames .sorting := by
    intro field member
    unfold ofDirectionMember
    split
    · exact blames_validate schema field none
    · exact blames_validate schema field none
    · exact blames_validate schema field _
    · exact Reading.blames_singleton _ rfl
  unfold read
  split
  · exact Reading.blames_clean _ _
  · exact Reading.blames_clean _ _
  · unfold ofText
    dsimp only
    split
    · exact Reading.blames_clean _ _
    · exact blames_validate schema _ _
  · unfold ofObject
    split
    · exact Reading.blames_clean _ _
    · exact Reading.blames_clean _ _
    · split
      · exact Reading.blames_clean _ _
      · exact hmember _ _
    · exact Reading.blames_singleton _ rfl
  · exact Reading.blames_singleton _ rfl

end SortKey

namespace SearchTerm

/-- The faults of a value and a target are about search. -/
theorem blames_resolve (schema : Schema) (named : Option String) (value : String) :
    (resolve schema named value).Blames .search := by
  unfold resolve
  split
  · exact Reading.blames_clean _ _
  · split
    · exact Reading.blames_singleton _ rfl
    · split
      · exact Reading.blames_clean _ _
      · exact Reading.blames_singleton _ rfl

/-- The faults of a search are about search. -/
theorem blames_read (schema : Schema) (request : Request) :
    (read schema request).Blames .search := by
  have hmember : ∀ named member, (ofValueMember schema named member).Blames .search := by
    intro named member
    unfold ofValueMember
    split
    · exact Reading.blames_clean _ _
    · exact Reading.blames_clean _ _
    · exact blames_resolve schema named _
    · exact blames_resolve schema named _
    · exact blames_resolve schema named _
    · exact Reading.blames_singleton _ rfl
  unfold read
  split
  · exact Reading.blames_clean _ _
  · exact Reading.blames_clean _ _
  · exact blames_resolve schema none _
  · unfold ofObject
    split
    · exact hmember _ _
    · exact hmember _ _
    · exact hmember _ _
    · exact Reading.blames_singleton _ rfl
  · exact Reading.blames_singleton _ rfl

end SearchTerm

/-! ### Readers see their own section and parameters -/

section

variable {schema schema' : Schema} {request request' : Request}

/-- The selection depends on which fields are declared. -/
theorem Selection.read_congr (hsection : schema.SameSection schema' .selection)
    (hselect : schema.params.select = schema'.params.select)
    (hvalue : request.get? schema.params.select = request'.get? schema.params.select) :
    read schema request = read schema' request' := by
  have hresolve : ∀ names space,
      resolve? schema.fields space names = resolve? schema'.fields space names := by
    intro names
    induction names with
    | nil => exact fun _ => rfl
    | cons name rest ih =>
        intro space
        rw [resolve?, resolve?, hsection, ih]
  have hinsert : insertDeclared schema.fields = insertDeclared schema'.fields := by
    funext selection path
    rw [insertDeclared, insertDeclared, hresolve]
  unfold read
  rw [← hselect, hvalue, hinsert]

/-- What comes of an operator entry depends on the rule of its field. -/
theorem Filter.entryOutcome_congr (hsection : schema.SameSection schema' .filtering) :
    entryOutcome schema = entryOutcome schema' := by
  have hread : ∀ field token given, Predicate.readEntry schema field token given
      = Predicate.readEntry schema' field token given := by
    intro field token given
    have hrule := hsection field
    unfold Predicate.readEntry
    cases hold : schema.filterRule? field with
    | none =>
        cases hnew : schema'.filterRule? field with
        | none => rfl
        | some rule' => rw [hold, hnew] at hrule; cases hrule
    | some rule =>
        cases hnew : schema'.filterRule? field with
        | none => rw [hold, hnew] at hrule; cases hrule
        | some rule' =>
            rw [hold, hnew] at hrule
            cases hrule with
            | some hagrees => simp only [hagrees.allows, hagrees.type]
  funext field token given
  rw [entryOutcome, entryOutcome, hread]

/-- The filters depend on the rules of the fields. -/
theorem Filter.read_congr (hsection : schema.SameSection schema' .filtering)
    (hfilter : schema.params.filter = schema'.params.filter)
    (hvalue : request.get? schema.params.filter = request'.get? schema.params.filter) :
    read schema request = read schema' request' := by
  have hentry := entryOutcome_congr hsection
  have htagged : taggedOutcome schema = taggedOutcome schema' := by
    funext field tag members
    unfold taggedOutcome
    rw [hentry]
  have hfield : fieldOutcomes schema = fieldOutcomes schema' := by
    funext field asked
    unfold fieldOutcomes
    rw [htagged, hentry]
  have hlist : listOutcome schema = listOutcome schema' := by
    funext param entry
    unfold listOutcome
    rw [htagged]
  have houtcomes : outcomes schema = outcomes schema' := by
    funext param given
    unfold outcomes
    rw [hfield, hlist]
  unfold read
  dsimp only
  rw [← hfilter, hvalue, houtcomes]

/-- The window depends on the largest limit. -/
theorem Window.read_congr (hsection : schema.SameSection schema' .pagination)
    (hlimit : schema.params.limit = schema'.params.limit)
    (hoffset : schema.params.offset = schema'.params.offset)
    (hlimitValue : request.get? schema.params.limit = request'.get? schema.params.limit)
    (hoffsetValue : request.get? schema.params.offset = request'.get? schema.params.offset) :
    read schema request = read schema' request' := by
  have hmaximum : schema.maxLimit = schema'.maxLimit := hsection
  unfold read
  dsimp only
  rw [← hlimit, ← hoffset, hlimitValue, hoffsetValue, hmaximum]

/-- The ordering depends on the sortable fields and on the default ordering. -/
theorem SortKey.read_congr (hsection : schema.SameSection schema' .sorting)
    (hsort : schema.params.sort = schema'.params.sort)
    (hvalue : request.get? schema.params.sort = request'.get? schema.params.sort) :
    read schema request = read schema' request' := by
  obtain ⟨hsortable, hdefault⟩ := hsection
  have hfallback : fallback schema = fallback schema' := by
    rw [fallback, fallback, hdefault]
  have hvalidate : validate schema = validate schema' := by
    funext field token
    unfold validate fieldFaults
    rw [hsortable]
  have htext : ofText schema = ofText schema' := by
    funext text
    unfold ofText
    rw [hfallback, hvalidate]
  have hmember : ofDirectionMember schema = ofDirectionMember schema' := by
    funext field member
    unfold ofDirectionMember
    rw [hvalidate]
  have hobject : ofObject schema = ofObject schema' := by
    funext members
    unfold ofObject
    rw [hfallback, hmember, hsort]
  unfold read
  rw [hfallback, htext, hobject, ← hsort, hvalue]

/-- The search depends on the targets and on the default target. -/
theorem SearchTerm.read_congr (hsection : schema.SameSection schema' .search)
    (hsearch : schema.params.search = schema'.params.search)
    (hvalue : request.get? schema.params.search = request'.get? schema.params.search) :
    read schema request = read schema' request' := by
  obtain ⟨htarget, hdefault⟩ := hsection
  have hresolve : resolve schema = resolve schema' := by
    funext named text
    have htargetOf : targetOf? schema named = targetOf? schema' named := by
      rw [targetOf?, targetOf?, hdefault]
    unfold resolve
    rw [htargetOf, hsearch]
    simp only [htarget]
  have hmember : ofValueMember schema = ofValueMember schema' := by
    funext named member
    unfold ofValueMember
    rw [hresolve, hsearch]
  have hobject : ofObject schema = ofObject schema' := by
    funext members
    unfold ofObject
    rw [hmember, hsearch]
  unfold read
  rw [hresolve, hobject, ← hsearch, hvalue]

end

/-! ### Faults of one capability -/

/-- In a list without repetitions a capability stands once, if at all. -/
theorem Capability.flatMap_ite {α : Type} {cs : List Capability} (h : cs.Nodup) (c : Capability)
    (own : List α) :
    (cs.flatMap fun d => if d = c then own else []) = if c ∈ cs then own else [] := by
  induction cs with
  | nil => simp
  | cons d ds ih =>
      obtain ⟨hnotMem, hds⟩ := List.nodup_cons.mp h
      rw [List.flatMap_cons, ih hds]
      by_cases hd : d = c
      · subst hd
        simp [hnotMem]
      · simp [hd, Ne.symm hd]

namespace Specification

/-- **A reader's faults are of its capability.** -/
theorem capability_of_mem_faultsOf {schema : Schema} {request : Request} {c : Capability}
    {fault : Fault} (h : fault ∈ faultsOf schema request c) : fault.capability = c := by
  cases c with
  | selection => exact Selection.blames_read schema request fault h
  | filtering => exact Filter.blames_read schema request fault h
  | pagination => exact Window.blames_read schema request fault h
  | sorting => exact SortKey.blames_read schema request fault h
  | search => exact SearchTerm.blames_read schema request fault h

/-- **A capability's faults in a report are those of its reader**, if it is enabled; otherwise there
are none. -/
theorem ofCapability_report (schema : Schema) (request : Request) (c : Capability) :
    (ofRequest schema request).report.ofCapability c
      = if schema.enabled.isEnabled c then faultsOf schema request c else [] := by
  have hown : ∀ d, (faultsOf schema request d).filter (fun fault => fault.capability = c)
      = if d = c then faultsOf schema request c else [] := by
    intro d
    split
    · next heq =>
        subst heq
        exact List.filter_eq_self.mpr fun fault h => decide_eq_true (capability_of_mem_faultsOf h)
    · next hne =>
        refine List.filter_eq_nil_iff.mpr fun fault h => ?_
        rw [capability_of_mem_faultsOf h]
        simpa using hne
  have hreport : (ofRequest schema request).report.ofCapability c
      = schema.enabled.enabled.flatMap fun d =>
          if d = c then faultsOf schema request c else [] := by
    rw [Report.ofCapability, ofRequest, List.filter_flatMap]
    exact List.flatMap_congr fun d _ => hown d
  have honce : schema.enabled.enabled.Nodup :=
    List.filter_sublist.nodup (by decide : Capability.all.Nodup)
  rw [hreport, Capability.flatMap_ite honce]
  simp [CapabilitySet.isEnabled]

section

variable {schema schema' : Schema} {request request' : Request} {c : Capability}

/-- The reader of a capability returns the same for two schemas and two requests. -/
def SameReading (schema schema' : Schema) (request request' : Request) : Capability → Prop
  | .selection => Selection.read schema request = Selection.read schema' request'
  | .filtering => Filter.read schema request = Filter.read schema' request'
  | .pagination => Window.read schema request = Window.read schema' request'
  | .sorting => SortKey.read schema request = SortKey.read schema' request'
  | .search => SearchTerm.read schema request = SearchTerm.read schema' request'

/-- A reader returns the same for what agrees on its section and its parameters. -/
theorem sameReading_of_agreeOn (hschema : schema.AgreeOn c schema')
    (hrequest : ∀ name ∈ c.paramsOf schema.params, request.get? name = request'.get? name) :
    SameReading schema schema' request request' c := by
  obtain ⟨-, hsection, hparams⟩ := hschema
  cases c with
  | selection =>
      obtain ⟨hselect, -⟩ := List.cons.inj hparams
      exact Selection.read_congr hsection hselect (hrequest _ (List.mem_singleton_self _))
  | filtering =>
      obtain ⟨hfilter, -⟩ := List.cons.inj hparams
      exact Filter.read_congr hsection hfilter (hrequest _ (List.mem_singleton_self _))
  | pagination =>
      obtain ⟨hlimit, hrest⟩ := List.cons.inj hparams
      obtain ⟨hoffset, -⟩ := List.cons.inj hrest
      exact Window.read_congr hsection hlimit hoffset (hrequest _ List.mem_cons_self)
        (hrequest _ (List.mem_cons_of_mem _ (List.mem_singleton_self _)))
  | sorting =>
      obtain ⟨hsort, -⟩ := List.cons.inj hparams
      exact SortKey.read_congr hsection hsort (hrequest _ (List.mem_singleton_self _))
  | search =>
      obtain ⟨hsearch, -⟩ := List.cons.inj hparams
      exact SearchTerm.read_congr hsection hsearch (hrequest _ (List.mem_singleton_self _))

/-- The same reading has the same faults. -/
theorem SameReading.faultsOf_eq (h : SameReading schema schema' request request' c) :
    faultsOf schema request c = faultsOf schema' request' c := by
  cases c <;> exact congrArg Reading.faults h

/-- The same reading gives the same part, if it is enabled in both schemas or in neither. -/
theorem SameReading.sameFragment (h : SameReading schema schema' request request' c)
    (henabled : schema.enabled.isEnabled c = schema'.enabled.isEnabled c) :
    (ofRequest schema request).SameFragment c (ofRequest schema' request') := by
  have hpart : ∀ {α : Type} {part part' : α}, part = part' →
      ifEnabled schema c part = ifEnabled schema' c part' := by
    rintro α part - rfl
    rw [ifEnabled, ifEnabled, henabled]
  cases c with
  | selection => exact hpart (congrArg Reading.output h)
  | filtering => exact congrArg (Option.getD · []) (hpart (congrArg Reading.output h))
  | pagination => exact hpart (congrArg Reading.output h)
  | sorting => exact hpart (congrArg Reading.output h)
  | search => exact congrArg Option.join (hpart (congrArg Reading.output h))

/-- **Capabilities do not interfere.** If two schemas have the same to say about a capability, and
two requests have the same values under the names of its parameters, or none, the two specifications
have the same part for it and report the same faults of it, in the same order. The schemas and the
requests may differ in everything else. -/
theorem independent (hschema : schema.AgreeOn c schema')
    (hrequest : ∀ name ∈ c.paramsOf schema.params, request.get? name = request'.get? name) :
    (ofRequest schema request).SameFragment c (ofRequest schema' request') ∧
      (ofRequest schema request).report.ofCapability c
        = (ofRequest schema' request').report.ofCapability c := by
  have hreading := sameReading_of_agreeOn hschema hrequest
  refine ⟨hreading.sameFragment hschema.enabled, ?_⟩
  rw [ofCapability_report, ofCapability_report, hschema.enabled, hreading.faultsOf_eq]

end

/-- A definition that shares the pagination section of `Sample.minimal` only: it has no field and no
sort key, and the parameter for its filters has the name of the one for the limit. -/
def crowded : Definition :=
  ({ resource := "orders", params := { filter := "limit" } } : Definition)
    |>.withFilter "total" {}
    |>.withPagination none

/-- What is no filter is still a limit, and the fault about the filter is not one of pagination. -/
theorem independent_crowded :
    ∃ schema schema', Schema.ofDefinition Sample.minimal = .ok schema ∧
      Schema.ofDefinition crowded = .ok schema' ∧
      (ofRequest schema' ⟨[("limit", .string "10")]⟩).window = some ⟨some 10, none⟩ ∧
      (ofRequest schema' ⟨[("limit", .string "10")]⟩).report.size = 1 ∧
      (ofRequest schema ⟨[("limit", .string "10"), ("sort", .string "total")]⟩).SameFragment
        .pagination (ofRequest schema' ⟨[("limit", .string "10")]⟩) ∧
      (ofRequest schema ⟨[("limit", .string "10"), ("sort", .string "total")]⟩).report.ofCapability
          .pagination
        = (ofRequest schema' ⟨[("limit", .string "10")]⟩).report.ofCapability .pagination := by
  refine ⟨_, _, rfl, rfl, rfl, rfl, independent (c := .pagination) ⟨rfl, rfl, rfl⟩ ?_⟩
  intro name hname
  rcases List.mem_cons.mp hname with rfl | hname
  · rfl
  · rw [List.mem_singleton.mp hname]
    rfl

end Specification

end ResourceQuery
