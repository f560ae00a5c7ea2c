import ResourceQuery.Proofs.Entries
import ResourceQuery.Proofs.Filter.Scalar
import ResourceQuery.Proofs.Parameters
import ResourceQuery.Proofs.Selection.Tree
import ResourceQuery.Sample
import ResourceQuery.Specification

/-!
# Normal forms of requests

A request that has no faults can be written in one form for each parameter: the selection as the
list of its dotted leaf paths, the filters as a list of tagged entries, limit and offset as numbers,
the ordering and the search as objects, leaving out what the schema supplies by itself. This is
`Specification.toRequest`. Reading it gives back the specification that was written, so the normal
form is a fixed point of reading and writing.

The proof goes by parameters: each reader, given the normal form of what it returned, returns the
same again. The parameters are found under their own names, which have to be distinct.

## Main definitions

* `Specification.toRequest`: the normal form of a request.

## Main statements

* `Specification.ofRequest_toRequest`: reading the normal form gives the specification back.
-/

namespace ResourceQuery

/-! ### The normal form -/

/-- The names of all parameters. -/
def ParamNames.names (p : ParamNames) : List String :=
  [p.select, p.filter, p.limit, p.offset, p.sort, p.search]

/-- The request with those of the parameters that have a value. -/
def Request.ofOptional (params : List (String × Option Json)) : Request :=
  ⟨params.filterMap fun (name, v) => v.map (name, ·)⟩

/-- The normal form of a selection. -/
def Selection.normal (selection : Selection) : Json :=
  Json.ofStrings (selection.paths.map Expression.dotted)

/-- The normal form of a filter. -/
def Predicate.normal (p : Predicate) : Json :=
  .object
    [("field", .string p.field), ("op", .string p.operator.name), ("value", p.operand.toJson)]

/-- The normal form of an ordering; the one that the schema falls back to is left out. -/
def SortKey.normal? (schema : Schema) (key : SortKey) : Option Json :=
  if key = fallback schema then none else some key.toJson

/-- The normal form of a search; the default target is left out. -/
def SearchTerm.normal (schema : Schema) (term : SearchTerm) : Json :=
  .object (("value", .string term.value) ::
    if schema.defaultTarget = some term.target then [] else [("target", .string term.target)])

/-- The normal form of the request for a specification. -/
def Specification.toRequest (schema : Schema) (spec : Specification) : Request :=
  .ofOptional
    [(schema.params.select, spec.selection.map Selection.normal),
      (schema.params.filter, some (.array (spec.filters.map Predicate.normal))),
      (schema.params.limit, (spec.window.bind (·.limit)).map Json.ofCount),
      (schema.params.offset, (spec.window.bind (·.offset)).map Json.ofCount),
      (schema.params.sort, spec.sort.bind (SortKey.normal? schema)),
      (schema.params.search, spec.search.map (SearchTerm.normal schema))]

/-- A name that no parameter has is not found. -/
theorem Request.get?_ofOptional_of_notMem {params : List (String × Option Json)} {name : String}
    (h : name ∉ params.map (·.1)) : (ofOptional params).get? name = none := by
  refine Entries.get?_of_notMem fun hm => h ?_
  obtain ⟨entry, hentry, rfl⟩ := List.mem_map.mp hm
  obtain ⟨param, hparam, hsome⟩ := List.mem_filterMap.mp hentry
  obtain ⟨v, -, rfl⟩ := Option.map_eq_some_iff.mp hsome
  exact List.mem_map.mpr ⟨param, hparam, rfl⟩

/-- A parameter is found under its name, when the names are distinct. -/
theorem Request.get?_ofOptional {params : List (String × Option Json)} {name : String}
    {v : Option Json} (h : (params.map (·.1)).Nodup) (hm : (name, v) ∈ params) :
    (ofOptional params).get? name = v := by
  induction params with
  | nil => cases hm
  | cons param rest ih =>
      obtain ⟨first, v₁⟩ := param
      obtain ⟨hfirst, hrest⟩ := List.nodup_cons.mp h
      rcases List.mem_cons.mp hm with heq | hmem
      · obtain ⟨rfl, rfl⟩ := Prod.mk.inj heq
        have habsent : (ofOptional rest).get? name = none := get?_ofOptional_of_notMem hfirst
        cases v with
        | none => exact habsent
        | some v => exact if_pos rfl
      · have hne : first ≠ name := by
          rintro rfl
          exact hfirst (List.mem_map.mpr ⟨_, hmem, rfl⟩)
        have hfound : (ofOptional rest).get? name = v := ih hrest hmem
        cases v₁ with
        | none => exact hfound
        | some v₁ => exact (if_neg hne).trans hfound

/-- The parameters of a normal form are found under their names. -/
theorem Specification.get?_toRequest {schema : Schema} (h : schema.params.names.Nodup)
    (spec : Specification) :
    (toRequest schema spec).get? schema.params.select = spec.selection.map Selection.normal ∧
      (toRequest schema spec).get? schema.params.filter
        = some (.array (spec.filters.map Predicate.normal)) ∧
      (toRequest schema spec).get? schema.params.limit
        = (spec.window.bind (·.limit)).map Json.ofCount ∧
      (toRequest schema spec).get? schema.params.offset
        = (spec.window.bind (·.offset)).map Json.ofCount ∧
      (toRequest schema spec).get? schema.params.sort = spec.sort.bind (SortKey.normal? schema) ∧
      (toRequest schema spec).get? schema.params.search
        = spec.search.map (SearchTerm.normal schema) := by
  refine ⟨?_, ?_, ?_, ?_, ?_, ?_⟩ <;> refine Request.get?_ofOptional h ?_ <;> simp

/-! ### Reading the normal form, parameter by parameter -/

/-- The paths of a normal form are read back. -/
theorem Selection.readPaths_normal {d : Definition} {schema : Schema} {selection : Selection}
    (hd : Schema.ofDefinition d = .ok schema)
    (h : FieldNode.Declared schema.fields rootNamespace selection.fields) (param : String) :
    readPaths param (some selection.normal) = .clean selection.paths := by
  have hitem : ∀ path ∈ selection.paths,
      readItem param (.string (Expression.dotted path)) = .clean [path] := by
    intro path hm
    obtain ⟨hne, hnames⟩ := isFieldName_of_mem_paths hd h hm
    rw [readItem, readExpression, Expression.paths_dotted hne hnames]
  rw [normal, Json.ofStrings, readPaths]
  generalize selection.paths = paths at hitem
  induction paths with
  | nil => rfl
  | cons path rest ih =>
      obtain ⟨hpath, hrest⟩ := List.forall_mem_cons.mp hitem
      have hih := ih hrest
      simp only [Reading.clean, Reading.mk.injEq] at hih ⊢
      rw [List.map_cons, List.map_cons, List.flatMap_cons, List.flatMap_cons, hpath, hih.1, hih.2]
      exact ⟨rfl, rfl⟩

section Readers

variable {schema : Schema} {request normal : Request}

/-- A selection without faults is read from its normal form as it was. -/
theorem Selection.read_normal {d : Definition} (hd : Schema.ofDefinition d = .ok schema)
    (hclean : (read schema request).faults = [])
    (h : normal.get? schema.params.select = some (read schema request).output.normal) :
    read schema normal = read schema request := by
  have hdeclared := declared_read schema request
  generalize read schema request = reading at *
  obtain ⟨output, faults⟩ := reading
  obtain rfl : faults = [] := hclean
  rw [read, h, readPaths_normal hd hdeclared]
  simp [Reading.clean, foldl_paths hdeclared]

/-- A filter that was read is read again from its normal form. -/
theorem Filter.listOutcome_normal {p : Predicate} (h : p ∈ (read schema request).output)
    (param : String) : listOutcome schema param p.normal = .ok p := by
  obtain ⟨field, token, given, hentry⟩ := readEntry_of_mem_read h
  have hagain := Predicate.readEntry_toJson hentry
  change entryOutcome schema p.field p.operator.name (some p.operand.toJson) = .ok p
  rw [entryOutcome, hagain]
  rfl

/-- Filters without faults are read from their normal form as they were. -/
theorem Filter.read_normal (hclean : (read schema request).faults = [])
    (h : normal.get? schema.params.filter
      = some (.array ((read schema request).output.map Predicate.normal))) :
    read schema normal = read schema request := by
  have hitem : ∀ p ∈ (read schema request).output,
      listOutcome schema schema.params.filter p.normal = .ok p :=
    fun p hp => listOutcome_normal hp schema.params.filter
  generalize read schema request = reading at *
  obtain ⟨predicates, faults⟩ := reading
  obtain rfl : faults = [] := hclean
  have houtcomes : outcomes schema schema.params.filter (normal.get? schema.params.filter)
      = predicates.map .ok := by
    rw [h, outcomes, List.map_map]
    exact List.map_congr_left hitem
  rw [read, houtcomes, List.filterMap_map, List.filterMap_map]
  simp [predicate?, fault?, Function.comp_def]

/-- A count is read from its JSON form. -/
theorem CountParam.ofValue_ofCount (n : Option UInt64) :
    (ofValue (n.map Json.ofCount)).count? = n ∧
      ∀ param, (ofValue (n.map Json.ofCount)).faults param = [] := by
  cases n with
  | none => exact ⟨rfl, fun _ => rfl⟩
  | some n =>
      have hvalue : ofValue (some (Json.ofCount n)) = .count n := by
        rw [Json.ofCount, ofValue, Json.Number.count?_toNat]
      rw [Option.map_some, hvalue]
      exact ⟨rfl, fun _ => rfl⟩

/-- A window without faults is read from its normal form as it was. -/
theorem Window.read_normal (hclean : (read schema request).faults = [])
    (hlimit : normal.get? schema.params.limit
      = (read schema request).output.limit.map Json.ofCount)
    (hoffset : normal.get? schema.params.offset
      = (read schema request).output.offset.map Json.ofCount) :
    read schema normal = read schema request := by
  have hbound : ∀ l ∈ (read schema request).output.limit, ∀ m ∈ schema.maxLimit, l ≤ m :=
    fun l hl m hm => limit_le_maxLimit hl hm
  generalize read schema request = reading at *
  obtain ⟨⟨limit, offset⟩, faults⟩ := reading
  obtain rfl : faults = [] := hclean
  obtain ⟨hl, hlfaults⟩ := CountParam.ofValue_ofCount limit
  obtain ⟨ho, hofaults⟩ := CountParam.ofValue_ofCount offset
  simp [read, hlimit, hoffset, hl, ho, hlfaults, hofaults, boundedLimit_of_le hbound,
    Reading.clean]

/-- The name of a direction asks for the direction. -/
theorem SortKey.readDirection_name (field : String) (direction : Direction) :
    readDirection field (some direction.name) = .clean (some direction) := by
  cases direction <;> rfl

/-- An ordering without faults is read from its normal form as it was. -/
theorem SortKey.read_normal (hclean : (read schema request).faults = [])
    (h : normal.get? schema.params.sort = (read schema request).output.normal? schema) :
    read schema normal = read schema request := by
  have hpossible := possible_read schema request
  generalize read schema request = reading at *
  have hfallback : ∀ key, key = fallback schema →
      normal.get? schema.params.sort = key.normal? schema →
      read schema normal = .clean (fallback schema) := by
    intro key hkey hget
    rw [normal?, if_pos hkey] at hget
    rw [read, hget]
  cases hpossible with
  | refused hne => exact absurd hclean hne
  | fallback => exact hfallback _ rfl h
  | @byField field direction hsortable htrim hne =>
      -- the request may have spelt out the very ordering that the schema falls back to
      by_cases hkey : (⟨some field, direction⟩ : SortKey) = fallback schema
      · rw [hkey]
        exact hfallback _ hkey h
      · have hblank : Text.isBlankText field = false := by
          rw [Bool.eq_false_iff]
          exact fun hblank => hne (htrim.symm.trans (Text.trimmed_eq_empty_iff.mpr hblank))
        have hvalid : validate schema field (some direction.name)
            = .clean ⟨some field, direction⟩ := by
          simp [validate, readDirection_name, fieldFaults, hsortable, Reading.clean]
        change normal.get? schema.params.sort = normal? schema ⟨some field, direction⟩ at h
        rw [normal?, if_neg hkey] at h
        rw [read, h]
        simp only [toJson, Json.ofOption, ofObject, Entries.get?, if_true, hblank, htrim,
          Bool.false_eq_true, if_false]
        exact hvalid

/-- A search without faults is read from its normal form as it was. -/
theorem SearchTerm.read_normal (hclean : (read schema request).faults = [])
    (h : normal.get? schema.params.search
      = (read schema request).output.map (SearchTerm.normal schema)) :
    read schema normal = read schema request := by
  have hpossible := possible_read schema request
  generalize read schema request = reading at *
  cases hpossible with
  | refused fault => cases hclean
  | absent => rw [read, h]; rfl
  | @found term hfields hblank htarget =>
      have hresolve : ∀ named, targetOf? schema named = some term.target →
          resolve schema named term.value = .clean (some term) := by
        intro named hnamed
        rw [resolve, hblank]
        simp [hnamed, hfields]
      rw [read, h]
      by_cases hdefault : schema.defaultTarget = some term.target
      · simp only [Reading.clean, Option.map_some, SearchTerm.normal, if_pos hdefault]
        exact hresolve none hdefault
      · obtain ⟨htrim, hne⟩ := htarget.resolve_left hdefault
        simp only [Reading.clean, Option.map_some, SearchTerm.normal, if_neg hdefault]
        refine hresolve (some term.target) ?_
        simp [targetOf?, htrim, hne]

end Readers

/-! ### The fixed point -/

namespace Specification

variable {schema : Schema} {request normal : Request}

/-- Two requests that every enabled capability reads in the same way have the same
specification. -/
theorem ofRequest_congr
    (hselection : schema.enabled.isEnabled .selection = true →
      Selection.read schema normal = Selection.read schema request)
    (hfilters : schema.enabled.isEnabled .filtering = true →
      Filter.read schema normal = Filter.read schema request)
    (hwindow : schema.enabled.isEnabled .pagination = true →
      Window.read schema normal = Window.read schema request)
    (hsort : schema.enabled.isEnabled .sorting = true →
      SortKey.read schema normal = SortKey.read schema request)
    (hsearch : schema.enabled.isEnabled .search = true →
      SearchTerm.read schema normal = SearchTerm.read schema request) :
    ofRequest schema normal = ofRequest schema request := by
  have hpart : ∀ {α : Type} (c : Capability) (part part' : α),
      (schema.enabled.isEnabled c = true → part = part') →
        ifEnabled schema c part = ifEnabled schema c part' := by
    intro α c part part' h
    rw [ifEnabled, ifEnabled]
    split
    · next hc => rw [h hc]
    · rfl
  have hfaults : ∀ c ∈ schema.enabled.enabled,
      faultsOf schema normal c = faultsOf schema request c := by
    intro c hc
    have henabled : schema.enabled.isEnabled c = true := decide_eq_true hc
    cases c with
    | selection => exact congrArg Reading.faults (hselection henabled)
    | filtering => exact congrArg Reading.faults (hfilters henabled)
    | pagination => exact congrArg Reading.faults (hwindow henabled)
    | sorting => exact congrArg Reading.faults (hsort henabled)
    | search => exact congrArg Reading.faults (hsearch henabled)
  rw [ofRequest, ofRequest,
    hpart .selection _ _ fun h => congrArg Reading.output (hselection h),
    hpart .filtering _ _ fun h => congrArg Reading.output (hfilters h),
    hpart .pagination _ _ fun h => congrArg Reading.output (hwindow h),
    hpart .sorting _ _ fun h => congrArg Reading.output (hsort h),
    hpart .search _ _ fun h => congrArg Reading.output (hsearch h),
    List.flatMap_congr hfaults]

/-- In a specification without faults no enabled capability has any. -/
theorem faultsOf_eq_nil (hvalid : (ofRequest schema request).isValid = true) {c : Capability}
    (hc : schema.enabled.isEnabled c = true) : faultsOf schema request c = [] := by
  have hfaults : schema.enabled.enabled.flatMap (faultsOf schema request) = [] :=
    List.isEmpty_iff.mp hvalid
  exact List.flatMap_eq_nil_iff.mp hfaults c (of_decide_eq_true hc)

/-- **The normal form is a fixed point.** When a request has no faults, the normal form of its
specification has the same specification, and again no faults. -/
theorem ofRequest_toRequest {d : Definition} (hd : Schema.ofDefinition d = .ok schema)
    (hnames : schema.params.names.Nodup) (hvalid : (ofRequest schema request).isValid = true) :
    ofRequest schema (toRequest schema (ofRequest schema request)) = ofRequest schema request ∧
      (ofRequest schema (toRequest schema (ofRequest schema request))).isValid = true := by
  obtain ⟨hselect, hfilter, hlimit, hoffset, hsort, hsearch⟩ :=
    get?_toRequest hnames (ofRequest schema request)
  have hsame : ofRequest schema (toRequest schema (ofRequest schema request))
      = ofRequest schema request := by
    refine ofRequest_congr ?_ ?_ ?_ ?_ ?_
    · intro hc
      refine Selection.read_normal hd (faultsOf_eq_nil hvalid hc) ?_
      rw [hselect]
      simp [ofRequest, ifEnabled, hc]
    · intro hc
      refine Filter.read_normal (faultsOf_eq_nil hvalid hc) ?_
      rw [hfilter]
      simp [ofRequest, ifEnabled, hc]
    · intro hc
      refine Window.read_normal (faultsOf_eq_nil hvalid hc) ?_ ?_
      · rw [hlimit]
        simp [ofRequest, ifEnabled, hc]
      · rw [hoffset]
        simp [ofRequest, ifEnabled, hc]
    · intro hc
      refine SortKey.read_normal (faultsOf_eq_nil hvalid hc) ?_
      rw [hsort]
      simp [ofRequest, ifEnabled, hc]
    · intro hc
      refine SearchTerm.read_normal (faultsOf_eq_nil hvalid hc) ?_
      rw [hsearch]
      simp [ofRequest, ifEnabled, hc]
  exact ⟨hsame, by rw [hsame]; exact hvalid⟩

/-- A request that writes each parameter in another than its normal form. -/
def casualRequest : Request :=
  ⟨[("sort", .string " -name "), ("select", .string "name, id,name"), ("limit", .string "010"),
    ("filter", .object [("age", .object [(" >= ", .string "18"), ("in", .array [.bool true])])])]⟩

/-- The casual request and its normal form have the same specification. -/
theorem ofRequest_toRequest_casual :
    ∃ schema, Schema.ofDefinition Sample.minimal = .ok schema ∧ schema.params.names.Nodup ∧
      (ofRequest schema casualRequest).isValid = true ∧
      ofRequest schema (toRequest schema (ofRequest schema casualRequest))
        = ofRequest schema casualRequest :=
  ⟨_, rfl, by decide, rfl, (ofRequest_toRequest (d := Sample.minimal) rfl (by decide) rfl).1⟩

end Specification

end ResourceQuery
