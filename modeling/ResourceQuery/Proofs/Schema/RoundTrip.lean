import ResourceQuery.Proofs.Document.Json
import ResourceQuery.Proofs.Entries
import ResourceQuery.Schema.Basic
import ResourceQuery.Schema.File

/-!
# Definitions survive being written in JSON

Each section of a definition is read back from its JSON form: its members have the names under which
they are looked for, and each member is read as it is written. A section that is missing is written
as null, which stands for nothing else, and a section without anything in it as a list or an object
without anything in it, so the two stay apart. A declared field is a text when it is atomic and an
object when it is nested, with or without children.

The numbers in the JSON form are counts, so its compact text is read as the document of the form,
provided that it is not nested too deep.

## Main statements

* `Definition.undoes`, and `undoes` for each section: reading undoes writing.
* `Definition.parse_toJson`: the compact text of a definition is read as this definition.
-/

namespace ResourceQuery

open Document

/-- An operator is found by the name that a declaration writes. -/
theorem Operator.ofDeclaration?_name (op : Operator) : ofDeclaration? op.name = some op := by
  cases op <;> decide

namespace Document.Undoes

/-- A list of texts is read from its document. -/
theorem texts : Undoes (list? text?) Json.ofStrings :=
  text.list

/-- A text that may be missing is read from its document. -/
theorem optionalText : Undoes (optional? text?) (Json.ofOption .string) :=
  text.optional nofun

/-- A count that may be missing is read from its document. -/
theorem optionalCount : Undoes (optional? count?) (Json.ofOption Json.ofCount) :=
  count.optional nofun

end Document.Undoes

/-! ### Sections -/

/-- The names of parameters are read from their document. -/
theorem ParamNames.undoes : Undoes ofDocument? toJson := by
  intro p
  rw [ofDocument?, toJson, record?_ofValue]
  · simp only [Option.bind_eq_bind, Option.bind_some]
    rw [Undoes.text.field rfl, Undoes.text.field rfl, Undoes.text.field rfl,
      Undoes.text.field rfl, Undoes.text.field rfl, Undoes.text.field rfl]
    rfl
  · rfl
  · decide

/-- The declaration of a filter is read from its document. -/
theorem FilterDeclaration.undoes : Undoes ofDocument? toJson := by
  intro d
  have hoperators : Undoes (list? (named? Operator.ofDeclaration?))
      fun ops : List Operator => Json.ofStrings (ops.map Operator.name) := by
    intro ops
    have hlist := (Undoes.named Operator.ofDeclaration?_name).list ops
    simp only [Json.ofStrings, List.map_map]
    exact hlist
  have htype : Undoes (optional? (named? ScalarType.ofName?))
      (Json.ofOption fun t : ScalarType => .string t.name) :=
    (Undoes.named ScalarType.ofName?_name).optional nofun
  rw [ofDocument?, toJson, record?_ofValue]
  · simp only [Option.bind_eq_bind, Option.bind_some]
    rw [hoperators.field rfl, htype.field rfl]
    rfl
  · rfl
  · decide

/-- The declaration of pagination is read from its document. -/
theorem PaginationDeclaration.undoes : Undoes ofDocument? toJson := by
  intro d
  rw [ofDocument?, toJson, record?_ofValue]
  · simp only [Option.bind_eq_bind, Option.bind_some]
    rw [Undoes.optionalCount.field rfl]
    rfl
  · rfl
  · decide

/-- A default ordering is read from its document. -/
theorem DefaultSort.undoes : Undoes ofDocument? toJson := by
  intro d
  rw [ofDocument?, toJson, record?_ofValue]
  · simp only [Option.bind_eq_bind, Option.bind_some]
    rw [Undoes.text.required rfl, (Undoes.named Direction.ofName?_name).field rfl]
    rfl
  · rfl
  · decide

/-- The declaration of sorting is read from its document. -/
theorem SortDeclaration.undoes : Undoes ofDocument? toJson := by
  intro d
  have hfallback : Undoes (optional? DefaultSort.ofDocument?) (Json.ofOption DefaultSort.toJson) :=
    DefaultSort.undoes.optional nofun
  rw [ofDocument?, toJson, record?_ofValue]
  · simp only [Option.bind_eq_bind, Option.bind_some]
    rw [Undoes.texts.field rfl, hfallback.field rfl]
    rfl
  · rfl
  · decide

/-- The declaration of search is read from its document. -/
theorem SearchDeclaration.undoes : Undoes ofDocument? toJson := by
  intro d
  rw [ofDocument?, toJson, record?_ofValue]
  · simp only [Option.bind_eq_bind, Option.bind_some]
    rw [Undoes.texts.field rfl, Undoes.texts.table.field rfl, Undoes.optionalText.field rfl]
    simp only [Option.bind_some, SortedEntries.ofWrites_entries]
    rfl
  · rfl
  · decide

/-! ### Declared fields -/

mutual

/-- A declared field is read back. An atomic one is no table, and a nested one is a table with
children, even if it has none. -/
theorem FieldDeclaration.ofDocument?_toJson (declaration : FieldDeclaration) :
    ofDocument? (ofValue declaration.toJson) = some declaration := by
  match declaration with
  | .atomic name => rfl
  | .nested name children =>
      have hchildren : childrenOfDocument? (ofValue (.array (listToJson children)))
          = some children := FieldDeclaration.ofDocuments?_listToJson children
      have hmembers : ofMembers? (ofNamedValues [("name", .string name),
          ("children", .array (listToJson children))]) = some ⟨some name, some children⟩ := by
        rw [ofNamedValues, ofNamedValues, ofNamedValues, ofMembers?, ofMembers?, ofMembers?]
        simp only [hchildren]
        rfl
      rw [toJson, ofValue, ofDocument?, hmembers]

/-- Declared fields are read back. -/
theorem FieldDeclaration.ofDocuments?_listToJson (declarations : List FieldDeclaration) :
    ofDocuments? (ofValues (listToJson declarations)) = some declarations := by
  match declarations with
  | [] => rfl
  | declaration :: rest =>
      rw [listToJson, ofValues, ofDocuments?, FieldDeclaration.ofDocument?_toJson declaration,
        FieldDeclaration.ofDocuments?_listToJson rest]

end

/-- The JSON forms of fields are those of each. -/
theorem FieldDeclaration.listToJson_eq_map (declarations : List FieldDeclaration) :
    listToJson declarations = declarations.map toJson := by
  induction declarations with
  | nil => rfl
  | cons declaration rest ih => rw [listToJson, ih, List.map_cons]

/-- A list of fields is read from its document. -/
theorem FieldDeclaration.undoes_list :
    Undoes listOfDocument? fun declarations => .array (listToJson declarations) := by
  intro declarations
  have hlist : Undoes listOfDocument? fun declarations => .array (declarations.map toJson) :=
    Undoes.list FieldDeclaration.ofDocument?_toJson
  simp only [FieldDeclaration.listToJson_eq_map]
  exact hlist declarations

/-! ### Definitions -/

mutual

/-- The JSON form of a field is whole. -/
theorem FieldDeclaration.isWhole_toJson (declaration : FieldDeclaration) :
    declaration.toJson.IsWhole := by
  match declaration with
  | .atomic _ => trivial
  | .nested _ children => exact ⟨trivial, FieldDeclaration.areWhole_listToJson children, trivial⟩

/-- The JSON forms of fields are whole. -/
theorem FieldDeclaration.areWhole_listToJson (declarations : List FieldDeclaration) :
    Json.AreWhole (listToJson declarations) := by
  match declarations with
  | [] => trivial
  | declaration :: rest =>
      exact ⟨declaration.isWhole_toJson, FieldDeclaration.areWhole_listToJson rest⟩

end

namespace Definition

/-- Filter declarations are written as the entries that they consist of. -/
theorem ofOption_filters (filters : Option (SortedEntries FilterDeclaration)) :
    Json.ofOption (fun fs : SortedEntries FilterDeclaration =>
        .object (fs.entries.map fun (field, rules) => (field, rules.toJson))) filters
      = Json.ofOption (fun entries =>
        .object (entries.map fun (field, rules) => (field, rules.toJson)))
        (filters.map SortedEntries.entries) := by
  cases filters <;> rfl

/-- Reading a definition undoes writing it. -/
theorem undoes : Undoes ofDocument? toJson := by
  intro d
  have hfields := FieldDeclaration.undoes_list.optional nofun
  have hfilters := FilterDeclaration.undoes.table.optional nofun
  have hpagination := PaginationDeclaration.undoes.optional nofun
  have hsort := SortDeclaration.undoes.optional nofun
  have hsearch := SearchDeclaration.undoes.optional nofun
  have hwrites : (d.filters.map SortedEntries.entries).map SortedEntries.ofWrites = d.filters := by
    rw [Option.map_map]
    simp [Function.comp_def, SortedEntries.ofWrites_entries]
  rw [ofDocument?, toJson, ofOption_filters, record?_ofValue]
  · simp only [Option.bind_eq_bind, Option.bind_some]
    rw [Undoes.text.required rfl, Undoes.optionalText.field rfl, ParamNames.undoes.field rfl,
      hfields.field rfl, hfilters.field rfl, hpagination.field rfl, hsort.field rfl,
      hsearch.field rfl]
    simp only [Option.bind_some, hwrites]
    rfl
  · rfl
  · decide

/-- The numbers in the JSON form of a definition are counts. -/
theorem isWhole_toJson (d : Definition) : d.toJson.IsWhole := by
  have hfields (declarations : List FieldDeclaration) :
      (Json.array (FieldDeclaration.listToJson declarations)).IsWhole :=
    FieldDeclaration.areWhole_listToJson declarations
  have htype (type : ScalarType) : (Json.string type.name).IsWhole := trivial
  have hrules (rules : FilterDeclaration) : rules.toJson.IsWhole :=
    ⟨Json.isWhole_ofStrings _, Json.isWhole_ofOption htype _, trivial⟩
  have hfilters (filters : SortedEntries FilterDeclaration) :
      (Json.object (filters.entries.map fun (field, rules) => (field, rules.toJson))).IsWhole :=
    Json.isWhole_object_map hrules filters.entries
  have hpagination (p : PaginationDeclaration) : p.toJson.IsWhole :=
    ⟨Json.isWhole_ofOption Json.isWhole_ofCount _, trivial⟩
  have hfallback (fallback : DefaultSort) : fallback.toJson.IsWhole := ⟨trivial, trivial, trivial⟩
  have hsort (sort : SortDeclaration) : sort.toJson.IsWhole :=
    ⟨Json.isWhole_ofStrings _, Json.isWhole_ofOption hfallback _, trivial⟩
  have hsearch (search : SearchDeclaration) : search.toJson.IsWhole :=
    ⟨Json.isWhole_ofStrings _, Json.isWhole_object_map Json.isWhole_ofStrings _,
      Json.isWhole_ofOption Json.isWhole_string _, trivial⟩
  exact ⟨trivial, Json.isWhole_ofOption Json.isWhole_string _,
    ⟨trivial, trivial, trivial, trivial, trivial, trivial, trivial⟩,
    Json.isWhole_ofOption hfields _, Json.isWhole_ofOption hfilters _,
    Json.isWhole_ofOption hpagination _, Json.isWhole_ofOption hsort _,
    Json.isWhole_ofOption hsearch _, trivial⟩

/-- **A definition survives its own JSON.** Its compact text is read as the same definition, if it
is not nested deeper than readers go. So a schema is made of it just as of the definition. -/
theorem parse_toJson (d : Definition) (h : d.toJson.depth ≤ 127) :
    parse .json d.toJson.compact = .ok d ∧
      (parse? .json d.toJson.compact).map Schema.ofDefinition = some (Schema.ofDefinition d) := by
  have hparse : parse? .json d.toJson.compact = some d := by
    have hdocument : Format.document? .json d.toJson.compact = some (ofValue d.toJson) :=
      ofJson?_compact d.isWhole_toJson h
    rw [parse?, hdocument, Option.bind_some]
    exact undoes d
  rw [parse, hparse]
  exact ⟨rfl, rfl⟩

/-- A definition with all sections: a group without fields inside another one, filters with and
without a type, the largest count, and names that are escaped. -/
def quoted : Definition where
  resource := "pe\"ople\n"
  table := some ""
  params := { select := "fields" }
  fields := some [.atomic "id", .nested "a" [.nested "b" [], .atomic "c\x01"]]
  filters := some ((SortedEntries.empty.put "id" { operators := [.oneOf, .eq] }).put "a.c"
    { type := some .integer })
  pagination := some ⟨some 18446744073709551615⟩
  sort := some { fields := ["id"], fallback := some ⟨"name", .descending⟩ }
  search := some { targets := SortedEntries.empty.put "all" ["id", "a.c"] }

/-- It is read back, and so is what is wrong with it: its default ordering is by no field of its
own. -/
theorem parse_toJson_quoted :
    quoted.toJson.depth = 6 ∧ parse .json quoted.toJson.compact = .ok quoted ∧
      (parse? .json quoted.toJson.compact).map Schema.ofDefinition
        = some (.error (.unsortableDefault "name")) := by
  have hdepth : quoted.toJson.depth = 6 := by decide
  obtain ⟨hparse, hschema⟩ := parse_toJson quoted (by rw [hdepth]; decide)
  exact ⟨hdepth, hparse, hschema.trans rfl⟩

end Definition

end ResourceQuery
