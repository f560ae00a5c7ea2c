import ResourceQuery.Proofs.Entries
import ResourceQuery.Proofs.Text.Cutting
import ResourceQuery.Sample
import ResourceQuery.Sorting.Reading

/-!
# What a sort parameter asks for

A sort parameter names a field, and perhaps a direction, in one of several forms: `field`, `-field`
and `field:direction` are texts, and an object has the field and the direction as members. What it
asks for is said here form by form (`SortKey.Asks`), and the reader depends on nothing else: all
forms are read as the ordering by a field and a token (`SortKey.read_of_asks`), which is blank or
missing, or means a direction, or is a fault. So two parameters that ask for the same are read
alike.

A text is trimmed before it is cut, and its parts are trimmed again. The colon and the minus are not
blank, so they part what is trimmed, and the parts are those of the text as it was.

A parameter with a fault has no ordering, not even the one that the schema falls back to.

## Main definitions

* `Direction.Means`: what a token means, where it may be missing.
* `SortKey.Asks`, `SortKey.NamesNone`: the field and the token that a parameter asks for, and the
  parameters that name no field.
* `SortKey.Alike`: sort parameters from which the same is read.
* `SortKey.Ends`: how the reading of an ordering can end, with what was asked for.

## Main statements

* `SortKey.read_of_asks`: what is read from a parameter that asks for a field.
* `SortKey.ends_read`: how the reading of an ordering ends.
* `SortKey.orders_as_asked`: the forms are read alike, and faults leave no ordering.
-/

namespace ResourceQuery

/-- The direction that a token means: ascending when it is missing or blank, and otherwise the one
that it names, in any case and between blanks. -/
inductive Direction.Means : Option String → Direction → Prop
  | missing : Means none .ascending
  | blank {token : String} : Text.isBlankText token = true → Means (some token) .ascending
  | ascending {token : String} : Text.lowercase (Text.trimmed token) = "asc" →
      Means (some token) .ascending
  | descending {token : String} : Text.lowercase (Text.trimmed token) = "desc" →
      Means (some token) .descending

namespace Direction

/-- The tokens that a client may write for a direction. -/
theorem ofToken?_eq_some_iff {token : String} {direction : Direction} :
    ofToken? token = some direction ↔
      Text.lowercase (Text.trimmed token) = "asc" ∧ direction = .ascending ∨
      Text.lowercase (Text.trimmed token) = "desc" ∧ direction = .descending := by
  rw [ofToken?, ofName?]
  generalize Text.lowercase (Text.trimmed token) = word
  constructor
  · intro h
    have hname : direction.name = word := by simpa using List.find?_some h
    cases direction with
    | ascending => exact Or.inl ⟨hname.symm, rfl⟩
    | descending => exact Or.inr ⟨hname.symm, rfl⟩
  · rintro (⟨rfl, rfl⟩ | ⟨rfl, rfl⟩) <;> decide

/-- A token that is a direction means it. -/
theorem Means.of_ofToken? {token : String} {direction : Direction}
    (h : ofToken? token = some direction) : Means (some token) direction := by
  rcases ofToken?_eq_some_iff.mp h with ⟨hword, rfl⟩ | ⟨hword, rfl⟩
  · exact .ascending hword
  · exact .descending hword

end Direction

namespace SortKey

/-- A text that does not begin with a minus, but for blanks, and has no colon. -/
def IsPlain (text : String) : Prop :=
  ':' ∉ text.toList ∧ (Text.trim text.toList).head? ≠ some '-'

/-- The field and the token of a direction that a sort parameter asks for. -/
inductive Asks : Json → String → Option String → Prop
  | field {field : String} : IsPlain field → Asks (.string field) field none
  | descending {before field : String} : Text.isBlankText before = true →
      Asks (.string (before ++ "-" ++ field)) field (some "desc")
  | directed {field token : String} : IsPlain field →
      Asks (.string (field ++ ":" ++ token)) field (some token)
  | object {members : Entries Json} {field : String} :
      members.get? "field" = some (.string field) →
      (∀ given ∈ directionMember? members, given = .null) → Asks (.object members) field none
  | objectDirected {members : Entries Json} {field token : String} :
      members.get? "field" = some (.string field) →
      directionMember? members = some (.string token) → Asks (.object members) field (some token)

/-- A sort parameter that names no field, or a blank one. -/
inductive NamesNone : Option Json → Prop
  | absent : NamesNone none
  | null : NamesNone (some .null)
  | text {text field : String} {token : Option String} : Asks (.string text) field token →
      Text.isBlankText field = true → NamesNone (some (.string text))
  | object {members : Entries Json} :
      (∀ given ∈ members.get? "field", given = .null ∨
        ∃ field, given = .string field ∧ Text.isBlankText field = true) →
      NamesNone (some (.object members))

/-- Two sort parameters from which the same is read: the same ordering, and the same faults. -/
def Alike (schema : Schema) (given given' : Json) : Prop :=
  ∀ request request' : Request, request.get? schema.params.sort = some given →
    request'.get? schema.params.sort = some given' → read schema request = read schema request'

/-- The ordering by a field and the token of a direction, neither of them trimmed. -/
def ofParts (schema : Schema) (field : String) (token : Option String) : Reading SortKey :=
  if Text.isBlankText field then .clean (fallback schema)
  else validate schema (Text.trimmed field) token

/-! ### The forms of a parameter -/

/-- Only what is trimmed counts. -/
theorem ofParts_congr (schema : Schema) {field field' : String} {token token' : Option String}
    (hfield : Text.trimmed field = Text.trimmed field')
    (htoken : token.map Text.trimmed = token'.map Text.trimmed) :
    ofParts schema field token = ofParts schema field' token' := by
  have hblank : Text.isBlankText field = Text.isBlankText field' := by
    rw [Bool.eq_iff_iff, ← Text.trimmed_eq_empty_iff, ← Text.trimmed_eq_empty_iff, hfield]
  rw [ofParts, ofParts, hblank, hfield, validate, validate, readDirection, readDirection, htoken]

/-- A text is read as the parts that it is split into. -/
theorem ofText_eq (schema : Schema) {text : String} {field : List Char}
    {token : Option (List Char)} (h : splitText (Text.trim text.toList) = (field, token)) :
    ofText schema text
      = ofParts schema (String.ofList field) (token.map String.ofList) := by
  rw [ofText, h, ofParts]
  dsimp only
  by_cases hnil : Text.trim field = []
  · have hblank : Text.isBlankText (String.ofList field) = true := by
      rwa [Text.isBlankText, String.toList_ofList, ← Text.trim_eq_nil_iff]
    rw [if_pos hnil, if_pos hblank]
  · have hblank : ¬Text.isBlankText (String.ofList field) = true := by
      rwa [Text.isBlankText, String.toList_ofList, ← Text.trim_eq_nil_iff]
    rw [if_neg hnil, if_neg hblank, Text.trimmed, String.toList_ofList]

/-- A text without a minus in front is cut at its first colon, if it has one. -/
theorem splitText_of_head?_ne {cs : List Char} (h : cs.head? ≠ some '-') :
    splitText cs
      = ((Text.cutFirst ':' cs).map fun (field, token) => (field, some token)).getD (cs, none) := by
  unfold splitText
  split
  · exact absurd rfl h
  · cases Text.cutFirst ':' cs <;> rfl

/-- A text without a colon and without a minus in front is a field. -/
theorem ofText_plain (schema : Schema) {field : String} (h : IsPlain field) :
    ofText schema field = ofParts schema field none := by
  have hcolon : ':' ∉ Text.trim field.toList := fun hm => h.1 ((Text.trim_sublist _).mem hm)
  have hsplit : splitText (Text.trim field.toList) = (Text.trim field.toList, none) := by
    rw [splitText_of_head?_ne h.2, Text.cutFirst_of_notMem hcolon]
    rfl
  rw [ofText_eq schema hsplit]
  refine ofParts_congr schema ?_ rfl
  simp [Text.trimmed, Text.trim_trim]

/-- A text with a minus in front is a descending field. -/
theorem ofText_descending (schema : Schema) {before : String}
    (h : Text.isBlankText before = true) (field : String) :
    ofText schema (before ++ "-" ++ field) = ofParts schema field (some "desc") := by
  have htrim : Text.trim (before ++ "-" ++ field).toList = '-' :: Text.trimEnd field.toList := by
    have htext : (before ++ "-" ++ field).toList = before.toList ++ '-' :: field.toList := by simp
    rw [htext, Text.trim_append_cons (by decide), Text.trimStart_of_all h, List.nil_append]
  have hsplit : splitText (Text.trim (before ++ "-" ++ field).toList)
      = (Text.trimEnd field.toList, some "desc".toList) := by
    rw [htrim]
    rfl
  rw [ofText_eq schema hsplit]
  refine ofParts_congr schema ?_ rfl
  simp [Text.trimmed, Text.trim_trimEnd]

/-- A text with a colon is a field and a token, if there is no minus in front. -/
theorem ofText_directed (schema : Schema) {field : String} (h : IsPlain field) (token : String) :
    ofText schema (field ++ ":" ++ token) = ofParts schema field (some token) := by
  have htrim : Text.trim (field ++ ":" ++ token).toList
      = Text.trimStart field.toList ++ ':' :: Text.trimEnd token.toList := by
    have htext : (field ++ ":" ++ token).toList = field.toList ++ ':' :: token.toList := by simp
    rw [htext, Text.trim_append_cons (by decide)]
  have hhead : (Text.trimStart field.toList ++ ':' :: Text.trimEnd token.toList).head?
      ≠ some '-' := by
    rw [List.head?_append, ← Text.head?_trim]
    cases hhead : (Text.trim field.toList).head? with
    | none => simp
    | some c => simpa [hhead] using h.2
  have hcolon : ':' ∉ Text.trimStart field.toList :=
    fun hm => h.1 ((Text.trimStart_sublist _).mem hm)
  have hsplit : splitText (Text.trim (field ++ ":" ++ token).toList)
      = (Text.trimStart field.toList, some (Text.trimEnd token.toList)) := by
    rw [htrim, splitText_of_head?_ne hhead, Text.cutFirst_append hcolon]
    rfl
  rw [ofText_eq schema hsplit]
  refine ofParts_congr schema ?_ ?_
  · simp [Text.trimmed, Text.trim_trimStart]
  · simp [Text.trimmed, Text.trim_trimEnd]

/-- An object with a field is read as its field and the token of its direction. -/
theorem ofObject_of_field (schema : Schema) {members : Entries Json} {field : String}
    (h : members.get? "field" = some (.string field)) :
    ofObject schema members
      = if Text.isBlankText field then .clean (fallback schema)
        else ofDirectionMember schema (Text.trimmed field) (directionMember? members) := by
  rw [ofObject, h]

/-- A parameter that is an object is read as one. -/
theorem read_object {schema : Schema} {request : Request} {members : Entries Json}
    (h : request.get? schema.params.sort = some (.object members)) :
    read schema request = ofObject schema members := by
  rw [read, h]

/-- **A parameter is read as what it asks for**, in whatever form. -/
theorem read_of_asks {schema : Schema} {request : Request} {given : Json} {field : String}
    {token : Option String} (hgiven : request.get? schema.params.sort = some given)
    (h : Asks given field token) : read schema request = ofParts schema field token := by
  have htext : ∀ text, given = .string text → read schema request = ofText schema text := by
    rintro text rfl
    rw [read, hgiven]
  cases h with
  | field hplain =>
      rw [htext _ rfl, ofText_plain schema hplain]
  | descending hbefore =>
      rw [htext _ rfl, ofText_descending schema hbefore]
  | directed hplain =>
      rw [htext _ rfl, ofText_directed schema hplain]
  | object hfield hnull =>
      rw [read_object hgiven, ofObject_of_field schema hfield, ofParts]
      congr 1
      cases hdirection : directionMember? _ with
      | none => rfl
      | some direction =>
          rw [hnull direction hdirection]
          rfl
  | objectDirected hfield hdirection =>
      rw [read_object hgiven, ofObject_of_field schema hfield, hdirection, ofParts]
      rfl

/-- Parameters that ask for the same are read alike. -/
theorem Asks.alike {schema : Schema} {given given' : Json} {field : String}
    {token : Option String} (h : Asks given field token) (h' : Asks given' field token) :
    Alike schema given given' :=
  fun _ _ hgiven hgiven' => (read_of_asks hgiven h).trans (read_of_asks hgiven' h').symm

/-- Every text asks for a field, be it blank. -/
theorem exists_asks_text (text : String) :
    ∃ field token, Asks (.string text) field token := by
  by_cases hhead : (Text.trim text.toList).head? = some '-'
  · rw [Text.head?_trim] at hhead
    obtain ⟨field, hfield⟩ := List.head?_eq_some_iff.mp hhead
    have hblank : Text.isBlankText (String.ofList (text.toList.takeWhile Text.isBlank)) = true := by
      rw [Text.isBlankText, String.toList_ofList]
      exact List.all_eq_true.mpr fun c hc => List.mem_takeWhile_imp hc
    have htext : text = String.ofList (text.toList.takeWhile Text.isBlank) ++ "-"
        ++ String.ofList field := by
      refine String.toList_injective ?_
      have happend := List.takeWhile_append_dropWhile (p := Text.isBlank) (l := text.toList)
      rw [Text.trimStart] at hfield
      rw [hfield] at happend
      simpa using happend.symm
    rw [htext]
    exact ⟨_, _, .descending hblank⟩
  by_cases hcolon : ':' ∈ text.toList
  · obtain ⟨field, token, htext, hclear⟩ := List.eq_append_cons_of_mem hcolon
    have hplain : IsPlain (String.ofList field) := by
      refine ⟨by simpa using hclear, fun hminus => hhead ?_⟩
      rw [String.toList_ofList, Text.head?_trim] at hminus
      rw [htext, Text.trim_append_cons (by decide), List.head?_append, hminus]
      rfl
    have hjoined : text = String.ofList field ++ ":" ++ String.ofList token :=
      String.toList_injective (by simpa using htext)
    rw [hjoined]
    exact ⟨_, _, .directed hplain⟩
  · exact ⟨text, none, .field ⟨hcolon, hhead⟩⟩

/-! ### What is read -/

/-- A token means a direction, or it is a fault about the field. -/
theorem readDirection_eq (field : String) (token : Option String) :
    (∃ direction, Direction.Means token direction ∧
      readDirection field token = .clean (some direction)) ∨
    ∃ text, token = some text ∧ Text.isBlankText text = false ∧ Direction.ofToken? text = none ∧
      readDirection field token
        = ⟨none, [(SortCause.unknownDirection (Text.trimmed text)).fault field]⟩ := by
  cases token with
  | none => exact Or.inl ⟨.ascending, .missing, rfl⟩
  | some text =>
      cases hblank : Text.isBlankText text with
      | true =>
          have htrimmed : Text.trimmed text = "" := Text.trimmed_eq_empty_iff.mpr hblank
          refine Or.inl ⟨.ascending, .blank hblank, ?_⟩
          rw [readDirection, Option.map_some, htrimmed]
          rfl
      | false =>
          have htrimmed : Text.trimmed text ≠ "" := Text.trimmed_ne_empty hblank
          have htoken : Direction.ofToken? (Text.trimmed text) = Direction.ofToken? text := by
            rw [Direction.ofToken?, Direction.ofToken?, Text.trimmed_trimmed]
          cases hmeans : Direction.ofToken? text with
          | none =>
              refine Or.inr ⟨text, rfl, hblank, hmeans, ?_⟩
              simp only [readDirection, Option.map_some, htoken, hmeans]
          | some direction =>
              refine Or.inl ⟨direction, .of_ofToken? hmeans, ?_⟩
              simp only [readDirection, Option.map_some, htoken, hmeans]

/-- A direction that is read is no fault. -/
theorem faults_of_direction {field : String} {token : Option String} {direction : Direction}
    (h : (readDirection field token).output = some direction) :
    (readDirection field token).faults = [] := by
  rcases readDirection_eq field token with ⟨_, -, hread⟩ | ⟨_, -, -, -, hread⟩
  · rw [hread]
    rfl
  · rw [hread] at h
    cases h

/-- An ordering is accepted if the field can be sorted by and the direction is one. The faults of
both are recorded. -/
theorem validate_eq (schema : Schema) (field : String) (token : Option String) :
    validate schema field token =
      ⟨match schema.isSortable field, (readDirection field token).output with
        | true, some direction => ⟨some field, direction⟩
        | _, _ => unordered,
        fieldFaults schema field ++ (readDirection field token).faults⟩ := by
  unfold validate fieldFaults
  cases schema.isSortable field with
  | false => rfl
  | true =>
      cases houtput : (readDirection field token).output with
      | none =>
          simp only [houtput, if_true, List.nil_append]
          cases (readDirection field token).faults <;> rfl
      | some direction =>
          simp only [houtput, if_true, List.nil_append, faults_of_direction houtput]
          rfl

/-- How the reading of an ordering can end: with a fault and without an ordering, with the ordering
that the schema falls back to, where no field is named, or with the field and the direction that are
asked for. -/
inductive Ends (schema : Schema) (given : Option Json) : Reading SortKey → Prop
  | refused {faults : List Fault} : faults ≠ [] → Ends schema given (refused faults)
  | fallback : NamesNone given → Ends schema given (.clean (fallback schema))
  | asked {parameter : Json} {field : String} {token : Option String} {direction : Direction} :
      given = some parameter → Asks parameter field token → Text.isBlankText field = false →
      schema.isSortable (Text.trimmed field) = true → Direction.Means token direction →
      Ends schema given (.clean ⟨some (Text.trimmed field), direction⟩)

/-- The ordering by a field and a token that are asked for ends as it should. -/
theorem ends_validate (schema : Schema) {given : Json} {field : String} {token : Option String}
    (h : Asks given field token) (hfield : Text.isBlankText field = false) :
    Ends schema (some given) (validate schema (Text.trimmed field) token) := by
  by_cases hsortable : schema.isSortable (Text.trimmed field) = true
  · have hclean : fieldFaults schema (Text.trimmed field) = [] := if_pos hsortable
    rcases readDirection_eq (Text.trimmed field) token with
      ⟨direction, hmeans, hread⟩ | ⟨text, -, -, -, hread⟩
    · rw [validate, hclean, hread]
      exact .asked rfl h hfield hsortable hmeans
    · rw [validate, hclean, hread]
      exact .refused (by simp)
  · rw [validate, fieldFaults, if_neg hsortable]
    exact .refused (by simp)

/-- The ordering that an object asks for ends as it should. -/
theorem ends_ofObject (schema : Schema) (members : Entries Json) :
    Ends schema (some (.object members)) (ofObject schema members) := by
  unfold ofObject
  split
  · next hnone => exact .fallback (.object (by simp [hnone]))
  · next hnull => exact .fallback (.object (by simp [hnull]))
  · next field hfield =>
      split
      · next hblank => exact .fallback (.object (by simp [hfield, hblank]))
      · next hblank =>
          have hblank : Text.isBlankText field = false := by simpa using hblank
          unfold ofDirectionMember
          split
          · next hnone => exact ends_validate schema (.object hfield (by simp [hnone])) hblank
          · next hnull => exact ends_validate schema (.object hfield (by simp [hnull])) hblank
          · next hdirection => exact ends_validate schema (.objectDirected hfield hdirection) hblank
          · exact .refused (by simp)
  · exact .refused (by simp)

/-- **How the reading of an ordering ends.** -/
theorem ends_read (schema : Schema) (request : Request) :
    Ends schema (request.get? schema.params.sort) (read schema request) := by
  cases hgiven : request.get? schema.params.sort with
  | none =>
      rw [read, hgiven]
      exact .fallback .absent
  | some given =>
      cases given with
      | null =>
          rw [read, hgiven]
          exact .fallback .null
      | string text =>
          obtain ⟨field, token, hasks⟩ := exists_asks_text text
          rw [read_of_asks hgiven hasks, ofParts]
          split
          · next hblank => exact .fallback (.text hasks hblank)
          · next hblank => exact ends_validate schema hasks (by simpa using hblank)
      | object members =>
          rw [read_object hgiven]
          exact ends_ofObject schema members
      | bool b =>
          rw [read, hgiven]
          exact .refused (by simp)
      | number n =>
          rw [read, hgiven]
          exact .refused (by simp)
      | array items =>
          rw [read, hgiven]
          exact .refused (by simp)

/-- The direction of an object may stand under its other name. -/
theorem alike_renamed (schema : Schema) {members : Entries Json}
    (h : "direction" ∉ members.keys) :
    Alike schema (.object members) (.object (members.renamed "dir" "direction")) := by
  intro request request' hgiven hgiven'
  have hdirection : directionMember? (members.renamed "dir" "direction")
      = directionMember? members := by
    rw [directionMember?, directionMember?, members.get?_renamed_old (by decide),
      Entries.get?_renamed_new h, Entries.get?_of_notMem h]
    simp
  rw [read_object hgiven, read_object hgiven', ofObject, ofObject, hdirection,
    members.get?_renamed_of_ne (by decide) (by decide)]

/-- A request with this sort parameter only. -/
def sorting (given : Json) : Request :=
  ⟨[("sort", given)]⟩

/-- The small definition, ordered by name when nothing else is asked for. -/
def byName : Definition :=
  Sample.minimal.withDefaultSort "name" .ascending

end SortKey

end ResourceQuery
