import ResourceQuery.Proofs.Request.Frame
import ResourceQuery.Proofs.Request.Query

/-!
# Query strings only make what they can be made for

Whatever a query string is, its parameters can be written as a query string: they are texts, lists
of texts and objects of such values, nowhere empty, with names that a key can spell. This is an
invariant of the writes. A write makes a text, an item of a list or a member of an object, where it
drops what it does not fit; so it keeps the invariant at every depth (`Json.Representable.write`),
and the pairs of a query string keep it one after the other, from the empty request on.

Hence reading a query string leaves a request that is written and read again without a change: of
all the query strings for it, the written one is a canonical one.

## Main definitions

* `Json.Members`: the members of an object that a write may go on with.

## Main statements

* `Json.Representable.write`: a write keeps a value one that can be written.
* `Request.Representable.foldl_writePair`: so do the pairs of a query string.
* `Request.representable_ofQuery`: a query string makes a request that can be written, and is the
  same when it is read again.
-/

namespace ResourceQuery

/-! ### One write -/

namespace Json

/-- The members of an object that can be written, or of one without a member. -/
structure Members (members : List (String × Json)) : Prop where
  nodup : (Entries.keys members).Nodup
  clear : ∀ name ∈ Entries.keys members, ']' ∉ name.toList
  no_item : ∀ s, ("", .string s) ∉ members
  values : ∀ member ∈ members, member.2.Representable

namespace Members

/-- No members are members. -/
theorem nil : Members [] :=
  ⟨List.nodup_nil, by simp [Entries.keys], by simp, by simp⟩

/-- What a write goes on with, if what was there can be written. -/
theorem keptMembers {old : Option Json} (h : ∀ v ∈ old, v.Representable) :
    Members (keptMembers old) := by
  cases old with
  | none => exact nil
  | some v =>
      cases h v rfl with
      | object _ hnodup hclear hitem hvalues => exact ⟨hnodup, hclear, hitem, hvalues⟩
      | string s => exact nil
      | list _ => exact nil

/-- The value of a member can be written. -/
theorem get? {members : List (String × Json)} (h : Members members) (name : String) :
    ∀ v ∈ Entries.get? members name, v.Representable :=
  fun _ hv => h.values _ (Entries.mem_of_get? hv)

/-- Members with one that is written. -/
theorem put {members : List (String × Json)} (h : Members members) {name : String} {v : Json}
    (hname : ']' ∉ name.toList) (hitem : name = "" → ∀ s, v ≠ .string s)
    (hv : v.Representable) : Members (Entries.put members name v) := by
  refine ⟨Entries.nodup_keys_put h.nodup name v, fun key hkey => ?_, fun s hs => ?_, ?_⟩
  · rcases Entries.mem_keys_put hkey with rfl | hkey
    · exact hname
    · exact h.clear key hkey
  · rcases Entries.mem_put hs with heq | hs
    · exact hitem (congrArg Prod.fst heq).symm s (congrArg Prod.snd heq).symm
    · exact h.no_item s hs
  · intro member hmember
    rcases Entries.mem_put hmember with rfl | hmember
    · exact hv
    · exact h.values member hmember

/-- Members make an object that can be written, if there are any. -/
theorem representable {members : List (String × Json)} (h : Members members)
    (hne : members ≠ []) : (Json.object members).Representable :=
  .object hne h.nodup h.clear h.no_item h.values

end Members

/-- A text is written as a text at the place itself only. -/
theorem write_ne_string {segments : List String} (h : segments ≠ []) (old : Option Json)
    (s text : String) : write old segments s ≠ .string text := by
  cases segments with
  | nil => exact absurd rfl h
  | cons segment rest =>
      by_cases hitem : segment = "" ∧ rest = []
      · obtain ⟨rfl, rfl⟩ := hitem
        rw [write_item]
        simp
      · rw [write_member hitem]
        simp

/-- The items of a list that can be written are texts. -/
theorem keptItems_eq {old : Option Json} (h : ∀ v ∈ old, v.Representable) :
    ∃ texts : List String, keptItems old = texts.map string := by
  cases old with
  | none => exact ⟨[], rfl⟩
  | some v =>
      cases h v rfl with
      | @list items _ => exact ⟨items, rfl⟩
      | string s => exact ⟨[], rfl⟩
      | object => exact ⟨[], rfl⟩

/-- **A write keeps a value one that can be written**, at a place that a key can spell. -/
theorem Representable.write {old : Option Json} (h : ∀ v ∈ old, v.Representable)
    {segments : List String} (hclear : ∀ segment ∈ segments, ']' ∉ segment.toList) (s : String) :
    (Json.write old segments s).Representable := by
  induction segments generalizing old with
  | nil => exact .string s
  | cons segment rest ih =>
      obtain ⟨hsegment, hrest⟩ := List.forall_mem_cons.mp hclear
      by_cases hitem : segment = "" ∧ rest = []
      · obtain ⟨rfl, rfl⟩ := hitem
        obtain ⟨texts, htexts⟩ := keptItems_eq h
        have hlist : Json.write old [""] s = ofStrings (texts ++ [s]) := by
          rw [write_item, htexts, ofStrings, List.map_append]
          rfl
        rw [hlist]
        exact .list (by simp)
      · rw [write_member hitem]
        have hmembers := Members.keptMembers h
        have hvalue := ih (hmembers.get? segment) hrest
        refine (hmembers.put hsegment (fun heq => ?_) hvalue).representable
          (Entries.put_ne_nil _ _ _)
        exact write_ne_string (fun hnil => hitem ⟨heq, hnil⟩) _ s

end Json

/-! ### Pairs -/

namespace Request

/-- The request without parameters is representable. -/
theorem representable_empty : empty.Representable :=
  ⟨List.nodup_nil, by simp [empty, Entries.keys], by simp [empty, Entries.keys], by simp [empty]⟩

/-- A write at a place that a key can spell keeps a request one that can be written. -/
theorem Representable.write {request : Request} (h : request.Representable) {path : KeyPath}
    (hpath : path.WellFormed) (s : String) : (request.write path s).Representable := by
  have hold : ∀ v ∈ request.get? path.base, v.Representable :=
    fun _ hv => h.values _ (Entries.mem_of_get? hv)
  refine ⟨Entries.nodup_keys_put h.nodup _ _, fun name hname => ?_, fun name hname => ?_, ?_⟩
  · rcases Entries.mem_keys_put hname with rfl | hname
    · exact hpath.base_ne
    · exact h.name_ne name hname
  · rcases Entries.mem_keys_put hname with rfl | hname
    · exact hpath.base_clear
    · exact h.name_clear name hname
  · intro param hparam
    rcases Entries.mem_put hparam with rfl | hparam
    · exact .write hold hpath.segments_clear s
    · exact h.values param hparam

/-- A pair keeps a request one that can be written, whatever its key is. -/
theorem Representable.writePair {request : Request} (h : request.Representable)
    (pair : List Char) : (request.writePair pair).Representable := by
  rw [Request.writePair]
  dsimp only
  split
  · next path hpath => exact h.write (KeyPath.ofText?_eq_some_iff.mp hpath).1 _
  · exact h

/-- **The pairs of a query string keep a request one that can be written.** -/
theorem Representable.foldl_writePair {request : Request} (h : request.Representable)
    (pairs : List (List Char)) : (pairs.foldl Request.writePair request).Representable := by
  induction pairs generalizing request with
  | nil => exact h
  | cons pair pairs ih => exact ih (h.writePair pair)

/-- **A query string makes a request that can be written as one.** All its values are texts, lists
of texts that are not empty, and objects of such values that are not empty either; the parameters
have names that are not empty and without an opening bracket, and the members of objects have names
without a closing one, and not the empty one for a text. So the request is the same, with its names
in the same order, when it is written and read again. -/
theorem representable_ofQuery (query : String) :
    (ofQuery query).Representable ∧
      ∀ escaped, ofQuery ((ofQuery query).toQuery escaped) = ofQuery query := by
  have h : (ofQuery query).Representable := representable_empty.foldl_writePair _
  refine ⟨h, fun escaped => ?_⟩
  rw [ofQuery, queryPairs_toQuery, foldl_writePair escaped _ fun path s hm => h.wellFormed hm]
  exact h.foldl_writes

end Request

end ResourceQuery
