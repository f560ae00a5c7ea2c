import ResourceQuery.Proofs.Entries
import ResourceQuery.Proofs.Request.KeyPath
import ResourceQuery.Proofs.Text.Cutting
import ResourceQuery.Proofs.Text.Percent
import ResourceQuery.Request.Basic

/-!
# Query strings of requests

A request whose parameters are texts, lists of texts and objects of such values can be written as a
query string, one pair for each text. `Request.toQuery` is the writer, and reading undoes it
(`Request.ofQuery_toQuery`).

Two things have to be seen. Each pair is decoded to the place and the text that it was written for:
all that is encoded keeps clear of the separators. And the writes, one after the other, build the
parameters up again. For the latter the induction is on the value: the writes of a member stand next
to each other, so the first of them finds its name unused and appends the member, and the others
find it at the end (`Json.writeAllUnder_of_fresh`). An object thus grows member by member, in order.

## Main definitions

* `Json.Representable`, `Request.Representable`: what can be written as a query string.
* `Json.writes`, `Request.writes`: the texts of a value, or of a request, with their places.
* `Request.toQuery`: the query string of a request.

## Main statements

* `Json.Representable.writeAll_writes`: its writes build a value up.
* `Request.ofQuery_toQuery`: reading a query string undoes writing it.
-/

namespace ResourceQuery

/-! ### What can be written -/

namespace Json

/-- A value that can be written as a query string: a text, a list of texts, or an object of such
values. A list or an object without an element has no pair; a closing bracket would end a name too
early; and an empty name before a text is how items of lists are written. -/
inductive Representable : Json → Prop
  | string (s : String) : Representable (.string s)
  | list {items : List String} : items ≠ [] → Representable (ofStrings items)
  | object {members : List (String × Json)} :
      members ≠ [] → (Entries.keys members).Nodup →
      (∀ name ∈ Entries.keys members, ']' ∉ name.toList) → (∀ s, ("", .string s) ∉ members) →
      (∀ member ∈ members, Representable member.2) → Representable (.object members)

/-- The write of an item of a list. Only texts can be items. -/
def itemWrite? : Json → Option (List String × String)
  | .string s => some ([""], s)
  | _ => none

mutual

/-- The texts of a value with the segments that lead to them, in order. -/
def writes : Json → List (List String × String)
  | .string s => [([], s)]
  | .array items => items.filterMap itemWrite?
  | .object members => memberWrites members
  | _ => []

/-- The texts of the members of an object, in order. -/
def memberWrites : List (String × Json) → List (List String × String)
  | [] => []
  | (name, v) :: rest =>
    (writes v).map (fun (segments, s) => (name :: segments, s)) ++ memberWrites rest

end

/-! ### Building a value up -/

/-- The value at a place after texts are written there, one after the other. -/
def writeAll : Option Json → List (List String × String) → Option Json
  | old, [] => old
  | old, (segments, s) :: rest => writeAll (some (write old segments s)) rest

/-- The members after a text is written inside one of them. -/
def writeUnder (name : String) (members : List (String × Json)) (segments : List String)
    (s : String) : List (String × Json) :=
  Entries.put members name (write (Entries.get? members name) segments s)

/-- The members after texts are written inside one of them, one after the other. -/
def writeAllUnder (name : String) :
    List (String × Json) → List (List String × String) → List (String × Json)
  | members, [] => members
  | members, (segments, s) :: rest => writeAllUnder name (writeUnder name members segments s) rest

/-- The members after the texts of other members are written, one member after the other. -/
def writeMembers : List (String × Json) → List (String × Json) → List (String × Json)
  | before, [] => before
  | before, (name, v) :: rest => writeMembers (writeAllUnder name before v.writes) rest

/-- Writes one after the other are made one after the other. -/
theorem writeAll_append (old : Option Json) (first second : List (List String × String)) :
    writeAll old (first ++ second) = writeAll (writeAll old first) second := by
  induction first generalizing old with
  | nil => rfl
  | cons write rest ih => exact ih _

/-- Writes inside the last member change its value. -/
theorem writeAllUnder_of_last {name : String} {members : List (String × Json)} {old v : Json}
    {writes : List (List String × String)} (h : name ∉ Entries.keys members)
    (hv : writeAll (some old) writes = some v) :
    writeAllUnder name (members ++ [(name, old)]) writes = members ++ [(name, v)] := by
  induction writes generalizing old with
  | nil =>
      obtain rfl := Option.some.inj hv
      rfl
  | cons first rest ih =>
      obtain ⟨segments, s⟩ := first
      rw [writeAllUnder, writeUnder, Entries.get?_append_last h, Entries.put_append_last h]
      exact ih hv

/-- **Writes inside a new member append it**, with the value that they build up. -/
theorem writeAllUnder_of_fresh {name : String} {members : List (String × Json)} {v : Json}
    {writes : List (List String × String)} (h : name ∉ Entries.keys members)
    (hv : writeAll none writes = some v) :
    writeAllUnder name members writes = members ++ [(name, v)] := by
  cases writes with
  | nil => cases hv
  | cons first rest =>
      obtain ⟨segments, s⟩ := first
      rw [writeAllUnder, writeUnder, Entries.get?_of_notMem h, Entries.put_of_notMem h]
      exact writeAllUnder_of_last h hv

/-- Members that can each be built up are appended in order. -/
theorem writeMembers_eq_append {members : List (String × Json)} (before : List (String × Json))
    (hnodup : (Entries.keys (before ++ members)).Nodup)
    (hv : ∀ member ∈ members, writeAll none member.2.writes = some member.2) :
    writeMembers before members = before ++ members := by
  induction members generalizing before with
  | nil => exact (List.append_nil before).symm
  | cons member rest ih =>
      obtain ⟨name, v⟩ := member
      obtain ⟨hfirst, hrest⟩ := List.forall_mem_cons.mp hv
      have hfresh : name ∉ Entries.keys before := by
        intro hm
        rw [Entries.keys, List.map_append, List.nodup_append] at hnodup
        exact hnodup.2.2 name hm name (by simp) rfl
      rw [writeMembers, writeAllUnder_of_fresh hfresh hfirst, ih _ (by simpa using hnodup) hrest,
        List.append_assoc]
      rfl

/-- A text inside an object is written inside a member, unless the place is that of an item. -/
theorem write_object {name : String} {segments : List String} (h : ¬(name = "" ∧ segments = []))
    (members : List (String × Json)) (s : String) :
    write (some (.object members)) (name :: segments) s
      = .object (writeUnder name members segments s) := by
  rw [write, if_neg h]
  rfl

/-- A text where nothing is makes an object, unless the place is that of an item. -/
theorem write_none {name : String} {segments : List String} (h : ¬(name = "" ∧ segments = []))
    (s : String) :
    write none (name :: segments) s = .object (writeUnder name [] segments s) := by
  simp only [write, if_neg h]
  rfl

/-- Writes inside one member of an object. -/
theorem writeAll_map_cons {name : String} {writes : List (List String × String)}
    (h : ∀ segments s, (segments, s) ∈ writes → ¬(name = "" ∧ segments = []))
    (members : List (String × Json)) :
    writeAll (some (.object members)) (writes.map fun (segments, s) => (name :: segments, s))
      = some (.object (writeAllUnder name members writes)) := by
  induction writes generalizing members with
  | nil => rfl
  | cons first rest ih =>
      obtain ⟨segments, s⟩ := first
      have hfirst : ¬(name = "" ∧ segments = []) := h segments s List.mem_cons_self
      rw [List.map_cons, writeAll, write_object hfirst, writeAllUnder]
      exact ih (fun segments s hm => h segments s (List.mem_cons_of_mem _ hm)) _

/-- Writes inside the members of an object, one member after the other. -/
theorem writeAll_memberWrites {members : List (String × Json)}
    (h : ∀ name v, (name, v) ∈ members → ∀ segments s, (segments, s) ∈ v.writes →
      ¬(name = "" ∧ segments = [])) (before : List (String × Json)) :
    writeAll (some (.object before)) (memberWrites members)
      = some (.object (writeMembers before members)) := by
  induction members generalizing before with
  | nil => rfl
  | cons member rest ih =>
      obtain ⟨name, v⟩ := member
      rw [memberWrites, writeAll_append, writeAll_map_cons (h name v List.mem_cons_self),
        ih fun name v hm => h name v (List.mem_cons_of_mem _ hm), writeMembers]

/-- Items are appended to a list in order. -/
theorem writeAll_items (before items : List String) :
    writeAll (some (ofStrings before)) ((items.map string).filterMap itemWrite?)
      = some (ofStrings (before ++ items)) := by
  induction items generalizing before with
  | nil => rw [List.append_nil]; rfl
  | cons s rest ih =>
      have happend : write (some (ofStrings before)) [""] s = ofStrings (before ++ [s]) := by
        simp [write, ofStrings]
      change writeAll (some (write (some (ofStrings before)) [""] s)) _ = _
      rw [happend, ih, List.append_assoc]
      rfl

/-- A text of the members of an object is one of a member. -/
theorem exists_of_mem_memberWrites {members : List (String × Json)} {segments : List String}
    {s : String} (h : (segments, s) ∈ memberWrites members) :
    ∃ name v below, (name, v) ∈ members ∧ segments = name :: below ∧ (below, s) ∈ v.writes := by
  induction members with
  | nil => cases h
  | cons member rest ih =>
      obtain ⟨name, v⟩ := member
      rw [memberWrites] at h
      rcases List.mem_append.mp h with h | h
      · obtain ⟨⟨below, text⟩, hbelow, heq⟩ := List.mem_map.mp h
        obtain ⟨rfl, rfl⟩ := Prod.mk.inj heq
        exact ⟨name, v, below, List.mem_cons_self, rfl, hbelow⟩
      · obtain ⟨name, v, below, hm, hsegments, hbelow⟩ := ih h
        exact ⟨name, v, below, List.mem_cons_of_mem _ hm, hsegments, hbelow⟩

namespace Representable

/-- Only a text is at the place of the value itself. -/
theorem segments_ne_nil {v : Json} (h : ∀ s, v ≠ .string s) {segments : List String} {s : String}
    (hm : (segments, s) ∈ v.writes) : segments ≠ [] := by
  cases v with
  | string s => exact absurd rfl (h s)
  | array items =>
      rw [writes] at hm
      obtain ⟨item, -, hitem⟩ := List.mem_filterMap.mp hm
      cases item with
      | string s =>
          obtain ⟨rfl, rfl⟩ := Prod.mk.inj (Option.some.inj hitem)
          simp
      | _ => cases hitem
  | object members =>
      obtain ⟨name, v, below, -, rfl, -⟩ := exists_of_mem_memberWrites hm
      simp
  | _ => cases hm

/-- **Its writes build a value up.** -/
theorem writeAll_writes {v : Json} (h : v.Representable) : writeAll none v.writes = some v := by
  induction h with
  | string s => rfl
  | @list items hne =>
      cases items with
      | nil => exact absurd rfl hne
      | cons s rest => exact writeAll_items [s] rest
  | @object members hne hnodup _ hitems _ ih =>
      have hplaces : ∀ name v, (name, v) ∈ members → ∀ segments s, (segments, s) ∈ v.writes →
          ¬(name = "" ∧ segments = []) := by
        rintro name v hm segments s hw ⟨rfl, hnil⟩
        exact segments_ne_nil (fun s heq => hitems s (heq ▸ hm)) hw hnil
      -- where nothing is, the first write makes the object that the others go on with
      have hempty : writeAll none (memberWrites members)
          = writeAll (some (.object [])) (memberWrites members) := by
        cases members with
        | nil => exact absurd rfl hne
        | cons member rest =>
            obtain ⟨name, v⟩ := member
            have hv : writeAll none v.writes = some v := ih _ List.mem_cons_self
            cases hw : v.writes with
            | nil => rw [hw] at hv; cases hv
            | cons first others =>
                obtain ⟨segments, s⟩ := first
                have hfirst : (segments, s) ∈ v.writes := by
                  rw [hw]
                  exact List.mem_cons_self
                have hplace : ¬(name = "" ∧ segments = []) :=
                  hplaces name v List.mem_cons_self segments s hfirst
                rw [memberWrites, hw, List.map_cons, List.cons_append, writeAll, writeAll,
                  write_none hplace, write_object hplace]
      rw [writes, hempty, writeAll_memberWrites hplaces, writeMembers_eq_append [] hnodup ih]
      rfl

/-- The names on the way to a text have no closing bracket. -/
theorem segments_clear {v : Json} (h : v.Representable) {segments : List String} {s : String}
    (hm : (segments, s) ∈ v.writes) : ∀ segment ∈ segments, ']' ∉ segment.toList := by
  induction h generalizing segments with
  | string s =>
      obtain ⟨rfl, rfl⟩ := Prod.mk.inj (List.mem_singleton.mp hm)
      simp
  | list _ =>
      rw [ofStrings, writes] at hm
      obtain ⟨item, hitem, hwrite⟩ := List.mem_filterMap.mp hm
      obtain ⟨text, -, rfl⟩ := List.mem_map.mp hitem
      obtain ⟨rfl, rfl⟩ := Prod.mk.inj (Option.some.inj hwrite)
      simp
  | object _ _ hclear _ _ ih =>
      obtain ⟨name, v, below, hmem, rfl, hbelow⟩ := exists_of_mem_memberWrites hm
      have hname : ']' ∉ name.toList := hclear name (List.mem_map.mpr ⟨_, hmem, rfl⟩)
      exact List.forall_mem_cons.mpr ⟨hname, ih _ hmem hbelow⟩

end Representable

end Json

namespace Request

/-- A request that can be written as a query string: its names are distinct, not empty and without
an opening bracket, and its values can be written. -/
structure Representable (request : Request) : Prop where
  nodup : (Entries.keys request.params).Nodup
  name_ne : ∀ name ∈ Entries.keys request.params, name ≠ ""
  name_clear : ∀ name ∈ Entries.keys request.params, '[' ∉ name.toList
  values : ∀ param ∈ request.params, param.2.Representable

/-- The texts of a request with their places, in order. -/
def writes (request : Request) : List (KeyPath × String) :=
  request.params.flatMap fun (name, v) =>
    v.writes.map fun (segments, s) => (⟨name, segments⟩, s)

/-- The places of a request can be written as keys. -/
theorem Representable.wellFormed {request : Request} (h : request.Representable)
    {path : KeyPath} {s : String} (hm : (path, s) ∈ request.writes) : path.WellFormed := by
  obtain ⟨⟨name, v⟩, hparam, hwrite⟩ := List.mem_flatMap.mp hm
  obtain ⟨⟨segments, text⟩, hsegments, heq⟩ := List.mem_map.mp hwrite
  obtain ⟨rfl, rfl⟩ := Prod.mk.inj heq
  have hname : name ∈ Entries.keys request.params := List.mem_map.mpr ⟨_, hparam, rfl⟩
  exact ⟨h.name_ne name hname, h.name_clear name hname,
    (h.values _ hparam).segments_clear hsegments⟩

/-- The writes of one parameter are writes inside a member. -/
theorem foldl_write_param (name : String) (ws : List (List String × String)) (before : Request) :
    (ws.map fun (segments, s) => ((⟨name, segments⟩ : KeyPath), s)).foldl
        (fun request (path, s) => request.write path s) before
      = ⟨Json.writeAllUnder name before.params ws⟩ := by
  induction ws generalizing before with
  | nil => rfl
  | cons first rest ih => exact ih _

/-- The writes of a request go through its parameters in order. -/
theorem foldl_write_writes (params : List (String × Json)) (before : Request) :
    (writes ⟨params⟩).foldl (fun request (path, s) => request.write path s) before
      = ⟨Json.writeMembers before.params params⟩ := by
  induction params generalizing before with
  | nil => rfl
  | cons param rest ih =>
      obtain ⟨name, v⟩ := param
      rw [writes, List.flatMap_cons, List.foldl_append, foldl_write_param name v.writes before]
      exact ih _

/-- **Its writes build a request up.** -/
theorem Representable.foldl_writes {request : Request} (h : request.Representable) :
    request.writes.foldl (fun request (path, s) => request.write path s) empty = request := by
  rw [foldl_write_writes request.params empty]
  exact congrArg Request.mk (Json.writeMembers_eq_append [] h.nodup
    fun param hm => (h.values param hm).writeAll_writes)

end Request

/-! ### Pairs -/

/-- A key of a query string. With escaped brackets the whole key is encoded; otherwise the brackets
stand as they are, between the encoded parts. -/
def KeyPath.encode (path : KeyPath) : Bool → List Char
  | true => Text.percentEncode (String.ofList path.text)
  | false =>
    Text.percentEncode path.base ++
      path.segments.flatMap fun segment => '[' :: (Text.percentEncode segment ++ [']'])

/-- An encoded key has no characters but percent signs, ASCII letters and digits, and brackets. -/
theorem KeyPath.of_mem_encode {path : KeyPath} {escaped : Bool} {c : Char}
    (h : c ∈ path.encode escaped) : c = '%' ∨ c.isAlphanum = true ∨ c = '[' ∨ c = ']' := by
  cases escaped with
  | true => exact (Text.of_mem_percentEncode h).imp_right Or.inl
  | false =>
      rcases List.mem_append.mp h with h | h
      · exact (Text.of_mem_percentEncode h).imp_right Or.inl
      · obtain ⟨segment, -, hc⟩ := List.mem_flatMap.mp h
        simp only [List.mem_cons, List.mem_append, List.not_mem_nil, or_false] at hc
        rcases hc with rfl | hc | rfl
        · simp
        · exact (Text.of_mem_percentEncode hc).imp_right Or.inl
        · simp

/-- An encoded key stands for the bytes of the key. -/
theorem KeyPath.percentBytes_encode (path : KeyPath) (escaped : Bool) :
    Text.percentBytes (path.encode escaped) = Text.utf8Bytes path.text := by
  cases escaped with
  | true =>
      rw [encode, Text.percentBytes_percentEncode, String.toList_ofList]
  | false =>
      rw [encode, Text.percentBytes_percentEncode_append, text, Text.utf8Bytes, Text.utf8Bytes,
        List.flatMap_append]
      congr 1
      induction path.segments with
      | nil => rfl
      | cons segment rest ih =>
          rw [List.flatMap_cons, List.cons_append, Text.percentBytes_cons (by decide),
            List.append_assoc, Text.percentBytes_percentEncode_append, List.singleton_append,
            Text.percentBytes_cons (by decide), ih]
          simp [segmentText, Text.utf8Bytes]

namespace Request

/-- A pair of a query string. -/
def pairText (escaped : Bool) (write : KeyPath × String) : List Char :=
  write.1.encode escaped ++ '=' :: Text.percentEncode write.2

/-- The query string of a request, with or without escaped brackets. -/
def toQuery (request : Request) (escaped : Bool) : String :=
  String.ofList (['&'].intercalate (request.writes.map (pairText escaped)))

/-- A part of a query string is decoded to the characters whose bytes it stands for. -/
theorem decodePart_eq {part cs : List Char} (hplus : '+' ∉ part)
    (hbytes : Text.percentBytes part = Text.utf8Bytes cs) : decodePart part = String.ofList cs := by
  have hspaced : part.map (fun c => if c = '+' then ' ' else c) = part := by
    refine (List.map_congr_left fun c hc => ?_).trans (List.map_id part)
    have hne : c ≠ '+' := fun heq => hplus (heq ▸ hc)
    exact if_neg hne
  rw [decodePart, hspaced, Text.percentDecode?_eq_some hbytes]
  rfl

/-- A pair is read as the write that it was made for. -/
theorem writePair_pairText (request : Request) {path : KeyPath} (h : path.WellFormed)
    (escaped : Bool) (s : String) :
    request.writePair (pairText escaped (path, s)) = request.write path s := by
  have hchar : ∀ c, c ≠ '%' → c.isAlphanum = false → c ≠ '[' → c ≠ ']' →
      c ∉ path.encode escaped := by
    intro c h1 h2 h3 h4 hc
    rcases KeyPath.of_mem_encode hc with heq | htrue | heq | heq
    · exact h1 heq
    · exact absurd htrue (by simp [h2])
    · exact h3 heq
    · exact h4 heq
  have hpair : splitPair (pairText escaped (path, s))
      = (path.encode escaped, Text.percentEncode s) := by
    rw [splitPair, pairText,
      Text.cutFirst_append (hchar '=' (by decide) (by decide) (by decide) (by decide))]
    rfl
  have hkey : decodePart (path.encode escaped) = String.ofList path.text :=
    decodePart_eq (hchar '+' (by decide) (by decide) (by decide) (by decide))
      (path.percentBytes_encode escaped)
  have hvalue : decodePart (Text.percentEncode s) = s := by
    simpa using decodePart_eq (Text.notMem_percentEncode (by decide) (by decide))
      (Text.percentBytes_percentEncode s)
  rw [writePair, hpair]
  simp only [hkey, hvalue, String.toList_ofList, KeyPath.ofText?_text h]

/-- The pairs of a query string are found again. -/
theorem queryPairs_intercalate {parts : List (List Char)}
    (h : ∀ part ∈ parts, part ≠ [] ∧ '&' ∉ part ∧ '?' ∉ part) :
    queryPairs (['&'].intercalate parts) = parts := by
  have hquestion : '?' ∉ ['&'].intercalate parts := by
    intro hc
    rcases Text.of_mem_intercalate hc with heq | ⟨part, hpart, hc⟩
    · exact absurd heq (by decide)
    · exact (h part hpart).2.2 hc
  have hparts : (Text.splitOn '&' (['&'].intercalate parts)).filter (· ≠ []) = parts := by
    cases parts with
    | nil => rfl
    | cons first rest =>
        rw [Text.splitOn_intercalate (by simp) fun part hm => (h part hm).2.1]
        exact List.filter_eq_self.mpr fun part hm => decide_eq_true (h part hm).1
  unfold queryPairs
  split
  · next rest heq => exact absurd (by rw [heq]; exact List.mem_cons_self) hquestion
  · exact hparts

/-- A pair has the characters of its key and of its text, and the sign between them. -/
theorem of_mem_pairText {escaped : Bool} {write : KeyPath × String} {c : Char}
    (h : c ∈ pairText escaped write) :
    c = '%' ∨ c.isAlphanum = true ∨ c = '[' ∨ c = ']' ∨ c = '=' := by
  rcases List.mem_append.mp h with hc | hc
  · rcases KeyPath.of_mem_encode hc with heq | htrue | heq | heq <;> simp [*]
  · rcases List.mem_cons.mp hc with heq | hc
    · simp [heq]
    · rcases Text.of_mem_percentEncode hc with heq | htrue <;> simp [*]

/-- The pairs of a request are found in its query string. -/
theorem queryPairs_toQuery (request : Request) (escaped : Bool) :
    queryPairs (request.toQuery escaped).toList = request.writes.map (pairText escaped) := by
  rw [toQuery, String.toList_ofList]
  refine queryPairs_intercalate fun part hm => ?_
  obtain ⟨write, -, rfl⟩ := List.mem_map.mp hm
  refine ⟨by simp [pairText], fun hc => ?_, fun hc => ?_⟩
  · exact absurd (of_mem_pairText hc) (by decide)
  · exact absurd (of_mem_pairText hc) (by decide)

/-- The pairs are read as the writes that they were made for, one after the other. -/
theorem foldl_writePair {ws : List (KeyPath × String)} (escaped : Bool) (before : Request)
    (h : ∀ path s, (path, s) ∈ ws → path.WellFormed) :
    (ws.map (pairText escaped)).foldl writePair before
      = ws.foldl (fun request (path, s) => request.write path s) before := by
  induction ws generalizing before with
  | nil => rfl
  | cons first rest ih =>
      obtain ⟨path, s⟩ := first
      rw [List.map_cons, List.foldl_cons, List.foldl_cons,
        writePair_pairText before (h path s List.mem_cons_self)]
      exact ih _ fun path s hm => h path s (List.mem_cons_of_mem _ hm)

/-- **Reading a query string undoes writing it**, whether or not its brackets are escaped. -/
theorem ofQuery_toQuery {request : Request} (h : request.Representable) (escaped : Bool) :
    ofQuery (request.toQuery escaped) = request := by
  rw [ofQuery, queryPairs_toQuery, foldl_writePair escaped _ fun path s hm => h.wellFormed hm]
  exact h.foldl_writes

/-- A request with a list inside an object, an empty name, and characters that have to be
escaped. -/
def nestedRequest : Request :=
  ⟨[("filter", .object
      [("age", .object [("in", Json.ofStrings ["18", "30"])]),
        ("", .object [("a[b", .string "1 + 1 = 2 & ü")])]),
    ("sort", .string "-age")]⟩

/-- The nested request is read back from its query string. -/
theorem ofQuery_toQuery_nested :
    nestedRequest.Representable ∧ ofQuery (nestedRequest.toQuery false) = nestedRequest := by
  have hrepresentable : nestedRequest.Representable := by
    refine ⟨by decide, by decide, by decide, List.forall_mem_cons.mpr ⟨?_,
      List.forall_mem_cons.mpr ⟨.string _, by simp⟩⟩⟩
    refine .object (by simp) (by decide) (by decide) (by simp) ?_
    refine List.forall_mem_cons.mpr ⟨?_, List.forall_mem_cons.mpr ⟨?_, by simp⟩⟩
    · exact .object (by simp) (by decide) (by decide) (by simp)
        (List.forall_mem_cons.mpr ⟨.list (by simp), by simp⟩)
    · exact .object (by simp) (by decide) (by decide) (by simp)
        (List.forall_mem_cons.mpr ⟨.string _, by simp⟩)
  exact ⟨hrepresentable, ofQuery_toQuery hrepresentable false⟩

example : toQuery ⟨[("sort", .object [("dir", .string "a b")])]⟩ false = "sort[dir]=a%20b" := by
  decide +kernel

end Request

end ResourceQuery
