import ResourceQuery.Request.Basic

/-!
# The parameters of a query string do not disturb one another

The pairs of a query string are written one after the other, and each may replace what those before
it left: a text by a list, a list by an object, an object by a text. Still the value at a place
depends on few of them. Say that a pair *touches* a place when the place that it writes to is on the
way to it, is the place itself, or lies inside it.

One write that does not touch a place leaves the value there as it was
(`Json.at?_write_of_not_touches`), even where it makes an object of something that was none, since
then there was nothing at the place before and there is nothing after. And what a write that does
touch it leaves there depends only on what was there (`Json.at?_write_congr`). So the other pairs
can be left out, all at once.

## Main definitions

* `Json.at?`, `Request.at?`: the value that keys lead to, through objects only.
* `KeyPath.location`: the place of the value that a pair with this key writes to.
* `Request.touches`: the pairs that matter to a place.

## Main statements

* `Request.at?_foldl_filter`: the value at a place after a list of pairs is the one after those
  that touch it.
* `Request.ofQuery_frame`: the same for query strings, and what the last pair leaves.
-/

namespace ResourceQuery

/-! ### Places inside a value -/

namespace Json

/-- The value that keys lead to, through objects only. -/
def at? : Option Json → List String → Option Json
  | v, [] => v
  | some (.object members), key :: keys => at? (Entries.get? members key) keys
  | _, _ :: _ => none

/-- The place of the value that a write changes. An empty last key is no part of it: it says that
the text becomes an item of the list at the place. -/
def location (keys : List String) : List String :=
  if keys.getLast? = some "" then keys.dropLast else keys

/-- One of two places is on the way to the other, or they are the same. -/
def Touches (place other : List String) : Prop :=
  place <+: other ∨ other <+: place

instance (place other : List String) : Decidable (Touches place other) :=
  inferInstanceAs (Decidable (_ ∨ _))

/-- Nothing is found inside nothing. -/
theorem at?_none (keys : List String) : at? none keys = none := by
  cases keys <;> rfl

/-- A place below a member is found in what is found at the member. -/
theorem at?_cons (v : Option Json) (key : String) (keys : List String) :
    at? v (key :: keys) = at? (at? v [key]) keys := by
  match v with
  | some (.object _) => rfl
  | none | some .null | some (.bool _) | some (.number _) | some (.string _) | some (.array _) =>
      exact (at?_none keys).symm

/-- A key that is not the mark of an item is the first key of the place. -/
theorem location_cons {key : String} {keys : List String} (h : ¬(key = "" ∧ keys = [])) :
    location (key :: keys) = key :: location keys := by
  cases keys with
  | nil =>
      have hkey : key ≠ "" := fun heq => h ⟨heq, rfl⟩
      simp [location, hkey]
  | cons next rest =>
      simp only [location, List.getLast?_cons_cons, List.dropLast_cons_cons]
      split <;> rfl

/-- Places below two members touch when the members are the same and the places in it touch. -/
theorem touches_cons_cons {key key' : String} {place other : List String} :
    Touches (key :: place) (key' :: other) ↔ key = key' ∧ Touches place other := by
  simp only [Touches, List.cons_prefix_cons]
  constructor
  · rintro (⟨rfl, h⟩ | ⟨rfl, h⟩)
    · exact ⟨rfl, Or.inl h⟩
    · exact ⟨rfl, Or.inr h⟩
  · rintro ⟨rfl, h | h⟩
    · exact Or.inl ⟨rfl, h⟩
    · exact Or.inr ⟨rfl, h⟩

/-- The whole touches every place. -/
theorem touches_nil_left (place : List String) : Touches [] place :=
  Or.inl (List.nil_prefix)

/-- Every place touches the whole. -/
theorem touches_nil_right (place : List String) : Touches place [] :=
  Or.inr (List.nil_prefix)

/-! ### One write -/

/-- The members that a write inside a member goes on with; it drops what is no object. -/
def keptMembers : Option Json → List (String × Json)
  | some (.object members) => members
  | _ => []

/-- The items that a write of an item goes on with; it drops what is no list. -/
def keptItems : Option Json → List Json
  | some (.array items) => items
  | _ => []

/-- A write below a member puts the member, and keeps the others if there was an object. -/
theorem write_member {key : String} {keys : List String} (h : ¬(key = "" ∧ keys = []))
    (old : Option Json) (s : String) :
    write old (key :: keys) s
      = .object (Entries.put (keptMembers old) key
          (write (Entries.get? (keptMembers old) key) keys s)) := by
  rw [write.eq_def]
  simp only [if_neg h]
  rfl

/-- A write of an item appends it, to a new list if there was none. -/
theorem write_item (old : Option Json) (s : String) :
    write old [""] s = .array (keptItems old ++ [.string s]) := by
  rw [write.eq_def]
  simp only [and_self, if_true]
  split
  · rfl
  · next hlist =>
      have hnone : keptItems old = [] := by
        unfold keptItems
        split
        · next items => exact absurd rfl (hlist items)
        · rfl
      rw [hnone, List.nil_append]

/-- The members that a write keeps are those that were found. -/
theorem get?_keptMembers (old : Option Json) (key : String) :
    Entries.get? (keptMembers old) key = at? old [key] := by
  match old with
  | some (.object _) => rfl
  | none | some .null | some (.bool _) | some (.number _) | some (.string _) | some (.array _) =>
      rfl

/-- A write inside a member changes that member only. -/
theorem at?_write_member {key : String} {keys : List String} (h : ¬(key = "" ∧ keys = []))
    (old : Option Json) (s key' : String) (keys' : List String) :
    at? (some (write old (key :: keys) s)) (key' :: keys')
      = if key = key' then at? (some (write (at? old [key]) keys s)) keys'
        else at? old (key' :: keys') := by
  rw [write_member h, at?, Entries.get?_put, get?_keptMembers, get?_keptMembers]
  split
  · rfl
  · exact (at?_cons old key' keys').symm

/-- **A write leaves alone what it does not touch.** -/
theorem at?_write_of_not_touches {keys place : List String} (h : ¬Touches (location keys) place)
    (old : Option Json) (s : String) : at? (some (write old keys s)) place = at? old place := by
  induction keys generalizing old place with
  | nil => exact absurd (touches_nil_left place) h
  | cons key keys ih =>
      cases place with
      | nil => exact absurd (touches_nil_right _) h
      | cons key' place =>
          by_cases hitem : key = "" ∧ keys = []
          · obtain ⟨rfl, rfl⟩ := hitem
            exact absurd (touches_nil_left _) h
          · rw [location_cons hitem, touches_cons_cons] at h
            rw [at?_write_member hitem]
            split
            · next heq =>
                subst heq
                rw [ih (fun htouches => h ⟨rfl, htouches⟩), ← at?_cons]
            · rfl

/-- **What a write leaves where it touches depends on what was there.** -/
theorem at?_write_congr {keys place : List String} (h : Touches (location keys) place)
    {old old' : Option Json} (hold : at? old place = at? old' place) (s : String) :
    at? (some (write old keys s)) place = at? (some (write old' keys s)) place := by
  induction keys generalizing old old' place with
  | nil => rfl
  | cons key keys ih =>
      cases place with
      | nil =>
          obtain rfl : old = old' := hold
          rfl
      | cons key' place =>
          by_cases hitem : key = "" ∧ keys = []
          · obtain ⟨rfl, rfl⟩ := hitem
            rw [write_item, write_item]
            rfl
          · rw [location_cons hitem, touches_cons_cons] at h
            obtain ⟨rfl, h⟩ := h
            rw [at?_cons, at?_cons old'] at hold
            rw [at?_write_member hitem, at?_write_member hitem, if_pos rfl, if_pos rfl]
            exact ih h hold

/-- A text that is no item is at its place after it is written. -/
theorem at?_write_text {keys : List String} (h : keys.getLast? ≠ some "") (old : Option Json)
    (s : String) : at? (some (write old keys s)) (location keys) = some (.string s) := by
  induction keys generalizing old with
  | nil => rfl
  | cons key keys ih =>
      have hitem : ¬(key = "" ∧ keys = []) := by
        rintro ⟨rfl, rfl⟩
        exact h rfl
      have hlast : keys.getLast? ≠ some "" := by
        intro hlast
        refine h ?_
        cases keys with
        | nil => cases hlast
        | cons next rest => rw [List.getLast?_cons_cons, hlast]
      rw [location_cons hitem, at?_write_member hitem, if_pos rfl, ih hlast]

/-- An item is the last one of the list at its place after it is written. -/
theorem at?_write_last {keys : List String} (h : keys.getLast? = some "") (old : Option Json)
    (s : String) :
    ∃ items, at? (some (write old keys s)) (location keys)
      = some (.array (items ++ [.string s])) := by
  induction keys generalizing old with
  | nil => cases h
  | cons key keys ih =>
      by_cases hitem : key = "" ∧ keys = []
      · obtain ⟨rfl, rfl⟩ := hitem
        rw [write_item]
        exact ⟨keptItems old, rfl⟩
      · have hlast : keys.getLast? = some "" := by
          cases keys with
          | nil => exact absurd ⟨Option.some.inj h, rfl⟩ hitem
          | cons next rest => rwa [List.getLast?_cons_cons] at h
        rw [location_cons hitem, at?_write_member hitem, if_pos rfl]
        exact ih hlast _

end Json

/-! ### Pairs -/

namespace KeyPath

/-- A key that marks an item of a list. -/
def IsItem (path : KeyPath) : Prop :=
  path.segments.getLast? = some ""

instance (path : KeyPath) : Decidable path.IsItem :=
  inferInstanceAs (Decidable (_ = _))

/-- The place of the value that a pair with this key writes to: its base and its segments, but not
the mark of an item. -/
def location (path : KeyPath) : List String :=
  path.base :: Json.location path.segments

/-- The first part of a key is not empty. -/
theorem base_ne_of_ofText? {key : List Char} {path : KeyPath} (h : ofText? key = some path) :
    path.base ≠ "" := by
  rw [ofText?] at h
  split at h
  · cases h
  · next hbase =>
      obtain ⟨segments, -, rfl⟩ := Option.map_eq_some_iff.mp h
      intro heq
      exact hbase (by simpa using congrArg String.toList heq)

/-- As the first key is not empty, it is never the mark of an item. -/
theorem location_eq {path : KeyPath} (h : path.base ≠ "") :
    path.location = Json.location (path.base :: path.segments) :=
  (Json.location_cons fun hitem => h hitem.1).symm

/-- A place is that of an item when its last segment is empty. -/
theorem isItem_iff {path : KeyPath} (h : path.base ≠ "") :
    path.IsItem ↔ (path.base :: path.segments).getLast? = some "" := by
  rw [IsItem]
  cases path.segments with
  | nil => simp [h]
  | cons segment rest => rw [List.getLast?_cons_cons]

end KeyPath

namespace Request

/-- The value that keys lead to from the parameters. -/
def at? (request : Request) (place : List String) : Option Json :=
  Json.at? (some request.toJson) place

/-- The place and the text of a pair; none when its key names no place. -/
def pairWrite? (pair : List Char) : Option (KeyPath × String) :=
  (KeyPath.ofText? (decodePart (splitPair pair).1).toList).map fun path =>
    (path, decodePart (splitPair pair).2)

/-- Whether a pair writes to a place, to one on the way to it, or to one inside it. -/
def touches (place : List String) (pair : List Char) : Bool :=
  match pairWrite? pair with
  | some (path, _) => Json.Touches path.location place
  | none => false

/-- Whether a pair is for a parameter. -/
def isFor (name : String) (pair : List Char) : Bool :=
  match pairWrite? pair with
  | some (path, _) => path.base = name
  | none => false

/-- The first part of the key of a written pair is not empty. -/
theorem base_ne_of_pairWrite? {pair : List Char} {path : KeyPath} {s : String}
    (h : pairWrite? pair = some (path, s)) : path.base ≠ "" := by
  obtain ⟨found, hfound, heq⟩ := Option.map_eq_some_iff.mp h
  obtain ⟨rfl, -⟩ := Prod.mk.inj heq
  exact KeyPath.base_ne_of_ofText? hfound

/-- A pair that names no place writes nothing. -/
theorem writePair_of_none {pair : List Char} (h : pairWrite? pair = none) (request : Request) :
    request.writePair pair = request := by
  rw [pairWrite?, Option.map_eq_none_iff] at h
  simp only [writePair, h]

/-- A pair is written into the parameters as into an object. -/
theorem toJson_writePair {pair : List Char} {path : KeyPath} {s : String}
    (h : pairWrite? pair = some (path, s)) (request : Request) :
    (request.writePair pair).toJson
      = Json.write (some request.toJson) (path.base :: path.segments) s := by
  have hbase : ¬(path.base = "" ∧ path.segments = []) := fun hitem =>
    base_ne_of_pairWrite? h hitem.1
  obtain ⟨found, hfound, heq⟩ := Option.map_eq_some_iff.mp h
  obtain ⟨rfl, rfl⟩ := Prod.mk.inj heq
  rw [Json.write_member hbase]
  simp only [writePair, hfound]
  rfl

/-- A pair for a parameter is one that touches it. -/
theorem touches_singleton (name : String) (pair : List Char) :
    touches [name] pair = isFor name pair := by
  unfold touches isFor
  split
  · next path s _ =>
      have hiff : Json.Touches path.location [name] ↔ path.base = name := by
        rw [KeyPath.location, Json.touches_cons_cons]
        exact and_iff_left (Json.touches_nil_right _)
      exact decide_eq_decide.mpr hiff
  · rfl

/-- A pair that does not touch a place leaves it alone. -/
theorem at?_writePair_of_not_touches {place : List String} {pair : List Char}
    (h : touches place pair = false) (request : Request) :
    (request.writePair pair).at? place = request.at? place := by
  unfold touches at h
  split at h
  · next path s hwrite =>
      rw [KeyPath.location_eq (base_ne_of_pairWrite? hwrite)] at h
      rw [at?, toJson_writePair hwrite]
      exact Json.at?_write_of_not_touches (of_decide_eq_false h) _ s
  · next hnone => rw [writePair_of_none hnone]

/-- What a pair leaves at a place that it touches depends on what was there. -/
theorem at?_writePair_congr {place : List String} {pair : List Char}
    (h : touches place pair = true) {request request' : Request}
    (hold : request.at? place = request'.at? place) :
    (request.writePair pair).at? place = (request'.writePair pair).at? place := by
  unfold touches at h
  split at h
  · next path s hwrite =>
      rw [KeyPath.location_eq (base_ne_of_pairWrite? hwrite)] at h
      rw [at?, at?, toJson_writePair hwrite, toJson_writePair hwrite]
      exact Json.at?_write_congr (of_decide_eq_true h) hold s
  · cases h

/-! ### Lists of pairs -/

/-- **The value at a place after a list of pairs** is the one after those that touch it. -/
theorem at?_foldl_filter (place : List String) (pairs : List (List Char))
    {request request' : Request} (h : request.at? place = request'.at? place) :
    (pairs.foldl writePair request).at? place
      = ((pairs.filter (touches place)).foldl writePair request').at? place := by
  induction pairs generalizing request request' with
  | nil => exact h
  | cons pair pairs ih =>
      cases htouches : touches place pair with
      | true =>
          rw [List.filter_cons_of_pos htouches]
          exact ih (at?_writePair_congr htouches h)
      | false =>
          rw [List.filter_cons_of_neg (Bool.eq_false_iff.mp htouches)]
          exact ih ((at?_writePair_of_not_touches htouches request).trans h)

/-- Pairs that do not touch a place leave it alone. -/
theorem at?_foldl_of_not_touches {place : List String} {pairs : List (List Char)}
    (h : ∀ pair ∈ pairs, touches place pair = false) (request : Request) :
    (pairs.foldl writePair request).at? place = request.at? place := by
  have hnone : pairs.filter (touches place) = [] :=
    List.filter_eq_nil_iff.mpr fun pair hm => Bool.eq_false_iff.mp (h pair hm)
  rw [at?_foldl_filter place pairs (rfl : request.at? place = request.at? place), hnone]
  rfl

/-- What a pair leaves at its own place: its text, or a list with its text as the last item. -/
theorem at?_writePair_location {pair : List Char} {path : KeyPath} {s : String}
    (h : pairWrite? pair = some (path, s)) (request : Request) :
    (¬path.IsItem → (request.writePair pair).at? path.location = some (.string s)) ∧
      (path.IsItem → ∃ items,
        (request.writePair pair).at? path.location = some (.array (items ++ [.string s]))) := by
  have hbase : path.base ≠ "" := base_ne_of_pairWrite? h
  rw [at?, toJson_writePair h, KeyPath.location_eq hbase, KeyPath.isItem_iff hbase]
  exact ⟨fun htext => Json.at?_write_text htext _ s, fun hitem => Json.at?_write_last hitem _ s⟩

/-- **The pairs of a query string do not disturb one another.** The value at a place is the one that
those pairs leave which touch it, in their order; pairs whose key names no place touch none. So a
parameter depends on its own pairs only, and the last pair that touches its place has its text
there, or as the last item of the list there. -/
theorem ofQuery_frame (query : String) :
    (∀ place, (ofQuery query).at? place
      = (((queryPairs query.toList).filter (touches place)).foldl writePair empty).at? place) ∧
    (∀ before pair after path s, queryPairs query.toList = before ++ pair :: after →
      pairWrite? pair = some (path, s) → (∀ later ∈ after, touches path.location later = false) →
      (¬path.IsItem → (ofQuery query).at? path.location = some (.string s)) ∧
        (path.IsItem → ∃ items,
          (ofQuery query).at? path.location = some (.array (items ++ [.string s])))) ∧
    (∀ name, (ofQuery query).get? name
      = (((queryPairs query.toList).filter (isFor name)).foldl writePair empty).get? name) := by
  have hframe : ∀ place, (ofQuery query).at? place
      = (((queryPairs query.toList).filter (touches place)).foldl writePair empty).at? place :=
    fun place => at?_foldl_filter place _ rfl
  refine ⟨hframe, ?_, fun name => ?_⟩
  · intro before pair after path s hpairs hwrite hafter
    rw [ofQuery, hpairs, List.foldl_append, List.foldl_cons, at?_foldl_of_not_touches hafter]
    exact at?_writePair_location hwrite _
  · have hpairs : (queryPairs query.toList).filter (touches [name])
        = (queryPairs query.toList).filter (isFor name) :=
      List.filter_congr fun pair _ => touches_singleton name pair
    have hname := hframe [name]
    rw [hpairs] at hname
    exact hname

/-- A query string whose parameters change their kind: `a` is a text, then an object, and `b` an
object, then a text. One key names no place. -/
def crossingQuery : String := "a=1&b[c]=2&a[x][]=3&[a]=4&a[x][]=5&b=6&a[y]=7"

/-- The last pair for the list is neither disturbed by the text for `b` nor by the one beside it. -/
theorem ofQuery_frame_crossing :
    pairWrite? "a[x][]=5".toList = some (⟨"a", ["x", ""]⟩, "5") ∧
      (∃ items, (ofQuery crossingQuery).at? ["a", "x"] = some (.array (items ++ [.string "5"]))) ∧
      (ofQuery crossingQuery).get? "b"
        = (["b[c]=2".toList, "b=6".toList].foldl writePair empty).get? "b" := by
  have hwrite : pairWrite? "a[x][]=5".toList = some (⟨"a", ["x", ""]⟩, "5") := by decide +kernel
  have hpairs : queryPairs crossingQuery.toList
      = ["a=1".toList, "b[c]=2".toList, "a[x][]=3".toList, "[a]=4".toList] ++
          "a[x][]=5".toList :: ["b=6".toList, "a[y]=7".toList] := by decide +kernel
  have hafter : ∀ later ∈ ["b=6".toList, "a[y]=7".toList],
      touches (KeyPath.location ⟨"a", ["x", ""]⟩) later = false := by decide +kernel
  have hb : (queryPairs crossingQuery.toList).filter (isFor "b")
      = ["b[c]=2".toList, "b=6".toList] := by decide +kernel
  refine ⟨hwrite, ?_, ?_⟩
  · exact ((ofQuery_frame crossingQuery).2.1 _ _ _ _ _ hpairs hwrite hafter).2 (by decide)
  · rw [(ofQuery_frame crossingQuery).2.2 "b", hb]

end Request

end ResourceQuery
