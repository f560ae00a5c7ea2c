import Mathlib.Data.List.TakeWhile
import ResourceQuery.Request.KeyPath

/-!
# Keys name their places

A place that is written as a key is read back, as long as its base is not empty and has no opening
bracket and its segments have no closing one. A segment may be empty or have opening brackets, for
an open segment ends at the first closing bracket only. Keys of another form name no place.

## Main statements

* `KeyPath.segments?_flatMap`: written segments are read back.
* `KeyPath.ofText?_text`: a written place is read back.
* `KeyPath.ofText?_eq_some_iff`: only what a place is written as is read as it.
* `KeyPath.ofText?_inverts_spelling`: reading a key and spelling a place undo each other.
-/

namespace ResourceQuery.KeyPath

/-- A place that can be written as a key. -/
structure WellFormed (path : KeyPath) : Prop where
  base_ne : path.base ≠ ""
  base_clear : '[' ∉ path.base.toList
  segments_clear : ∀ segment ∈ path.segments, ']' ∉ segment.toList

/-- An open segment is read up to its closing bracket. -/
theorem segments?_some {segment read rest : List Char} (h : ']' ∉ segment) :
    segments? (some read) (segment ++ ']' :: rest)
      = (segments? none rest).map (String.ofList (read.reverse ++ segment) :: ·) := by
  induction segment generalizing read with
  | nil => simp [segments?]
  | cons c segment ih =>
      rw [List.mem_cons, not_or] at h
      rw [List.cons_append, segments?, if_neg (Ne.symm h.1), ih h.2]
      simp

/-- **Written segments are read back.** -/
theorem segments?_flatMap {segments : List String}
    (h : ∀ segment ∈ segments, ']' ∉ segment.toList) :
    segments? none (segments.flatMap segmentText) = some segments := by
  induction segments with
  | nil => rfl
  | cons segment rest ih =>
      obtain ⟨hsegment, hrest⟩ := List.forall_mem_cons.mp h
      rw [List.flatMap_cons, segmentText, List.cons_append, List.append_assoc,
        List.singleton_append, segments?, if_pos rfl, segments?_some hsegment, ih hrest]
      simp

/-- The written segments begin with an opening bracket, if there are any. -/
theorem takeWhile_flatMap_segmentText (segments : List String) :
    (segments.flatMap segmentText).takeWhile (· ≠ '[') = [] := by
  cases segments with
  | nil => rfl
  | cons segment rest => rfl

/-- **A written place is read back.** -/
theorem ofText?_text {path : KeyPath} (h : path.WellFormed) : ofText? path.text = some path := by
  have hbase : ∀ c ∈ path.base.toList, decide (c ≠ '[') = true :=
    fun c hc => decide_eq_true fun heq => h.base_clear (heq ▸ hc)
  have htake : path.text.takeWhile (· ≠ '[') = path.base.toList := by
    rw [text, List.takeWhile_append_of_pos hbase, takeWhile_flatMap_segmentText, List.append_nil]
  have hdrop : path.text.dropWhile (· ≠ '[') = path.segments.flatMap segmentText := by
    have happend := List.takeWhile_append_dropWhile (p := (· ≠ '[')) (l := path.text)
    rw [htake] at happend
    exact List.append_cancel_left happend
  have hne : path.base.toList ≠ [] := mt String.toList_eq_nil_iff.mp h.base_ne
  rw [ofText?, htake, hdrop, if_neg hne, segments?_flatMap h.segments_clear]
  simp

/-- Only written segments are read; of an open one, what has been read has no closing bracket. -/
theorem eq_flatMap_of_segments? (opened : Option (List Char)) (cs : List Char)
    (hclear : ∀ read ∈ opened, ']' ∉ read) {segments : List String}
    (h : segments? opened cs = some segments) :
    opened.elim cs (fun read => '[' :: (read.reverse ++ cs)) = segments.flatMap segmentText ∧
      ∀ segment ∈ segments, ']' ∉ segment.toList := by
  induction opened, cs using segments?.induct generalizing segments with
  | case1 =>
      cases h
      exact ⟨rfl, by simp⟩
  | case2 cs ih =>
      rw [segments?, if_pos rfl] at h
      exact ih (by simp) h
  | case3 c cs hc =>
      rw [segments?, if_neg hc] at h
      cases h
  | case4 read => cases h
  | case5 read cs ih =>
      rw [segments?, if_pos rfl] at h
      obtain ⟨rest, hrest, rfl⟩ := Option.map_eq_some_iff.mp h
      obtain ⟨htext, hrest⟩ := ih (by simp) hrest
      have hread : ']' ∉ (String.ofList read.reverse).toList := by
        simpa using hclear read rfl
      refine ⟨?_, List.forall_mem_cons.mpr ⟨hread, hrest⟩⟩
      rw [List.flatMap_cons, ← htext, segmentText]
      simp
  | case6 read c cs hc ih =>
      rw [segments?, if_neg hc] at h
      have hread : ∀ other ∈ some (c :: read), ']' ∉ other := by
        intro other hother
        obtain rfl := Option.some.inj hother
        exact List.not_mem_cons_of_ne_of_not_mem (Ne.symm hc) (hclear read rfl)
      simpa using ih hread h

/-- **A key names a place exactly when the place is written as the key.** -/
theorem ofText?_eq_some_iff {key : List Char} {path : KeyPath} :
    ofText? key = some path ↔ path.WellFormed ∧ path.text = key := by
  constructor
  · intro h
    rw [ofText?] at h
    split at h
    · cases h
    · next hbase =>
        obtain ⟨segments, hsegments, rfl⟩ := Option.map_eq_some_iff.mp h
        obtain ⟨htext, hclear⟩ := eq_flatMap_of_segments? none _ (by simp) hsegments
        refine ⟨⟨mt String.ofList_eq_empty_iff.mp hbase, ?_, hclear⟩, ?_⟩
        · intro hmem
          rw [String.toList_ofList] at hmem
          exact absurd (List.mem_takeWhile_imp hmem) (by simp)
        · rw [text, String.toList_ofList, ← htext]
          exact List.takeWhile_append_dropWhile
  · rintro ⟨h, rfl⟩
    exact ofText?_text h

/-! ### Keys as texts -/

/-- The key that names a place: the base, and behind it each segment between brackets. -/
def spelling (path : KeyPath) : String :=
  path.base ++ String.join (path.segments.map fun segment => "[" ++ segment ++ "]")

/-- The characters of the spelling of a key are its text. -/
theorem toList_spelling (path : KeyPath) : path.spelling.toList = path.text := by
  have hsegment : ∀ segment : String, ("[" ++ segment ++ "]").toList = segmentText segment := by
    intro segment
    simp [segmentText]
  rw [spelling, String.toList_append, String.toList_join, List.flatMap_map, text]
  simp only [hsegment]

/-- A key is the spelling of a path when its characters are its text. -/
theorem spelling_eq_iff {path : KeyPath} {key : String} :
    path.spelling = key ↔ path.text = key.toList := by
  rw [← toList_spelling, String.toList_inj]

/-- **Reading a key and spelling a place undo each other.** A key is read as a place exactly when
the place can be written and is spelled as the key. No place is read from a key that spells none,
and no key spells two. -/
theorem ofText?_inverts_spelling (key : String) :
    (∀ path, ofText? key.toList = some path ↔ path.WellFormed ∧ path.spelling = key) ∧
      (ofText? key.toList = none ↔ ∀ path : KeyPath, path.WellFormed → path.spelling ≠ key) ∧
      ∀ path path' : KeyPath, path.WellFormed → path.spelling = key → path'.WellFormed →
        path'.spelling = key → path = path' := by
  have hread : ∀ path, ofText? key.toList = some path ↔ path.WellFormed ∧ path.spelling = key := by
    intro path
    rw [ofText?_eq_some_iff, spelling_eq_iff]
  refine ⟨hread, ?_, fun path path' h hkey h' hkey' => ?_⟩
  · rw [Option.eq_none_iff_forall_ne_some]
    exact forall_congr' fun path => by rw [Ne, hread, not_and]
  · have hsome := (hread path).mpr ⟨h, hkey⟩
    exact Option.some.inj (hsome.symm.trans ((hread path').mpr ⟨h', hkey'⟩))

/-- A closing bracket may stand in the base, and an opening one in a segment. A key without a base,
with an open segment, or with more text behind its segments names no place. -/
theorem ofText?_inverts_spelling_brackets :
    ofText? "a]b[[c][]".toList = some ⟨"a]b", ["[c", ""]⟩ ∧
      (⟨"a]b", ["[c", ""]⟩ : KeyPath).WellFormed ∧
      (⟨"a]b", ["[c", ""]⟩ : KeyPath).spelling = "a]b[[c][]" ∧
      (∀ path : KeyPath, path.WellFormed → path.spelling = "a]b[[c][]" →
        path = ⟨"a]b", ["[c", ""]⟩) ∧
      ∀ key ∈ ["", "[a]", "a[b", "a[b]c", "a[b]]"], ∀ path : KeyPath, path.WellFormed →
        path.spelling ≠ key := by
  have hread : ofText? "a]b[[c][]".toList = some ⟨"a]b", ["[c", ""]⟩ := by decide
  obtain ⟨hclear, hspelling⟩ := ((ofText?_inverts_spelling _).1 _).mp hread
  refine ⟨hread, hclear, hspelling, fun path h hkey => ?_, fun key hkey => ?_⟩
  · exact (ofText?_inverts_spelling _).2.2 path _ h hkey hclear hspelling
  · have hnone : ∀ key ∈ ["", "[a]", "a[b", "a[b]c", "a[b]]"], ofText? key.toList = none := by
      decide
    exact (ofText?_inverts_spelling key).2.1.mp (hnone key hkey)

end ResourceQuery.KeyPath
