import ResourceQuery.Proofs.Selection.Expression

/-!
# The grammar of selection expressions

A selection expression is a sequence of items between commas. An item is blank, or a name, or a name
with a sequence in braces behind it; blanks may stand around a name and behind a group. A name is
written with dots and means the path of its segments. On the topmost level it may start with the
resource itself, `$`, which is no segment.

`Sequence` is this grammar, together with the paths that a sequence stands for: each name inside
groups means the path of the groups around it, from the outside in, and its own path below that. The
reader splits a name at its dots and then looks at the parts. That this finds the meaning of the
name, or finds out that it has none, is the part of the comparison between grammar and reader that
needs no state; the rest of it is in `ResourceQuery.Proofs.Selection.Recognition`.

## Main definitions

* `IsName`, `Means`: the names, and the paths that they mean.
* `Item`, `Sequence`: the grammar, with the paths that are meant.

## Main statements

* `segments?_eq_some_iff`, `segments?_eq_none_iff`: the reader of names agrees with their meaning.
-/

namespace ResourceQuery.Expression

/-! ### The grammar -/

/-- A text of blanks, or of nothing. -/
def AllBlank (text : List Char) : Prop :=
  ∀ c ∈ text, Text.isBlank c = true

/-- A character that the notation has no use for. -/
def IsPlain (c : Char) : Prop :=
  c ≠ ',' ∧ c ≠ '{' ∧ c ≠ '}'

/-- A text that can be a name: it is not empty, has none of the characters of the notation, and no
blank at its ends. -/
structure IsName (name : List Char) : Prop where
  ne_nil : name ≠ []
  plain : ∀ c ∈ name, IsPlain c
  head : ∀ c ∈ name.head?, Text.isBlank c = false
  last : ∀ c ∈ name.getLast?, Text.isBlank c = false

/-- A path that can be written with dots. -/
structure IsPath (path : Path) : Prop where
  ne_nil : path ≠ []
  segments : ∀ segment ∈ path, segment ≠ "" ∧ '.' ∉ segment.toList

/-- The path that a name means inside a group. Outside of groups, where the path of the group is
empty, a first segment `$` is dropped. -/
inductive Means : Path → List Char → Path → Prop
  | plain {group path : Path} : IsPath path → ¬(group = [] ∧ path.head? = some "$") →
      Means group (dotted path).toList path
  | rooted {path : Path} : IsPath path → Means [] ('$' :: '.' :: (dotted path).toList) path

mutual

/-- An item inside a group, and the paths that it stands for. -/
inductive Item : Path → List Char → List Path → Prop
  | blank {group : Path} {text : List Char} : AllBlank text → Item group text []
  /-- The resource itself, outside of groups. -/
  | root {before after : List Char} : AllBlank before → AllBlank after →
      Item [] (before ++ '$' :: after) []
  | name {group path : Path} {before name after : List Char} :
      AllBlank before → IsName name → Means group name path → AllBlank after →
      Item group (before ++ (name ++ after)) [group ++ path]
  | group {group path : Path} {before name between inner after : List Char} {found : List Path} :
      AllBlank before → IsName name → Means group name path → AllBlank between →
      Sequence (group ++ path) inner found → AllBlank after →
      Item group (before ++ (name ++ between) ++ '{' :: (inner ++ '}' :: after)) found

/-- A sequence of items inside a group, and the paths that it stands for. -/
inductive Sequence : Path → List Char → List Path → Prop
  | single {group : Path} {text : List Char} {found : List Path} :
      Item group text found → Sequence group text found
  | cons {group : Path} {text rest : List Char} {found more : List Path} :
      Item group text found → Sequence group rest more →
      Sequence group (text ++ ',' :: rest) (found ++ more)

end

/-! ### Names -/

/-- What a name means is a path. -/
theorem Means.isPath {group path : Path} {name : List Char} (h : Means group name path) :
    IsPath path := by
  cases h with
  | plain hpath _ => exact hpath
  | rooted hpath => exact hpath

/-- A blank character has no meaning of its own in an expression. -/
theorem isPlain_of_isBlank {c : Char} (h : Text.isBlank c = true) : IsPlain c := by
  refine ⟨?_, ?_, ?_⟩ <;> rintro rfl <;> exact absurd h (by decide)

/-- Blanks behind blanks are blanks. -/
theorem AllBlank.append {text more : List Char} (h : AllBlank text) (hmore : AllBlank more) :
    AllBlank (text ++ more) := by
  intro c hc
  exact (List.mem_append.mp hc).elim (h c) (hmore c)

/-- An item is its name and the blanks behind it. -/
theorem exists_blank_of_trimEnd (item : List Char) :
    ∃ after, AllBlank after ∧ item = Text.trimEnd item ++ after :=
  ⟨item.rtakeWhile Text.isBlank, fun _ hc => List.mem_rtakeWhile_imp hc,
    List.rdropWhile_append_rtakeWhile.symm⟩

/-- Blanks at the end do not count when a text is trimmed. -/
theorem trimEnd_append_of_allBlank {text after : List Char} (h : AllBlank after) :
    Text.trimEnd (text ++ after) = Text.trimEnd text := by
  induction after using List.reverseRecOn with
  | nil => rw [List.append_nil]
  | append_singleton after c ih =>
      have hc : Text.isBlank c = true := h c (by simp)
      rw [← List.append_assoc]
      exact (List.rdropWhile_concat_pos _ _ _ hc).trans (ih fun d hd => h d (by simp [hd]))

/-- A name with blanks behind it is trimmed to the name. -/
theorem IsName.trimEnd_append {name after : List Char} (h : IsName name) (hafter : AllBlank after) :
    Text.trimEnd (name ++ after) = name := by
  rw [trimEnd_append_of_allBlank hafter]
  refine List.rdropWhile_eq_self_iff.mpr fun hne => ?_
  simp [h.last _ (List.getLast?_eq_getLast_of_ne_nil hne)]

/-- The last character of a trimmed text is not blank. -/
theorem isBlank_getLast?_trimEnd {item : List Char} {c : Char}
    (h : c ∈ (Text.trimEnd item).getLast?) : Text.isBlank c = false := by
  have hne : Text.trimEnd item ≠ [] := by
    intro hnil
    rw [hnil] at h
    cases h
  rw [List.getLast?_eq_getLast_of_ne_nil hne, Option.mem_some_iff] at h
  exact h ▸ Bool.eq_false_iff.mpr (List.rdropWhile_last_not _ _ hne)

/-- The segments of a name before they are looked at. -/
def parts (atTop : Bool) (name : List Char) : List (List Char) :=
  if atTop && (Text.splitOn '.' name).head? == some ['$'] then (Text.splitOn '.' name).tail
  else Text.splitOn '.' name

/-- The text of a path is cut at its dots into the segments. -/
theorem splitOn_dotted {path : Path} (h : IsPath path) :
    Text.splitOn '.' (dotted path).toList = path.map String.toList := by
  rw [dotted, String.toList_ofList, Text.splitOn_intercalate (by simpa using h.ne_nil)]
  intro part hpart
  obtain ⟨segment, hsegment, rfl⟩ := List.mem_map.mp hpart
  exact (h.segments segment hsegment).2

/-- Joining the segments of a name with dots gives the name. -/
theorem eq_dotted_of_splitOn {name : List Char} {path : Path}
    (h : Text.splitOn '.' name = path.map String.toList) : name = (dotted path).toList := by
  rw [dotted, String.toList_ofList, ← h, Text.splitOn_eq_list_splitOn,
    List.intercalate_splitOn]

/-- The text of a longer path is a segment, a dot and the text of the rest. -/
theorem dotted_cons {path : Path} (h : path ≠ []) (segment : String) :
    (dotted (segment :: path)).toList = segment.toList ++ '.' :: (dotted path).toList := by
  cases path with
  | nil => exact absurd rfl h
  | cons next rest => simp [dotted, List.intercalate_cons_cons]

/-- A path may begin with the name of the root. -/
theorem isPath_root_cons {path : Path} (h : IsPath path) : IsPath ("$" :: path) :=
  ⟨by simp, List.forall_mem_cons.mpr ⟨by decide, h.segments⟩⟩

/-- The parts of a name are the segments of the path that it means. -/
theorem parts_eq_iff_means {group path : Path} {name : List Char} (h : IsPath path) :
    parts group.isEmpty name = path.map String.toList ↔ Means group name path := by
  constructor
  · intro hparts
    rw [parts] at hparts
    split at hparts
    · next hroot =>
        rw [Bool.and_eq_true, List.isEmpty_iff, beq_iff_eq] at hroot
        obtain ⟨rfl, hhead⟩ := hroot
        have hsplit : Text.splitOn '.' name = ("$" :: path).map String.toList := by
          rw [List.map_cons, ← hparts]
          exact (List.cons_head?_tail hhead).symm
        rw [eq_dotted_of_splitOn hsplit, dotted_cons h.ne_nil]
        exact .rooted h
    · next hroot =>
        rw [eq_dotted_of_splitOn hparts]
        refine .plain h ?_
        rintro ⟨rfl, hhead⟩
        refine hroot ?_
        rw [hparts, List.head?_map, hhead]
        rfl
  · intro hmeans
    cases hmeans with
    | plain _ hroot =>
        rw [parts, splitOn_dotted h, if_neg]
        intro htrue
        rw [Bool.and_eq_true, List.isEmpty_iff, beq_iff_eq, List.head?_map,
          Option.map_eq_some_iff] at htrue
        obtain ⟨hgroup, segment, hhead, hsegment⟩ := htrue
        refine hroot ⟨hgroup, ?_⟩
        rw [hhead, String.toList_inj.mp (hsegment.trans (by rfl : ['$'] = "$".toList))]
    | rooted _ =>
        have hsplit : Text.splitOn '.' ('$' :: '.' :: (dotted path).toList)
            = ("$" :: path).map String.toList := by
          rw [← splitOn_dotted (isPath_root_cons h), dotted_cons h.ne_nil]
          rfl
        rw [parts, hsplit]
        rfl

/-- The outcome of reading an item that is not blank, by the parts of its name. -/
theorem segments?_eq {atTop : Bool} {item name : List Char} (hname : Text.trimEnd item = name)
    (hne : name ≠ []) :
    segments? atTop item
      = if [] ∈ parts atTop name then .error (.emptySegment (String.ofList name))
        else if parts atTop name = [] then .ok none
        else .ok (some ((parts atTop name).map String.ofList)) := by
  rw [segments?]
  simp only [hname, if_neg hne]
  rfl

/-- **The reader of names agrees with the meaning of names.** -/
theorem segments?_eq_some_iff {group path : Path} {item name : List Char}
    (hname : Text.trimEnd item = name) (hne : name ≠ []) :
    segments? group.isEmpty item = .ok (some path) ↔ Means group name path := by
  rw [segments?_eq hname hne]
  constructor
  · intro h
    split at h
    · cases h
    · next hempty =>
        split at h
        · cases h
        · next hnil =>
            obtain rfl := Option.some.inj (Except.ok.inj h)
            have hback : parts group.isEmpty name
                = ((parts group.isEmpty name).map String.ofList).map String.toList := by
              simp [List.map_map, Function.comp_def]
            refine (parts_eq_iff_means ⟨by simpa using hnil, ?_⟩).mp hback
            intro segment hsegment
            obtain ⟨part, hpart, rfl⟩ := List.mem_map.mp hsegment
            rw [String.toList_ofList]
            refine ⟨fun heq => hempty ?_, ?_⟩
            · rwa [← String.ofList_eq_empty_iff.mp heq]
            · rw [parts] at hpart
              split at hpart
              · exact Text.notMem_of_mem_splitOn (List.mem_of_mem_tail hpart)
              · exact Text.notMem_of_mem_splitOn hpart
  · intro h
    have hpath : IsPath path := h.isPath
    have hempty : [] ∉ path.map String.toList := by
      intro hm
      obtain ⟨segment, hsegment, hnil⟩ := List.mem_map.mp hm
      exact (hpath.segments segment hsegment).1 (String.toList_eq_nil_iff.mp hnil)
    rw [(parts_eq_iff_means hpath).mpr h, if_neg hempty, if_neg (by simpa using hpath.ne_nil)]
    simp [List.map_map, Function.comp_def]

/-- An item has no path when it is blank, or the resource itself. -/
theorem segments?_eq_none_iff {group : Path} {item : List Char} :
    segments? group.isEmpty item = .ok none
      ↔ Text.trimEnd item = [] ∨ (group = [] ∧ Text.trimEnd item = ['$']) := by
  by_cases hne : Text.trimEnd item = []
  · simp [segments?, hne]
  · rw [segments?_eq rfl hne]
    constructor
    · intro h
      refine Or.inr ?_
      split at h
      · cases h
      · split at h
        · next hnil =>
            rw [parts] at hnil
            split at hnil
            · next hroot =>
                rw [Bool.and_eq_true, List.isEmpty_iff, beq_iff_eq] at hroot
                have hsplit : Text.splitOn '.' (Text.trimEnd item) = ["$"].map String.toList := by
                  rw [← List.cons_head?_tail hroot.2, hnil]
                  rfl
                exact ⟨hroot.1, eq_dotted_of_splitOn hsplit⟩
            · exact absurd hnil (Text.splitOn_ne_nil _ _)
        · cases h
    · rintro (hnil | ⟨rfl, hroot⟩)
      · exact absurd hnil hne
      · rw [hroot]
        rfl

end ResourceQuery.Expression
