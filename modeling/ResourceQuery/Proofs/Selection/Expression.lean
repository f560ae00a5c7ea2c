import ResourceQuery.Proofs.Filter.Reading
import ResourceQuery.Proofs.Schema.Consistency
import ResourceQuery.Selection.Expression

/-!
# Paths of selection expressions

Two facts about the reader of selection expressions. Whatever it reads, no name on a path has a
dot: `State.Clear` is the invariant, one character preserves it (`State.Clear.step`), and so does
a whole expression (`clear_of_mem_paths`). In the other direction, a single path of valid names
that is written with dots is read back as that path, since none of its characters means anything
to the reader but the dots.

## Main statements

* `Expression.clear_of_mem_paths`: the names on the paths of an expression have no dots.
* `Expression.paths_dotted`: a dotted path of valid names is read back.
-/

namespace ResourceQuery.Expression

/-! ### Names without dots -/

/-- A path of names without dots. -/
def Clear (path : Path) : Prop :=
  ∀ name ∈ path, '.' ∉ name.toList

/-- The paths that a state has completed, and those of its open groups, are clear. -/
structure State.Clear (state : State) : Prop where
  paths : ∀ path ∈ state.paths, Expression.Clear path
  groups : ∀ path ∈ state.groups, Expression.Clear path

/-- The first state of a reader is clear. -/
theorem State.clear_start : State.start.Clear :=
  ⟨by simp [State.start], by simp [State.start]⟩

/-- The segments of an item have no dots, since the item is split there. -/
theorem clear_of_segments? {atTop : Bool} {item : List Char} {path : Path}
    (h : segments? atTop item = .ok (some path)) : Clear path := by
  rw [segments?] at h
  split at h
  · cases h
  · dsimp only at h
    generalize hparts :
      (if atTop && (Text.splitOn '.' (Text.trimEnd item)).head? == some ['$'] then
        (Text.splitOn '.' (Text.trimEnd item)).tail
      else Text.splitOn '.' (Text.trimEnd item)) = parts at h
    have hsub : ∀ part ∈ parts, part ∈ Text.splitOn '.' (Text.trimEnd item) := by
      rw [← hparts]
      split
      · exact fun part hm => List.mem_of_mem_tail hm
      · exact fun part hm => hm
    split at h
    · cases h
    · split at h
      · cases h
      · obtain rfl := Option.some.inj (Except.ok.inj h)
        intro name hname
        obtain ⟨part, hpart, rfl⟩ := List.mem_map.mp hname
        rw [String.toList_ofList]
        exact Text.notMem_of_mem_splitOn (hsub part hpart)

/-- The path of the item that is being read is clear: it lies below the innermost open group. -/
theorem State.Clear.path? {state : State} {path : Path} (h : state.Clear)
    (hp : state.path? = .ok (some path)) : Expression.Clear path := by
  obtain ⟨segments, hsegments, hpath⟩ := map_eq_ok_iff.mp hp
  obtain ⟨below, rfl, rfl⟩ := Option.map_eq_some_iff.mp hpath
  intro name hname
  rcases List.mem_append.mp hname with hgroup | hbelow
  · cases hg : state.groups with
    | nil => simp [hg] at hgroup
    | cons group groups =>
        rw [hg] at hgroup
        exact h.groups group (by simp [hg]) name hgroup
  · exact clear_of_segments? hsegments name hbelow

/-- Completing an item keeps a state clear. -/
theorem State.Clear.flush {state next : State} (h : state.Clear) (hf : state.flush = .ok next) :
    next.Clear := by
  obtain ⟨found, hpath, rfl⟩ := map_eq_ok_iff.mp hf
  refine ⟨fun path hm => ?_, h.groups⟩
  rcases List.mem_append.mp hm with hnew | hold
  · exact h.path? (by rw [hpath, Option.mem_toList.mp hnew])
  · exact h.paths path hold

/-- Reading a character keeps a state clear. -/
theorem State.Clear.read {state next : State} {c : Char} (h : state.Clear)
    (hr : state.read c = .ok next) : next.Clear := by
  rw [State.read] at hr
  split at hr
  · obtain ⟨flushed, hflush, rfl⟩ := map_eq_ok_iff.mp hr
    exact ⟨(h.flush hflush).paths, (h.flush hflush).groups⟩
  · split at hr
    -- a group opens below the item that was read
    · split at hr
      · cases hr
      · cases hr
      · next path hpath =>
          obtain rfl := Except.ok.inj hr
          exact ⟨h.paths, List.forall_mem_cons.mpr ⟨h.path? hpath, h.groups⟩⟩
    · split at hr
      -- the innermost group closes, so those around it are left
      · split at hr
        · cases hr
        · next flushed hflush =>
            have hclear : flushed.Clear := h.flush hflush
            split at hr
            · cases hr
            · next group groups hgroups =>
                obtain rfl := Except.ok.inj hr
                have hopen := hclear.groups
                rw [hgroups] at hopen
                exact ⟨hclear.paths, (List.forall_mem_cons.mp hopen).2⟩
      · split at hr
        · obtain rfl := Except.ok.inj hr
          exact h
        · split at hr
          · cases hr
          · obtain rfl := Except.ok.inj hr
            exact ⟨h.paths, h.groups⟩

/-- **The step.** Reading and counting a character keeps a state clear. -/
theorem State.Clear.step {state next : State} {c : Char} (h : state.Clear)
    (hs : state.step c = .ok next) : next.Clear := by
  obtain ⟨read, hread, rfl⟩ := map_eq_ok_iff.mp hs
  exact ⟨(h.read hread).paths, (h.read hread).groups⟩

/-- **The run.** Reading a list of characters keeps a state clear. -/
theorem State.Clear.steps {cs : List Char} {state last : State} (h : state.Clear)
    (hs : cs.foldlM State.step state = .ok last) : last.Clear := by
  induction cs generalizing state with
  | nil =>
      obtain rfl := Except.ok.inj hs
      exact h
  | cons c cs ih =>
      rw [List.foldlM_cons] at hs
      cases hc : state.step c with
      | error e => rw [hc] at hs; cases hs
      | ok next =>
          rw [hc] at hs
          exact ih (h.step hc) hs

/-- **The names on the paths of an expression have no dots.** -/
theorem clear_of_mem_paths {expression : String} {found : List Path} {path : Path}
    (h : paths expression = .ok found) (hm : path ∈ found) : Clear path := by
  rw [paths] at h
  split at h
  · cases h
  · next state hrun =>
      rw [State.finish] at h
      split at h
      · cases h
      · next flushed hflush =>
          split at h
          · obtain rfl := Except.ok.inj h
            exact ((State.clear_start.steps hrun).flush hflush).paths path
              (List.mem_reverse.mp hm)
          · cases h

/-! ### Reading a dotted path back -/

/-- A path, written with dots. -/
def dotted (path : Path) : String :=
  String.ofList (['.'].intercalate (path.map String.toList))

/-- A character that a dotted path of valid names is written with. -/
def IsDottedChar (c : Char) : Prop :=
  c = '.' ∨ (Text.isBlank c = false ∧ isPathChar c = false)

/-- The path of valid names has only characters of dotted names. -/
theorem isDottedChar_of_mem_dotted {path : Path} (h : ∀ name ∈ path, isFieldName name = true)
    {c : Char} (hc : c ∈ (dotted path).toList) : IsDottedChar c := by
  rw [dotted, String.toList_ofList] at hc
  rcases Text.of_mem_intercalate hc with rfl | ⟨part, hpart, hc⟩
  · exact Or.inl rfl
  · obtain ⟨name, hname, rfl⟩ := List.mem_map.mp hpart
    exact Or.inr (of_mem_isFieldName (h name hname) hc)

/-- A character of a dotted name is not blank. -/
theorem IsDottedChar.isBlank_eq_false {c : Char} (h : IsDottedChar c) : Text.isBlank c = false := by
  rcases h with rfl | ⟨hblank, -⟩
  · decide
  · exact hblank

/-- A character of a dotted path is added to the item, outside of groups. -/
theorem State.read_of_isDottedChar {state : State} {c : Char} (h : IsDottedChar c)
    (hopen : state.closed = false) :
    state.read c = .ok { state with item := c :: state.item } := by
  have hplain : c ≠ ',' ∧ c ≠ '{' ∧ c ≠ '}' := by
    rcases h with rfl | ⟨-, hchar⟩
    · decide
    · refine ⟨?_, ?_, ?_⟩ <;> rintro rfl <;> exact absurd hchar (by decide)
  rw [State.read, if_neg hplain.1, if_neg hplain.2.1, if_neg hplain.2.2]
  simp [h.isBlank_eq_false, hopen]

/-- The characters of a dotted path become the item that is being read. -/
theorem State.steps_of_isDottedChar {cs : List Char} (state : State)
    (h : ∀ c ∈ cs, IsDottedChar c) (hopen : state.closed = false) :
    ∃ position, cs.foldlM State.step state
      = .ok { state with item := cs.reverse ++ state.item, position := position } := by
  induction cs generalizing state with
  | nil => exact ⟨state.position, rfl⟩
  | cons c cs ih =>
      have hc : IsDottedChar c := h c List.mem_cons_self
      obtain ⟨position, hrest⟩ := ih
        { state with item := c :: state.item, position := state.position + c.utf8Size }
        (fun c hm => h c (List.mem_cons_of_mem _ hm)) hopen
      refine ⟨position, ?_⟩
      rw [List.foldlM_cons, State.step, State.read_of_isDottedChar hc hopen]
      simpa [Except.map, bind, Except.bind] using hrest

/-- The segments of a dotted path of valid names are the names. -/
theorem segments?_dotted {path : Path} (hne : path ≠ [])
    (h : ∀ name ∈ path, isFieldName name = true) :
    segments? true (dotted path).toList = .ok (some path) := by
  have hblank : ∀ c ∈ (dotted path).toList, Text.isBlank c = false :=
    fun c hc => (isDottedChar_of_mem_dotted h hc).isBlank_eq_false
  have hparts : Text.splitOn '.' (dotted path).toList = path.map String.toList := by
    rw [dotted, String.toList_ofList, Text.splitOn_intercalate (by simpa using hne)]
    intro part hm
    obtain ⟨name, hname, rfl⟩ := List.mem_map.mp hm
    exact dot_notMem_of_isFieldName (h name hname)
  have hnil : (dotted path).toList ≠ [] := by
    intro hnil
    rw [hnil] at hparts
    cases path with
    | nil => exact hne rfl
    | cons name rest =>
        refine toList_ne_nil_of_isFieldName (h name List.mem_cons_self) ?_
        exact (List.cons.inj hparts).1.symm
  have hroot : ((path.map String.toList).head? == some ['$']) = false := by
    cases path with
    | nil => rfl
    | cons name rest =>
        rw [List.map_cons, List.head?_cons, beq_eq_false_iff_ne]
        intro hname
        have hmem : '$' ∈ name.toList := by
          rw [Option.some.inj hname]
          exact List.mem_singleton_self _
        exact absurd (of_mem_isFieldName (h name List.mem_cons_self) hmem).2 (by decide)
  have hempty : [] ∉ path.map String.toList := by
    intro hm
    obtain ⟨name, hname, hnil⟩ := List.mem_map.mp hm
    exact toList_ne_nil_of_isFieldName (h name hname) hnil
  have hsome : path.map String.toList ≠ [] := by simpa using hne
  simp only [segments?, Text.trimEnd_eq_self hblank, hparts, hroot, Bool.true_and, if_neg hnil,
    Bool.false_eq_true, if_false, if_neg hempty, if_neg hsome, List.map_map]
  simp

/-- **A dotted path of valid names is read back.** -/
theorem paths_dotted {path : Path} (hne : path ≠ [])
    (h : ∀ name ∈ path, isFieldName name = true) : paths (dotted path) = .ok [path] := by
  obtain ⟨position, hrun⟩ := State.steps_of_isDottedChar State.start
    (fun c hc => isDottedChar_of_mem_dotted h hc) rfl
  rw [paths, hrun]
  simp [State.finish, State.flush, State.path?, State.start, segments?_dotted hne h, Except.map]

end ResourceQuery.Expression
