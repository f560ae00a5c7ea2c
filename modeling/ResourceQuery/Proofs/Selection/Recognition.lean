import ResourceQuery.Proofs.Selection.Grammar

/-!
# The reader of selection expressions recognizes its grammar

The reader of expressions accepts exactly what the grammar derives, and finds the paths that the
grammar gives it (`paths_grammar`). It works character by character and never looks ahead, so the
two directions are shown in two ways.

A derivation drives the reader through its text (`Item.run`, `Sequence.run`), by induction on the
derivation. Since an item ends only at the sign behind it, what is shown of the state at the end of
an item is what completing the item there will give (`State.Ends`).

Conversely, the states of the reader are compared with beginnings of sentences. `State.Reads` says
that what a state has read consists of the groups that are open, complete items in the innermost of
them, and the item that is being read. One character preserves it (`State.Reads.step`), whole texts
therefore do as well, and a state in which the reader may finish has read a sentence.

## Main definitions

* `State.Runs`, `State.Ends`: how a state reads a text, and what it has then.
* `Completed`, `Opened`, `Pending`, `State.Reads`: what a state has read.

## Main statements

* `paths_of_sequence`: what the grammar derives is read.
* `sequence_of_paths`: what is read is derived by the grammar.
* `paths_grammar`: both, and that no path and no name on it is empty.
-/

namespace ResourceQuery.Expression

namespace State

/-! ### States inside a group -/

/-- The innermost open group of a state has this path; outside of groups the path is empty. -/
structure InGroup (state : State) (group : Path) : Prop where
  head : state.groups.headD [] = group
  top : state.groups = [] ↔ group = []

/-- The reader looks at its groups where the grammar looks at the path of the group. -/
theorem InGroup.path?_eq {state : State} {group : Path} (h : state.InGroup group) :
    state.path? = (segments? group.isEmpty state.item.reverse).map fun segments =>
      segments.map fun path => group ++ path := by
  have htop : state.groups.isEmpty = group.isEmpty :=
    Bool.eq_iff_iff.mpr (by simpa only [List.isEmpty_iff] using h.top)
  rw [path?, h.head, htop]

/-- Blanks are no path. -/
theorem path?_of_blank {state : State} (h : AllBlank state.item.reverse) :
    state.path? = .ok none := by
  have hnil : Text.trimEnd state.item.reverse = [] := List.rdropWhile_eq_nil_iff.mpr h
  simp [path?, segments?, hnil, Except.map]

/-- A name with blanks behind it is the path that it means in the group. -/
theorem InGroup.path?_of_name {state : State} {group path : Path} {name after : List Char}
    (h : state.InGroup group) (hname : IsName name) (hmeans : Means group name path)
    (hafter : AllBlank after) (hitem : state.item.reverse = name ++ after) :
    state.path? = .ok (some (group ++ path)) := by
  rw [h.path?_eq, hitem, (segments?_eq_some_iff (hname.trimEnd_append hafter) hname.ne_nil).mpr
    hmeans]
  rfl

/-- The name of the root, outside of groups, is no path. -/
theorem InGroup.path?_of_root {state : State} {after : List Char} (h : state.InGroup [])
    (hafter : AllBlank after) (hitem : state.item.reverse = '$' :: after) :
    state.path? = .ok none := by
  have hname : Text.trimEnd ('$' :: after) = ['$'] :=
    @trimEnd_append_of_allBlank ['$'] after hafter
  rw [h.path?_eq, hitem, segments?_eq_none_iff.mpr (Or.inr ⟨rfl, hname⟩)]
  rfl

/-- Taking up the pending path is the same at every position. -/
theorem flush_eq {state : State} {pending : Option Path} (h : state.path? = .ok pending)
    (position : Nat) :
    { state with position := position }.flush
      = .ok { state with
          paths := pending.toList ++ state.paths, item := [], position := position } := by
  have hpath : { state with position := position }.path? = .ok pending := h
  rw [flush, hpath]
  rfl

/-! ### Runs -/

/-- A state reads a text and becomes another state, wherever in the expression that happens. -/
def Runs (state : State) (text : List Char) (last : State) : Prop :=
  ∀ position, ∃ position', text.foldlM step { state with position := position }
    = .ok { last with position := position' }

/-- Reading no characters changes nothing. -/
theorem Runs.nil (state : State) : state.Runs [] state :=
  fun position => ⟨position, rfl⟩

/-- Reading one text and then another is reading both. -/
theorem Runs.append {state middle last : State} {text rest : List Char}
    (h : state.Runs text middle) (hrest : middle.Runs rest last) :
    state.Runs (text ++ rest) last := by
  intro position
  obtain ⟨position', htext⟩ := h position
  obtain ⟨position'', hlast⟩ := hrest position'
  refine ⟨position'', ?_⟩
  rw [List.foldlM_append, htext]
  exact hlast

/-- A character that is read the same at every position is one step. -/
theorem Runs.single {state next : State} {c : Char}
    (h : ∀ position, { state with position := position }.read c
      = .ok { next with position := position }) : state.Runs [c] next := by
  intro position
  refine ⟨position + c.utf8Size, ?_⟩
  rw [List.foldlM_cons, step, h position]
  rfl

/-- Reading a character and then a text is reading both. -/
theorem Runs.cons {state middle last : State} {c : Char} {rest : List Char}
    (h : state.Runs [c] middle) (hrest : middle.Runs rest last) : state.Runs (c :: rest) last :=
  h.append hrest

/-- Blanks are passed over in front of an item and behind a group. -/
theorem runs_of_allBlank {state : State} {text : List Char} (h : AllBlank text)
    (hskip : state.item = [] ∨ state.closed = true) : state.Runs text state := by
  induction text with
  | nil => exact .nil state
  | cons c text ih =>
      have hblank : Text.isBlank c = true := h c List.mem_cons_self
      obtain ⟨hcomma, hopen, hclose⟩ := isPlain_of_isBlank hblank
      refine .cons (.single fun position => ?_) (ih fun d hd => h d (List.mem_cons_of_mem _ hd))
      rw [read, if_neg hcomma, if_neg hopen, if_neg hclose, if_pos]
      rcases hskip with hitem | hclosed
      · simp [hblank, hitem]
      · simp [hblank, hclosed]

/-- Characters of an item are kept, unless the item would begin with a blank. -/
theorem runs_of_isPlain {state : State} {text : List Char} (h : ∀ c ∈ text, IsPlain c)
    (hopen : state.closed = false)
    (hhead : state.item = [] → ∀ c ∈ text.head?, Text.isBlank c = false) :
    state.Runs text { state with item := text.reverse ++ state.item } := by
  induction text generalizing state with
  | nil => exact .nil state
  | cons c text ih =>
      obtain ⟨hcomma, hbrace, hclose⟩ := h c List.mem_cons_self
      have hskip : (Text.isBlank c && (state.item.isEmpty || state.closed)) = false := by
        cases hitem : state.item with
        | nil => simp [hhead hitem c rfl]
        | cons d item => simp [hopen]
      have hrest : { state with item := c :: state.item }.Runs text
          { state with item := text.reverse ++ c :: state.item } :=
        ih (fun d hd => h d (List.mem_cons_of_mem _ hd)) hopen (fun hnil => by cases hnil)
      have hitem : (c :: text).reverse ++ state.item = text.reverse ++ c :: state.item := by simp
      rw [hitem]
      refine .cons (.single fun position => ?_) hrest
      rw [read, if_neg hcomma, if_neg hbrace, if_neg hclose, if_neg (Bool.eq_false_iff.mp hskip),
        if_neg (Bool.eq_false_iff.mp hopen)]

/-- A comma completes the item. -/
theorem runs_comma {state : State} {pending : Option Path} (h : state.path? = .ok pending) :
    state.Runs [',']
      { state with paths := pending.toList ++ state.paths, item := [], closed := false } := by
  refine .single fun position => ?_
  rw [read, if_pos rfl, flush_eq h position]
  rfl

/-- An opening brace makes the item a group. -/
theorem runs_open {state : State} {path : Path} (h : state.path? = .ok (some path)) :
    state.Runs ['{'] { state with groups := path :: state.groups, item := [] } := by
  refine .single fun position => ?_
  have hpath : { state with position := position }.path? = .ok (some path) := h
  rw [read, if_neg (by decide), if_pos rfl, hpath]

/-- A closing brace completes the item and the group. -/
theorem runs_close {state : State} {pending : Option Path} {group : Path} {groups : List Path}
    (h : state.path? = .ok pending) (hgroups : state.groups = group :: groups) :
    state.Runs ['}']
      { state with
        paths := pending.toList ++ state.paths, groups, item := [], closed := true } := by
  refine .single fun position => ?_
  rw [read, if_neg (by decide), if_neg (by decide), if_pos rfl, flush_eq h position]
  simp only [hgroups]

/-! ### Derivations drive the reader -/

/-- A state is about to begin an item. -/
structure Fresh (state : State) : Prop where
  item : state.item = []
  closed : state.closed = false

/-- A state has read items with these paths since another one, the last item being complete but for
the sign behind it. -/
structure Ends (last state : State) (found : List Path) : Prop where
  groups : last.groups = state.groups
  paths : ∃ pending, last.path? = .ok pending ∧
    pending.toList ++ last.paths = found.reverse ++ state.paths

/-- Blanks and a name with blanks behind it become the item. -/
theorem runs_name {state : State} {before name after : List Char} (hfresh : state.Fresh)
    (hbefore : AllBlank before) (hname : IsName name) (hafter : AllBlank after) :
    state.Runs (before ++ (name ++ after)) { state with item := (name ++ after).reverse } := by
  have hplain : ∀ c ∈ name ++ after, IsPlain c := by
    intro c hc
    exact (List.mem_append.mp hc).elim (hname.plain c) fun hc => isPlain_of_isBlank (hafter c hc)
  have hhead : state.item = [] → ∀ c ∈ (name ++ after).head?, Text.isBlank c = false := by
    intro _ c hc
    rw [List.head?_append_of_ne_nil _ hname.ne_nil] at hc
    exact hname.head c hc
  have hitem := runs_of_isPlain hplain hfresh.closed hhead
  rw [hfresh.item, List.append_nil] at hitem
  exact (runs_of_allBlank hbefore (Or.inl hfresh.item)).append hitem

end State

/-- The name of the root is a name. -/
theorem isName_root : IsName ['$'] :=
  ⟨by simp, by simp [IsPlain], by simp; decide, by simp; decide⟩

mutual

/-- **A derivation of an item drives the reader.** -/
theorem Item.run {group : Path} {text : List Char} {found : List Path} {state : State}
    (h : Item group text found) (hgroup : state.InGroup group) (hfresh : state.Fresh) :
    ∃ last, state.Runs text last ∧ last.Ends state found := by
  match h with
  | .blank hblank =>
      refine ⟨state, State.runs_of_allBlank hblank (Or.inl hfresh.item), rfl, none, ?_, rfl⟩
      exact State.path?_of_blank (by simp [hfresh.item, AllBlank])
  | @Item.root before after hbefore hafter =>
      refine ⟨_, State.runs_name hfresh hbefore isName_root hafter, rfl, none, ?_, rfl⟩
      exact State.InGroup.path?_of_root ⟨hgroup.head, hgroup.top⟩ hafter (List.reverse_reverse _)
  | @Item.name _ path before name after hbefore hname hmeans hafter =>
      refine ⟨_, State.runs_name hfresh hbefore hname hafter, rfl, some (group ++ path), ?_, rfl⟩
      exact State.InGroup.path?_of_name ⟨hgroup.head, hgroup.top⟩ hname hmeans hafter
        (List.reverse_reverse _)
  | @Item.group _ path before name between inner after found hbefore hname hmeans hbetween hinner
      hafter =>
      have hopened := State.runs_name hfresh hbefore hname hbetween
      have hpath : { state with item := (name ++ between).reverse }.path?
          = .ok (some (group ++ path)) :=
        State.InGroup.path?_of_name ⟨hgroup.head, hgroup.top⟩ hname hmeans hbetween
          (List.reverse_reverse _)
      have hinside : State.InGroup { state with
          groups := (group ++ path) :: state.groups, item := [] } (group ++ path) :=
        ⟨rfl, by simp [hmeans.isPath.ne_nil]⟩
      obtain ⟨last, hruns, hgroups, pending, hpending, hpaths⟩ :=
        hinner.run hinside ⟨rfl, hfresh.closed⟩
      have hclosed := (State.runs_close hpending hgroups).append
        (State.runs_of_allBlank hafter (Or.inr rfl))
      have hgroup := hopened.append ((State.runs_open hpath).append (hruns.append hclosed))
      exact ⟨_, hgroup, rfl, none, State.path?_of_blank (by simp [AllBlank]), hpaths⟩

/-- **A derivation of a sequence drives the reader.** -/
theorem Sequence.run {group : Path} {text : List Char} {found : List Path} {state : State}
    (h : Sequence group text found) (hgroup : state.InGroup group) (hfresh : state.Fresh) :
    ∃ last, state.Runs text last ∧ last.Ends state found := by
  match h with
  | .single hitem => exact hitem.run hgroup hfresh
  | @Sequence.cons _ text rest found more hitem hrest =>
      obtain ⟨middle, hruns, hgroups, pending, hpending, hpaths⟩ := hitem.run hgroup hfresh
      have hcomma := State.runs_comma hpending
      have hbehind : State.InGroup { middle with
          paths := pending.toList ++ middle.paths, item := [], closed := false } group :=
        ⟨by rw [← hgroup.head]; exact congrArg (·.headD []) hgroups,
          by rw [← hgroup.top]; exact hgroups ▸ Iff.rfl⟩
      obtain ⟨last, hlast, hgroups', pending', hpending', hpaths'⟩ :=
        hrest.run hbehind ⟨rfl, rfl⟩
      refine ⟨last, hruns.append (hcomma.append hlast), hgroups'.trans hgroups, pending',
        hpending', ?_⟩
      rw [hpaths']
      simp [hpaths]

end

/-! ### What a state has read -/

/-- Complete items inside a group, each with its comma. -/
inductive Completed (group : Path) : List Char → List Path → Prop
  | nil : Completed group [] []
  | snoc {text item : List Char} {found more : List Path} :
      Completed group text found → Item group item more →
      Completed group (text ++ (item ++ [','])) (found ++ more)

/-- The groups that are open, the innermost first, with all that was read up to the last of their
braces. -/
inductive Opened : List Path → List Char → List Path → Prop
  | nil : Opened [] [] []
  | cons {groups : List Path} {path : Path} {text items before name between : List Char}
      {found more : List Path} :
      Opened groups text found → Completed (groups.headD []) items more → AllBlank before →
      IsName name → Means (groups.headD []) name path → AllBlank between →
      Opened ((groups.headD [] ++ path) :: groups)
        (text ++ (items ++ (before ++ (name ++ between) ++ ['{']))) (found ++ more)

/-- What a state has read since the last comma or opening brace: a part of an item, of which only
the leading blanks are not kept, or a whole group, behind which blanks may follow. -/
inductive Pending (group : Path) (item : List Char) (closed : Bool) : List Char → List Path → Prop
  | item {before : List Char} : closed = false → AllBlank before → (∀ c ∈ item, IsPlain c) →
      (∀ c ∈ item.getLast?, Text.isBlank c = false) →
      Pending group item closed (before ++ item.reverse) []
  | group {text : List Char} {found : List Path} : closed = true → item = [] →
      (∀ after, AllBlank after → Item group (text ++ after) found) →
      Pending group item closed text found

/-- At the start of an item nothing is pending. -/
theorem Pending.empty (group : Path) {closed : Bool} (h : closed = false) :
    Pending group [] closed [] [] :=
  @Pending.item _ _ _ [] h (by simp [AllBlank]) (by simp) (by simp)

/-- **The invariant.** A state has read a text: groups that are open, complete items in the
innermost of them, and an item that is not complete. Its paths are those of all the items. -/
def State.Reads (state : State) (text : List Char) : Prop :=
  ∃ opened items pending outer found more, Opened state.groups opened outer ∧
    Completed (state.groups.headD []) items found ∧
    Pending (state.groups.headD []) state.item state.closed pending more ∧
    text = opened ++ (items ++ pending) ∧ state.paths.reverse = outer ++ (found ++ more)

/-- Complete items and a sequence behind them are a sequence. -/
theorem Completed.sequence {group : Path} {text rest : List Char} {found more : List Path}
    (h : Completed group text found) (hrest : Sequence group rest more) :
    Sequence group (text ++ rest) (found ++ more) := by
  induction h generalizing rest more with
  | nil => exact hrest
  | snoc _ hitem ih =>
      have hsequence := ih (Sequence.cons hitem hrest)
      simpa only [List.append_assoc, List.singleton_append] using hsequence

/-- A state with opened groups is in the last of them. -/
theorem Opened.inGroup {state : State} {text : List Char} {found : List Path}
    (h : Opened state.groups text found) : state.InGroup (state.groups.headD []) := by
  refine ⟨rfl, ?_⟩
  generalize state.groups = groups at h ⊢
  cases h with
  | nil => simp
  | cons _ _ _ _ hmeans _ => simp [hmeans.isPath.ne_nil]

/-- A name is the item that is being read, without the blanks behind it. -/
theorem isName_trimEnd {item : List Char} (hne : Text.trimEnd item.reverse ≠ [])
    (hplain : ∀ c ∈ item, IsPlain c) (hhead : ∀ c ∈ item.getLast?, Text.isBlank c = false) :
    IsName (Text.trimEnd item.reverse) := by
  have hinit : Text.trimEnd item.reverse <+: item.reverse := List.rdropWhile_prefix _ _
  refine ⟨hne, fun c hc => ?_, fun c hc => ?_, fun c hc => isBlank_getLast?_trimEnd hc⟩
  · exact hplain c (List.mem_reverse.mp (hinit.subset hc))
  · obtain ⟨rest, hrest⟩ := hinit
    refine hhead c ?_
    rw [← List.head?_reverse, ← hrest, List.head?_append_of_ne_nil _ hne]
    exact hc

/-- When the reader finds no fault in the item, it is one of the grammar. -/
theorem Pending.item_of_path? {state : State} {group : Path} {text : List Char}
    {more : List Path} {found : Option Path} (h : Pending group state.item state.closed text more)
    (hgroup : state.InGroup group) (hpath : state.path? = .ok found) :
    Item group text (more ++ found.toList) := by
  cases h with
  | group _ hitem hafter =>
      rw [State.path?_of_blank (by simp [hitem, AllBlank])] at hpath
      obtain rfl := Except.ok.inj hpath
      simpa using hafter [] (by simp [AllBlank])
  | @item before _ hbefore hplain hhead =>
      rw [hgroup.path?_eq] at hpath
      obtain ⟨segments, hsegments, rfl⟩ := map_eq_ok_iff.mp hpath
      obtain ⟨after, hafter, hitem⟩ := exists_blank_of_trimEnd state.item.reverse
      cases segments with
      | none =>
          rcases segments?_eq_none_iff.mp hsegments with hnil | ⟨rfl, hroot⟩
          · rw [hnil, List.nil_append] at hitem
            rw [hitem]
            exact .blank (hbefore.append hafter)
          · rw [hroot] at hitem
            rw [hitem]
            exact .root hbefore hafter
      | some path =>
          have hne : Text.trimEnd state.item.reverse ≠ [] := by
            intro hnil
            rw [segments?, if_pos hnil] at hsegments
            cases hsegments
          rw [hitem]
          exact .name hbefore (isName_trimEnd hne hplain hhead)
            ((segments?_eq_some_iff rfl hne).mp hsegments) hafter

namespace State.Reads

/-- Nothing has been read at the start. -/
theorem start : State.start.Reads [] :=
  ⟨[], [], [], [], [], [], .nil, .nil, .empty _ rfl, rfl, rfl⟩

variable {state next : State} {text : List Char}

/-- A comma ends the pending item. -/
theorem comma (h : state.Reads text) {found : Option Path} (hpath : state.path? = .ok found) :
    { state with
      paths := found.toList ++ state.paths, item := [], closed := false }.Reads
      (text ++ [',']) := by
  obtain ⟨opened, items, pending, outer, complete, more, hopened, hitems, hpending, rfl,
    hpaths⟩ := h
  have hitem := hpending.item_of_path? hopened.inGroup hpath
  refine ⟨opened, _, _, outer, _, [], hopened, hitems.snoc hitem, .empty _ rfl, by simp, ?_⟩
  cases found <;> simp [hpaths]

/-- An opening brace makes the pending path a group. -/
theorem openGroup (h : state.Reads text) {path : Path} (hpath : state.path? = .ok (some path)) :
    { state with groups := path :: state.groups, item := [] }.Reads (text ++ ['{']) := by
  obtain ⟨opened, items, pending, outer, complete, more, hopened, hitems, hpending, rfl,
    hpaths⟩ := h
  have hgroup := hopened.inGroup
  cases hpending with
  | group _ hitem _ =>
      rw [State.path?_of_blank (by simp [hitem, AllBlank])] at hpath
      cases hpath
  | @item before hclosed hbefore hplain hhead =>
      rw [hgroup.path?_eq] at hpath
      obtain ⟨segments, hsegments, heq⟩ := map_eq_ok_iff.mp hpath
      obtain ⟨below, rfl, rfl⟩ := Option.map_eq_some_iff.mp heq
      have hne : Text.trimEnd state.item.reverse ≠ [] := by
        intro hnil
        rw [segments?, if_pos hnil] at hsegments
        cases hsegments
      obtain ⟨between, hbetween, hitem⟩ := exists_blank_of_trimEnd state.item.reverse
      refine ⟨_, [], [], _, [], [], hopened.cons hitems hbefore (isName_trimEnd hne hplain hhead)
        ((segments?_eq_some_iff rfl hne).mp hsegments) hbetween, .nil,
        .empty _ hclosed, ?_, ?_⟩
      · rw [← hitem]
        simp
      · simp [hpaths]

/-- A closing brace ends the pending item and its group. -/
theorem closeGroup (h : state.Reads text) {found : Option Path} (hpath : state.path? = .ok found)
    {group : Path} {groups : List Path} (hgroups : state.groups = group :: groups) :
    { state with
      paths := found.toList ++ state.paths, groups, item := [], closed := true }.Reads
      (text ++ ['}']) := by
  obtain ⟨opened, items, pending, outer, complete, more, hopened, hitems, hpending, rfl,
    hpaths⟩ := h
  have hinner := hitems.sequence (.single (hpending.item_of_path? hopened.inGroup hpath))
  rw [hgroups] at hopened hinner
  cases hopened with
  | @cons _ path before items' blanks name between outer' found' hbefore hitems' hblanks hname
      hmeans hbetween =>
      refine ⟨before, items', blanks ++ (name ++ between) ++ '{' :: (items ++ pending ++ ['}']),
        outer', found', complete ++ (more ++ found.toList), hbefore, hitems',
        .group rfl rfl fun after hafter => ?_, by simp, ?_⟩
      · have hitem := Item.group hblanks hname hmeans hbetween hinner hafter
        simpa using hitem
      · cases found <;> simp [hpaths]

/-- Blanks in front of an item and behind a group are skipped. -/
theorem skip (h : state.Reads text) {c : Char} (hblank : Text.isBlank c = true)
    (hskip : state.item.isEmpty = true ∨ state.closed = true) : state.Reads (text ++ [c]) := by
  obtain ⟨opened, items, pending, outer, complete, more, hopened, hitems, hpending, rfl,
    hpaths⟩ := h
  refine ⟨opened, items, pending ++ [c], outer, complete, more, hopened, hitems, ?_, by simp,
    hpaths⟩
  have hc : AllBlank [c] := by simpa [AllBlank] using hblank
  cases hpending with
  | group hclosed hitem hafter =>
      refine .group hclosed hitem fun after hblanks => ?_
      simpa using hafter ([c] ++ after) (hc.append hblanks)
  | @item before hclosed hbefore hplain hhead =>
      have hitem : state.item = [] := by
        rcases hskip with hempty | htrue
        · exact List.isEmpty_iff.mp hempty
        · rw [hclosed] at htrue
          cases htrue
      have hpending : Pending (state.groups.headD []) state.item state.closed
          (before ++ [c] ++ state.item.reverse) [] :=
        .item hclosed (hbefore.append hc) hplain hhead
      simpa [hitem] using hpending

/-- Other characters without a meaning of their own belong to the pending item. -/
theorem keep (h : state.Reads text) {c : Char} (hplain : IsPlain c) (hclosed : state.closed = false)
    (hhead : state.item = [] → Text.isBlank c = false) :
    { state with item := c :: state.item }.Reads (text ++ [c]) := by
  obtain ⟨opened, items, pending, outer, complete, more, hopened, hitems, hpending, rfl,
    hpaths⟩ := h
  cases hpending with
  | group htrue _ _ =>
      rw [hclosed] at htrue
      cases htrue
  | @item before _ hbefore hchars hlast =>
      refine ⟨opened, items, _, outer, complete, [], hopened, hitems, .item hclosed hbefore
        (List.forall_mem_cons.mpr ⟨hplain, hchars⟩) (fun d hd => ?_), by simp, hpaths⟩
      cases hitem : state.item with
      | nil =>
          simp only [hitem, List.getLast?_singleton, Option.mem_some_iff] at hd
          exact hd ▸ hhead hitem
      | cons e item =>
          simp only [hitem, List.getLast?_cons_cons] at hd
          exact hlast d (by rwa [hitem])

/-- **The step.** A state that reads one more character has read it. -/
theorem step (h : state.Reads text) {c : Char} (hs : state.step c = .ok next) :
    next.Reads (text ++ [c]) := by
  obtain ⟨read, hread, rfl⟩ := map_eq_ok_iff.mp hs
  suffices hreads : read.Reads (text ++ [c]) from hreads
  rw [State.read] at hread
  split at hread
  · next hcomma =>
      subst hcomma
      obtain ⟨flushed, hflush, rfl⟩ := map_eq_ok_iff.mp hread
      obtain ⟨found, hpath, rfl⟩ := map_eq_ok_iff.mp hflush
      exact h.comma hpath
  · next hcomma =>
      split at hread
      · next hopen =>
          subst hopen
          split at hread
          · cases hread
          · cases hread
          · next path hpath =>
              obtain rfl := Except.ok.inj hread
              exact h.openGroup hpath
      · next hopen =>
          split at hread
          · next hclose =>
              subst hclose
              split at hread
              · cases hread
              · next flushed hflush =>
                  obtain ⟨found, hpath, rfl⟩ := map_eq_ok_iff.mp hflush
                  split at hread
                  · cases hread
                  · next group groups hgroups =>
                      obtain rfl := Except.ok.inj hread
                      exact h.closeGroup hpath hgroups
          · next hclose =>
              split at hread
              · next hskip =>
                  obtain rfl := Except.ok.inj hread
                  rw [Bool.and_eq_true, Bool.or_eq_true] at hskip
                  exact h.skip hskip.1 hskip.2
              · next hskip =>
                  split at hread
                  · cases hread
                  · next hclosed =>
                      obtain rfl := Except.ok.inj hread
                      refine h.keep ⟨hcomma, hopen, hclose⟩ (Bool.eq_false_iff.mpr hclosed) ?_
                      intro hitem
                      simpa [hitem] using hskip

/-- **The run.** A state that reads a text has read it. -/
theorem steps {cs : List Char} {last : State} (h : state.Reads text)
    (hs : cs.foldlM State.step state = .ok last) : last.Reads (text ++ cs) := by
  induction cs generalizing state text with
  | nil =>
      obtain rfl := Except.ok.inj hs
      simpa using h
  | cons c cs ih =>
      rw [List.foldlM_cons] at hs
      cases hc : state.step c with
      | error e => rw [hc] at hs; cases hs
      | ok next =>
          rw [hc] at hs
          simpa using ih (h.step hc) hs

/-- A state that finishes has read a sequence outside of groups. -/
theorem finish (h : state.Reads text) {found : List Path} (hf : state.finish = .ok found) :
    Sequence [] text found := by
  rw [State.finish] at hf
  split at hf
  · cases hf
  · next flushed hflush =>
      obtain ⟨pending, hpath, rfl⟩ := map_eq_ok_iff.mp hflush
      split at hf
      · next hgroups =>
          obtain rfl := Except.ok.inj hf
          obtain ⟨opened, items, last, outer, complete, more, hopened, hitems, hpending, rfl,
            hpaths⟩ := h
          have hsequence := hitems.sequence (.single (hpending.item_of_path? hopened.inGroup hpath))
          rw [List.isEmpty_iff] at hgroups
          rw [hgroups] at hopened hsequence
          cases hopened
          cases pending <;> simpa [hpaths] using hsequence
      · cases hf

end State.Reads

/-! ### The grammar is what is read -/

/-- **Soundness.** An expression that is read is a sequence of the grammar. -/
theorem sequence_of_paths {expression : String} {found : List Path}
    (h : paths expression = .ok found) : Sequence [] expression.toList found := by
  rw [paths] at h
  split at h
  · cases h
  · next state hrun => exact (State.Reads.start.steps hrun).finish h

/-- **Completeness.** A sequence of the grammar is read, as the paths that it stands for. -/
theorem paths_of_sequence {expression : String} {found : List Path}
    (h : Sequence [] expression.toList found) : paths expression = .ok found := by
  have houtside : State.start.InGroup [] := ⟨rfl, by simp [State.start]⟩
  obtain ⟨last, hruns, hgroups, pending, hpath, hpaths⟩ := h.run houtside ⟨rfl, rfl⟩
  obtain ⟨position, hrun⟩ := hruns 0
  have hstart : expression.toList.foldlM State.step State.start
      = .ok { last with position := position } := hrun
  rw [paths, hstart]
  simp only [State.finish, State.flush_eq hpath position]
  simp [hgroups, hpaths, State.start]

/-- The names on a path that is meant are not empty. -/
theorem Means.segments_ne {group path : Path} {name : List Char} (h : Means group name path) :
    ∀ segment ∈ path, segment ≠ "" :=
  fun segment hsegment => (h.isPath.segments segment hsegment).1

mutual

/-- The paths of an item are not empty, and neither are their segments. -/
theorem Item.paths_ne {group : Path} {text : List Char} {found : List Path}
    (h : Item group text found) (hgroup : ∀ segment ∈ group, segment ≠ "") :
    ∀ path ∈ found, path ≠ [] ∧ ∀ segment ∈ path, segment ≠ "" := by
  match h with
  | .blank _ => simp
  | .root _ _ => simp
  | .name _ _ hmeans _ =>
      rw [List.forall_mem_singleton]
      exact ⟨by simp [hmeans.isPath.ne_nil],
        List.forall_mem_append.mpr ⟨hgroup, hmeans.segments_ne⟩⟩
  | .group _ _ hmeans _ hinner _ =>
      exact hinner.paths_ne (List.forall_mem_append.mpr ⟨hgroup, hmeans.segments_ne⟩)

/-- The paths of a sequence are not empty, and neither are their segments. -/
theorem Sequence.paths_ne {group : Path} {text : List Char} {found : List Path}
    (h : Sequence group text found) (hgroup : ∀ segment ∈ group, segment ≠ "") :
    ∀ path ∈ found, path ≠ [] ∧ ∀ segment ∈ path, segment ≠ "" := by
  match h with
  | .single hitem => exact hitem.paths_ne hgroup
  | .cons hitem hrest =>
      exact List.forall_mem_append.mpr ⟨hitem.paths_ne hgroup, hrest.paths_ne hgroup⟩

end

/-- **The reader of expressions accepts exactly the grammar**, with the paths that it stands for.
None of these paths is empty, and no name on them is. -/
theorem paths_grammar (expression : String) :
    (∀ found, paths expression = .ok found ↔ Sequence [] expression.toList found) ∧
      ∀ found, paths expression = .ok found →
        ∀ path ∈ found, path ≠ [] ∧ ∀ segment ∈ path, segment ≠ "" :=
  ⟨fun _ => ⟨sequence_of_paths, paths_of_sequence⟩,
    fun _ h => (sequence_of_paths h).paths_ne (by simp)⟩

/-- An expression with the resource itself, an empty item and groups inside a group. -/
theorem paths_grammar_nested :
    paths " $.id ,$, a.b \x7bc,, $.d\x7be f.g\x7d \x7d " = .ok [["id"], ["a", "b", "c"],
        ["a", "b", "$", "d", "e f", "g"]] ∧
      Sequence [] " $.id ,$, a.b \x7bc,, $.d\x7be f.g\x7d \x7d ".toList
        [["id"], ["a", "b", "c"], ["a", "b", "$", "d", "e f", "g"]] ∧
      ∀ path ∈ [["id"], ["a", "b", "c"], ["a", "b", "$", "d", "e f", "g"]],
        path ≠ [] ∧ ∀ segment ∈ path, segment ≠ "" := by
  have hread : paths " $.id ,$, a.b \x7bc,, $.d\x7be f.g\x7d \x7d " = .ok [["id"], ["a", "b", "c"],
      ["a", "b", "$", "d", "e f", "g"]] := by rfl
  exact ⟨hread, ((paths_grammar _).1 _).mp hread, (paths_grammar _).2 _ hread⟩

end ResourceQuery.Expression
