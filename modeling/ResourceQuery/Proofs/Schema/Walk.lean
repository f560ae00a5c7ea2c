import ResourceQuery.Proofs.Schema.FieldTree
import ResourceQuery.Proofs.Selection.Lookup

/-!
# The tree of declared fields is a walk over the declarations

The tree answers a path with one look-up in an index that is written declaration by declaration.
What it answers can be said without the index: names lead from the declarations of the resource to
one declaration after the other (`FieldDeclaration.LeadsTo`), and the tree has a path exactly when
the names on it lead somewhere. Building fails in the same terms, at the first declaration in
pre-order that offends (`FieldDeclaration.Site.offence?`): its name is not valid, or an earlier
sibling has it.

The link between both is a closed form of the index. `FieldDeclaration.levelSites` lists the
declarations in pre-order, each with the names above it and before it. While a level is declared,
its own entry grows in place and the entries of its sites are written behind all others
(`FieldTree.declareAll_eq`), so the index of a built tree is the list of its sites.

## Main definitions

* `FieldDeclaration.LeadsTo`: names that lead to a declaration.
* `FieldDeclaration.WellFormed`: valid names, none of which stands twice among siblings.
* `FieldDeclaration.Site`, `FieldDeclaration.levelSites`: the declarations in pre-order.
* `FieldTree.Reflects`: a tree answers as a walk over the declarations does.

## Main statements

* `FieldTree.declareAll_eq`: what comes of declaring a level.
* `FieldTree.ofDeclarations_reflects`: when a tree is built, which failure there is otherwise, and
  that the tree reflects its declarations.
-/

namespace ResourceQuery

open Expression (Path fullPath)

/-- What a name of a field must be: not empty, of 128 bytes at most, and without blanks and without
the characters that paths and selections are written with. -/
structure ValidName (name : String) : Prop where
  nonempty : name ≠ ""
  bounded : name.utf8ByteSize ≤ 128
  clear : ∀ c ∈ name.toList, Text.isBlank c = false ∧ c ∉ ['.', ',', '{', '}', '$']

/-- The names that are accepted are the valid ones. -/
theorem isFieldName_iff {name : String} : isFieldName name = true ↔ ValidName name := by
  have hchar : ∀ c, (Text.isBlank c || isPathChar c) = false ↔
      Text.isBlank c = false ∧ c ∉ ['.', ',', '{', '}', '$'] := by
    intro c
    simp [isPathChar, and_assoc]
  constructor
  · intro h
    simp only [isFieldName, Bool.and_eq_true, decide_eq_true_eq, Bool.not_eq_true',
      List.any_eq_false, Bool.not_eq_true] at h
    exact ⟨h.1.1, h.1.2, fun c hc => (hchar c).mp (h.2 c hc)⟩
  · intro h
    simp only [isFieldName, Bool.and_eq_true, decide_eq_true_eq, Bool.not_eq_true',
      List.any_eq_false, Bool.not_eq_true]
    exact ⟨⟨h.nonempty, h.bounded⟩, fun c hc => (hchar c).mpr (h.clear c hc)⟩

instance (name : String) : Decidable (ValidName name) :=
  decidable_of_iff _ isFieldName_iff

/-- A valid name has no dot. -/
theorem ValidName.dot_notMem {name : String} (h : ValidName name) : '.' ∉ name.toList :=
  dot_notMem_of_isFieldName (isFieldName_iff.mpr h)

/-- A path below a namespace is another path. -/
theorem joinPath_ne (space name : String) : joinPath space name ≠ space := by
  intro h
  have hlength := congrArg (fun s => s.toList.length) h
  simp [joinPath] at hlength

/-- Only the empty path is that of the root. -/
theorem Expression.fullPath_ne_root {path : Path} (h : path ≠ []) :
    fullPath path ≠ rootNamespace := by
  intro hroot
  have hlists : (fullPath path).toList = ['$'] := congrArg String.toList hroot
  rw [fullPath, dotted_cons h rootNamespace] at hlists
  simp [rootNamespace] at hlists

/-! ### Walking the declarations -/

namespace FieldDeclaration

/-- The names lead, step by step, from the declarations of a level to a declaration. -/
inductive LeadsTo : List FieldDeclaration → Path → FieldDeclaration → Prop
  | here {level : List FieldDeclaration} {d : FieldDeclaration} :
      d ∈ level → LeadsTo level [d.name] d
  | deeper {level : List FieldDeclaration} {parent d : FieldDeclaration} {path : Path} :
      parent ∈ level → LeadsTo parent.children path d → LeadsTo level (parent.name :: path) d

/-- All names are valid, at every depth, and no name stands twice among siblings. -/
inductive WellFormed : List FieldDeclaration → Prop
  | intro {level : List FieldDeclaration} :
      (∀ d ∈ level, ValidName d.name) → (level.map name).Nodup →
      (∀ d ∈ level, WellFormed d.children) → WellFormed level

mutual

/-- The number of declarations from a field on: its own and those below it. -/
def count : FieldDeclaration → Nat
  | .atomic _ => 1
  | .nested _ children => 1 + total children

/-- The number of declarations at all depths. -/
def total : List FieldDeclaration → Nat
  | [] => 0
  | d :: rest => d.count + total rest

end

/-- A declaration at its place. -/
structure Site where
  /-- The names that lead to the level of the declaration. -/
  above : Path
  /-- The names that are declared before it on the level. -/
  earlier : List String
  declaration : FieldDeclaration

namespace Site

/-- The names that lead to the declaration. -/
def path (site : Site) : Path :=
  site.above ++ [site.declaration.name]

/-- What is wrong with a declaration: its name is not valid, or else it is that of an earlier
sibling. -/
def offence? (site : Site) : Option FieldError :=
  if ¬ValidName site.declaration.name then some (.invalidName site.declaration.name)
  else if site.declaration.name ∈ site.earlier then some (.duplicate (fullPath site.path))
  else none

/-- The entry of a declaration in the index: its full path, and the names below it. -/
def entry (site : Site) : String × List String :=
  (fullPath site.path, site.declaration.children.map name)

/-- A field has no offence when its name is valid and new on its level. -/
theorem offence?_eq_none_iff {site : Site} :
    site.offence? = none ↔
      ValidName site.declaration.name ∧ site.declaration.name ∉ site.earlier := by
  rw [offence?]
  by_cases hvalid : ValidName site.declaration.name <;>
    by_cases hearlier : site.declaration.name ∈ site.earlier <;> simp [hvalid, hearlier]

end Site

mutual

/-- A declaration and those below it, in pre-order. -/
def sites (above : Path) (earlier : List String) : FieldDeclaration → List Site
  | .atomic name => [⟨above, earlier, .atomic name⟩]
  | .nested name children =>
    ⟨above, earlier, .nested name children⟩ :: levelSites (above ++ [name]) [] children

/-- The declarations of a level and those below them, in pre-order. -/
def levelSites (above : Path) (earlier : List String) : List FieldDeclaration → List Site
  | [] => []
  | d :: rest => d.sites above earlier ++ levelSites above (earlier ++ [d.name]) rest

end

/-- The sites of a field are its own and those below it. -/
theorem sites_eq (above : Path) (earlier : List String) (d : FieldDeclaration) :
    d.sites above earlier
      = ⟨above, earlier, d⟩ :: levelSites (above ++ [d.name]) [] d.children := by
  cases d with
  | atomic name => rfl
  | nested name children => rfl

/-- The sites of a level are those of its first field and those of the others. -/
theorem levelSites_cons (above : Path) (earlier : List String) (d : FieldDeclaration)
    (rest : List FieldDeclaration) :
    levelSites above earlier (d :: rest)
      = ⟨above, earlier, d⟩ :: (levelSites (above ++ [d.name]) [] d.children
          ++ levelSites above (earlier ++ [d.name]) rest) := by
  rw [levelSites, sites_eq, List.cons_append]

/-- A level is well formed when its first field and the others are, and the names differ. -/
theorem wellFormed_cons {d : FieldDeclaration} {rest : List FieldDeclaration} :
    WellFormed (d :: rest) ↔
      ValidName d.name ∧ d.name ∉ rest.map name ∧ WellFormed d.children ∧ WellFormed rest := by
  constructor
  · rintro ⟨hnames, hnodup, hbelow⟩
    obtain ⟨hname, hnames⟩ := List.forall_mem_cons.mp hnames
    obtain ⟨hfresh, hnodup⟩ := List.nodup_cons.mp hnodup
    obtain ⟨hchildren, hbelow⟩ := List.forall_mem_cons.mp hbelow
    exact ⟨hname, hfresh, hchildren, hnames, hnodup, hbelow⟩
  · rintro ⟨hname, hfresh, hchildren, hnames, hnodup, hbelow⟩
    exact ⟨List.forall_mem_cons.mpr ⟨hname, hnames⟩, List.nodup_cons.mpr ⟨hfresh, hnodup⟩,
      List.forall_mem_cons.mpr ⟨hchildren, hbelow⟩⟩

/-- **No declaration offends exactly when the declarations are well formed**, and none of the level
has a name that was declared before them. -/
theorem forall_offence?_eq_none_iff (level : List FieldDeclaration) :
    ∀ (above : Path) (earlier : List String),
      (∀ site ∈ levelSites above earlier level, site.offence? = none) ↔
        WellFormed level ∧ ∀ name ∈ earlier, name ∉ level.map FieldDeclaration.name := by
  induction level using levelInduction with
  | nil =>
      intro above earlier
      exact ⟨fun _ => ⟨⟨by simp, by simp, by simp⟩, by simp⟩, fun _ => by simp [levelSites]⟩
  | cons d rest ihbelow ihrest =>
      intro above earlier
      rw [levelSites_cons, List.forall_mem_cons, List.forall_mem_append, ihbelow, ihrest,
        Site.offence?_eq_none_iff, wellFormed_cons, List.map_cons]
      simp only [List.forall_mem_append, List.forall_mem_singleton]
      simp only [List.mem_cons, not_or]
      constructor
      · rintro ⟨⟨hname, hnew⟩, ⟨hchildren, -⟩, hrest, hothers, hfresh⟩
        exact ⟨⟨hname, hfresh, hchildren, hrest⟩,
          fun name hm => ⟨fun heq => hnew (heq ▸ hm), hothers name hm⟩⟩
      · rintro ⟨⟨hname, hfresh, hchildren, hrest⟩, hothers⟩
        exact ⟨⟨hname, fun hm => (hothers _ hm).1 rfl⟩, ⟨hchildren, by simp⟩, hrest,
          fun name hm => (hothers name hm).2, hfresh⟩

/-- A level has as many sites as fields at any depth. -/
theorem length_levelSites (level : List FieldDeclaration) :
    ∀ (above : Path) (earlier : List String),
      (levelSites above earlier level).length = total level := by
  induction level using levelInduction with
  | nil => exact fun _ _ => rfl
  | cons d rest ihbelow ihrest =>
      intro above earlier
      have hcount : d.count = 1 + total d.children := by cases d <;> rfl
      rw [levelSites_cons, List.length_cons, List.length_append, ihbelow, ihrest, total, hcount]
      omega

/-! ### Sites and the names that lead to them -/

/-- A path that leads to a field is not empty. -/
theorem LeadsTo.ne_nil {level : List FieldDeclaration} {path : Path} {d : FieldDeclaration}
    (h : LeadsTo level path d) : path ≠ [] := by
  cases h with
  | here _ => exact List.cons_ne_nil _ _
  | deeper _ _ => exact List.cons_ne_nil _ _

/-- A path leads to the same field in a level with more fields. -/
theorem LeadsTo.mono {level level' : List FieldDeclaration} {path : Path} {d : FieldDeclaration}
    (h : LeadsTo level path d) (hsub : ∀ other ∈ level, other ∈ level') :
    LeadsTo level' path d := by
  cases h with
  | here hm => exact .here (hsub _ hm)
  | deeper hm hpath => exact .deeper (hsub _ hm) hpath

/-- Names lead to every site. -/
theorem exists_leadsTo_of_mem (level : List FieldDeclaration) :
    ∀ {above : Path} {earlier : List String} {site : Site},
      site ∈ levelSites above earlier level →
        ∃ path, LeadsTo level path site.declaration ∧ site.path = above ++ path := by
  induction level using levelInduction with
  | nil => exact fun h => absurd h List.not_mem_nil
  | cons d rest ihbelow ihrest =>
      intro above earlier site hm
      rw [levelSites_cons, List.mem_cons, List.mem_append] at hm
      rcases hm with rfl | hm | hm
      · exact ⟨[d.name], .here List.mem_cons_self, rfl⟩
      · obtain ⟨path, hpath, hsite⟩ := ihbelow hm
        exact ⟨d.name :: path, .deeper List.mem_cons_self hpath, by simp [hsite]⟩
      · obtain ⟨path, hpath, hsite⟩ := ihrest hm
        exact ⟨path, hpath.mono fun _ => List.mem_cons_of_mem _, hsite⟩

/-- A declaration of the level has a site, and the sites below it are sites of the level. -/
theorem exists_site_of_mem {level : List FieldDeclaration} {d : FieldDeclaration} (h : d ∈ level)
    (above : Path) (earlier : List String) :
    (∃ before, ⟨above, before, d⟩ ∈ levelSites above earlier level) ∧
      ∀ site ∈ levelSites (above ++ [d.name]) [] d.children,
        site ∈ levelSites above earlier level := by
  induction level generalizing earlier with
  | nil => cases h
  | cons first rest ih =>
      rw [levelSites_cons]
      rcases List.mem_cons.mp h with rfl | h
      · exact ⟨⟨earlier, List.mem_cons_self⟩,
          fun site hm => List.mem_cons_of_mem _ (List.mem_append_left _ hm)⟩
      · obtain ⟨⟨before, hself⟩, hbelow⟩ := ih h (earlier ++ [first.name])
        exact ⟨⟨before, List.mem_cons_of_mem _ (List.mem_append_right _ hself)⟩,
          fun site hm => List.mem_cons_of_mem _ (List.mem_append_right _ (hbelow site hm))⟩

/-- Where names lead, there is a site. -/
theorem LeadsTo.exists_site {level : List FieldDeclaration} {path : Path} {d : FieldDeclaration}
    (h : LeadsTo level path d) (above : Path) (earlier : List String) :
    ∃ site ∈ levelSites above earlier level, site.declaration = d ∧ site.path = above ++ path := by
  induction h generalizing above earlier with
  | here hm =>
      obtain ⟨⟨before, hself⟩, -⟩ := exists_site_of_mem hm above earlier
      exact ⟨_, hself, rfl, rfl⟩
  | @deeper _ parent _ _ hm _ ih =>
      obtain ⟨-, hbelow⟩ := exists_site_of_mem hm above earlier
      obtain ⟨site, hsite, hd, hpath⟩ := ih (above ++ [parent.name]) []
      exact ⟨site, hbelow site hsite, hd, by simp [hpath]⟩

end FieldDeclaration

/-! ### What comes of declaring a level -/

namespace FieldTree

open FieldDeclaration (Site levelSites LeadsTo WellFormed levelInduction)

/-- The paths in the index of a tree are those that it has. -/
theorem mem_keys_iff {tree : FieldTree} {path : String} :
    path ∈ tree.index.keys ↔ tree.Has path :=
  Entries.isSome_get?_iff.symm

/-- A new name is written behind all entries. -/
theorem index_add {tree : FieldTree} {space name : String} (hspace : tree.Has space)
    (hnew : ¬tree.Has (joinPath space name)) :
    (tree.add space name).index
      = tree.index.put space (tree.children space ++ [name]) ++ [(joinPath space name, [])] := by
  rw [add, Entries.put_of_notMem (mt mem_keys_iff.mp hnew),
    Entries.put_append_of_mem (mem_keys_iff.mpr hspace)]

/-- A level of a tree with its names, at which more can be declared. -/
structure OpenAt (tree : FieldTree) (path : Path) (earlier : List String) : Prop where
  linked : tree.Linked
  names : tree.index.get? (fullPath path) = some earlier
  has : ∀ name ∈ earlier, tree.Has (joinPath (fullPath path) name)

section OpenAt

variable {tree : FieldTree} {path : Path} {earlier : List String} {name : String}

/-- The tree without fields is open at the root. -/
theorem openAt_empty : empty.OpenAt [] [] :=
  ⟨linked_empty, rfl, by simp⟩

/-- A tree has the path that it is open at. -/
theorem OpenAt.has_path (h : tree.OpenAt path earlier) : tree.Has (fullPath path) := by
  rw [Has, h.names]
  rfl

/-- Below the path that a tree is open at stand the names so far. -/
theorem OpenAt.children_eq (h : tree.OpenAt path earlier) :
    tree.children (fullPath path) = earlier := by
  rw [children, h.names]
  rfl

/-- A path below the level is taken exactly when its name has been declared there. -/
theorem OpenAt.has_iff (h : tree.OpenAt path earlier) (hname : ValidName name) :
    tree.Has (joinPath (fullPath path) name) ↔ name ∈ earlier := by
  refine ⟨fun hhas => ?_, h.has name⟩
  rw [← h.children_eq]
  exact h.linked _ _ hname.dot_notMem hhas

/-- After a name has been added, its level is open for names behind it, and the level below it is
open too. -/
theorem OpenAt.add (h : tree.OpenAt path earlier) (hname : ValidName name) (hnew : name ∉ earlier) :
    (tree.add (fullPath path) name).OpenAt path (earlier ++ [name]) ∧
      (tree.add (fullPath path) name).OpenAt (path ++ [name]) [] := by
  have hlinked : (tree.add (fullPath path) name).Linked :=
    h.linked.add h.has_path hname.dot_notMem (mt (h.has_iff hname).mp hnew)
  refine ⟨⟨hlinked, ?_, fun other hm => has_add.mpr (Or.inr ?_)⟩, ⟨hlinked, ?_, by simp⟩⟩
  · rw [FieldTree.add, Entries.get?_put, if_pos rfl, h.children_eq]
  · rcases List.mem_append.mp hm with hm | hm
    · exact Or.inr (h.has other hm)
    · exact Or.inl (by rw [List.mem_singleton.mp hm])
  · rw [Expression.fullPath_append_singleton, FieldTree.add, Entries.get?_put,
      if_neg (joinPath_ne _ _).symm, Entries.get?_put, if_pos rfl]

end OpenAt

/-- The tree after the declarations of a level: the level has these names, and the entries of the
sites stand behind all others. -/
def filled (tree : FieldTree) (path : Path) (names : List String) (sites : List Site) : FieldTree :=
  ⟨tree.index.put (fullPath path) names ++ sites.map Site.entry⟩

/-- What comes of the declarations of a level: the first offence, or else the filled tree. -/
def outcome (tree : FieldTree) (path : Path) (names : List String) (sites : List Site) :
    Except FieldError FieldTree :=
  match sites.findSome? Site.offence? with
  | some e => .error e
  | none => .ok (tree.filled path names sites)

/-- Declaring a name is finding its offence, or adding it. -/
theorem declareName_eq {tree : FieldTree} {path : Path} {earlier : List String}
    (h : tree.OpenAt path earlier) (d : FieldDeclaration) :
    tree.declareName (fullPath path) d.name
      = match Site.offence? ⟨path, earlier, d⟩ with
        | some e => .error e
        | none => .ok (tree.add (fullPath path) d.name) := by
  rw [declareName, Site.offence?]
  by_cases hname : ValidName d.name
  · have hvalid : isFieldName d.name = true := isFieldName_iff.mpr hname
    by_cases hearlier : d.name ∈ earlier
    · have htaken : (tree.index.get? (joinPath (fullPath path) d.name)).isSome = true :=
        h.has _ hearlier
      simp [hvalid, hname, hearlier, htaken, Site.path, Expression.fullPath_append_singleton]
    · have hfree : (tree.index.get? (joinPath (fullPath path) d.name)).isSome = false :=
        Bool.eq_false_iff.mpr (mt (h.has_iff hname).mp hearlier)
      simp [hvalid, hname, hearlier, hfree]
  · simp [hname, mt isFieldName_iff.mp hname]

/-- After the level below a name has been filled, the level of the name is still open. -/
theorem OpenAt.below {tree tree' : FieldTree} {path : Path} {earlier names : List String}
    {name : String} {sites : List Site} (h : tree.OpenAt path earlier) (hkeeps : Keeps tree tree')
    (htree : tree' = tree.filled (path ++ [name]) names sites) : tree'.OpenAt path earlier := by
  refine ⟨hkeeps.linked h.linked, ?_, fun other hm => hkeeps.has _ (h.has other hm)⟩
  rw [htree, filled, Entries.get?_append, Entries.get?_put, Expression.fullPath_append_singleton,
    if_neg (joinPath_ne _ _), h.names]
  rfl

/-- Filling the level below a new name, and then its own level behind it, fills its level with all
sites. -/
theorem filled_filled {tree : FieldTree} {path : Path} {earlier names : List String}
    {d : FieldDeclaration} {below rest : List Site} (h : tree.OpenAt path earlier)
    (hname : ValidName d.name) (hnew : d.name ∉ earlier) :
    (((tree.add (fullPath path) d.name).filled (path ++ [d.name])
        (d.children.map FieldDeclaration.name) below).filled path names rest)
      = tree.filled path names (⟨path, earlier, d⟩ :: (below ++ rest)) := by
  have hfree : ¬tree.Has (joinPath (fullPath path) d.name) := mt (h.has_iff hname).mp hnew
  have hkeys : (tree.index.put (fullPath path) (tree.children (fullPath path) ++ [d.name])).keys
      = tree.index.keys := by
    rw [Entries.keys_put, if_pos (mem_keys_iff.mpr h.has_path)]
  have hbehind : joinPath (fullPath path) d.name
      ∉ (tree.index.put (fullPath path) (tree.children (fullPath path) ++ [d.name])).keys := by
    rw [hkeys]
    exact mt mem_keys_iff.mp hfree
  have hbefore : fullPath path
      ∈ (tree.index.put (fullPath path) (tree.children (fullPath path) ++ [d.name])).keys := by
    rw [hkeys]
    exact mem_keys_iff.mpr h.has_path
  rw [filled, filled, filled, index_add h.has_path hfree, Expression.fullPath_append_singleton,
    Entries.put_append_last hbehind, List.append_assoc, Entries.put_append_of_mem hbefore,
    Entries.put_put]
  simp [Site.entry, Site.path, Expression.fullPath_append_singleton]

/-- **What comes of declaring a level.** The first site that offends is the failure. If there is
none, the names of the level stand behind those that were there, and the index has one more entry
for each site, in pre-order. -/
theorem declareAll_eq (level : List FieldDeclaration) :
    ∀ {tree : FieldTree} {path : Path} {earlier : List String}, tree.OpenAt path earlier →
      tree.declareAll (fullPath path) level
        = tree.outcome path (earlier ++ level.map FieldDeclaration.name)
            (levelSites path earlier level) := by
  induction level using levelInduction with
  | nil =>
      intro tree path earlier h
      rw [declareAll, levelSites, outcome, filled]
      simp [Entries.put_of_get? h.names]
  | cons d rest ihbelow ihrest =>
      intro tree path earlier h
      rw [declareAll_cons, declareName_eq h, outcome, FieldDeclaration.levelSites_cons,
        List.findSome?_cons, List.findSome?_append]
      cases hsite : Site.offence? ⟨path, earlier, d⟩ with
      | some e => rfl
      | none =>
          obtain ⟨hname, hnew⟩ := FieldDeclaration.Site.offence?_eq_none_iff.mp hsite
          obtain ⟨hopen, hopenBelow⟩ := h.add hname hnew
          have hbelow := ihbelow hopenBelow
          rw [Expression.fullPath_append_singleton, outcome, List.nil_append] at hbelow
          dsimp only
          rw [hbelow]
          cases hfound : (levelSites (path ++ [d.name]) [] d.children).findSome? Site.offence? with
          | some e => rfl
          | none =>
              rw [hfound] at hbelow
              have hspace := hopenBelow.has_path
              rw [Expression.fullPath_append_singleton] at hspace
              have hnext := hopen.below (keeps_declareAll hspace hbelow) rfl
              dsimp only [Option.none_or]
              rw [ihrest hnext, outcome, filled_filled h hname hnew, List.append_assoc,
                List.singleton_append, List.map_cons]

/-! ### Built trees -/

/-- Building finds the first offence, or makes the index of all sites. -/
theorem ofDeclarations_eq (level : List FieldDeclaration) :
    ofDeclarations level =
      match (levelSites [] [] level).findSome? Site.offence? with
      | some e => .error e
      | none => .ok ⟨(rootNamespace, level.map FieldDeclaration.name)
          :: (levelSites [] [] level).map Site.entry⟩ :=
  declareAll_eq level openAt_empty

/-- A tree answers as a walk over the declarations does. -/
structure Reflects (tree : FieldTree) (level : List FieldDeclaration) : Prop where
  /-- A path is that of a nested field when its names lead to a declaration with children. -/
  nested : ∀ path, tree.kind? path = some .nested ↔
    ∃ names d, LeadsTo level names d ∧ path = fullPath names ∧ d.children ≠ []
  /-- A path is that of an atomic field when its names lead to a declaration without children. -/
  atomic : ∀ path, tree.kind? path = some .atomic ↔
    ∃ names d, LeadsTo level names d ∧ path = fullPath names ∧ d.children = []
  /-- No other path is that of a field. -/
  undeclared : ∀ path, tree.kind? path = none ↔
    ¬∃ names d, LeadsTo level names d ∧ path = fullPath names
  /-- The names in the namespace of the resource are those of the topmost declarations. -/
  topmost : tree.children rootNamespace = level.map FieldDeclaration.name
  /-- The names in the namespace of a field are those of the declarations below it. -/
  children : ∀ names d, LeadsTo level names d →
    tree.children (fullPath names) = d.children.map FieldDeclaration.name
  /-- There are no names anywhere else. -/
  nothing : ∀ space, space ≠ rootNamespace →
    (¬∃ names d, LeadsTo level names d ∧ space = fullPath names) → tree.children space = []
  /-- The declarations are counted at all depths. -/
  size : tree.size = FieldDeclaration.total level

section Built

variable {level : List FieldDeclaration} {tree : FieldTree}

/-- The index of a built tree has one entry for each path, and finds what names lead to. -/
theorem get?_eq_some_iff (h : ofDeclarations level = .ok tree) {path : String}
    {names : List String} (hroot : path ≠ rootNamespace) :
    tree.index.get? path = some names ↔
      ∃ steps d, LeadsTo level steps d ∧ path = fullPath steps ∧
        names = d.children.map FieldDeclaration.name := by
  have hnodup : tree.index.keys.Nodup :=
    (keeps_declareAll has_empty h).nodup (List.nodup_singleton _)
  rw [ofDeclarations_eq] at h
  split at h
  · cases h
  · obtain rfl := Except.ok.inj h
    constructor
    · intro hget
      rcases List.mem_cons.mp (Entries.mem_of_get? hget) with heq | hm
      · exact absurd (Prod.mk.inj heq).1 hroot
      · obtain ⟨site, hsite, hentry⟩ := List.mem_map.mp hm
        obtain ⟨hpath, hnames⟩ := Prod.mk.inj hentry
        obtain ⟨steps, hsteps, habove⟩ := FieldDeclaration.exists_leadsTo_of_mem level hsite
        rw [List.nil_append] at habove
        exact ⟨steps, site.declaration, hsteps, by rw [← hpath, habove], hnames.symm⟩
    · rintro ⟨steps, d, hsteps, rfl, rfl⟩
      obtain ⟨site, hsite, rfl, hpath⟩ := hsteps.exists_site [] []
      rw [List.nil_append] at hpath
      refine Entries.get?_of_mem hnodup (List.mem_cons_of_mem _ ?_)
      rw [← hpath]
      exact List.mem_map_of_mem hsite

/-- A field is declared where names lead, and it is nested if it has children. -/
theorem kind?_eq_some_iff (h : ofDeclarations level = .ok tree) {path : String}
    {kind : FieldKind} :
    tree.kind? path = some kind ↔
      ∃ steps d, LeadsTo level steps d ∧ path = fullPath steps ∧
        kind = if d.children = [] then .atomic else .nested := by
  rw [kind?]
  split
  · next hroot =>
      refine ⟨(by rintro ⟨⟩), ?_⟩
      rintro ⟨steps, d, hsteps, hpath, -⟩
      exact absurd (hpath.symm.trans hroot) (Expression.fullPath_ne_root hsteps.ne_nil)
  · next hroot =>
      rw [Option.map_eq_some_iff]
      constructor
      · rintro ⟨names, hnames, rfl⟩
        obtain ⟨steps, d, hsteps, hpath, rfl⟩ := (get?_eq_some_iff h hroot).mp hnames
        exact ⟨steps, d, hsteps, hpath, by simp⟩
      · rintro ⟨steps, d, hsteps, hpath, rfl⟩
        exact ⟨_, (get?_eq_some_iff h hroot).mpr ⟨steps, d, hsteps, hpath, rfl⟩, by simp⟩

/-- **A built tree reflects its declarations.** -/
theorem reflects_of_ofDeclarations (h : ofDeclarations level = .ok tree) :
    tree.Reflects level where
  nested path := by
    rw [kind?_eq_some_iff h]
    refine exists_congr fun steps => exists_congr fun d => ?_
    by_cases hnil : d.children = [] <;> simp [hnil]
  atomic path := by
    rw [kind?_eq_some_iff h]
    refine exists_congr fun steps => exists_congr fun d => ?_
    by_cases hnil : d.children = [] <;> simp [hnil]
  undeclared path := by
    rw [Option.eq_none_iff_forall_ne_some]
    constructor
    · rintro hnone ⟨steps, d, hsteps, hpath⟩
      exact hnone _ ((kind?_eq_some_iff h).mpr ⟨steps, d, hsteps, hpath, rfl⟩)
    · intro hnone kind hkind
      obtain ⟨steps, d, hsteps, hpath, -⟩ := (kind?_eq_some_iff h).mp hkind
      exact hnone ⟨steps, d, hsteps, hpath⟩
  topmost := by
    rw [ofDeclarations_eq] at h
    split at h
    · cases h
    · obtain rfl := Except.ok.inj h
      rfl
  children steps d hsteps := by
    have hget := (get?_eq_some_iff h (Expression.fullPath_ne_root hsteps.ne_nil)).mpr
      ⟨steps, d, hsteps, rfl, rfl⟩
    rw [FieldTree.children, hget]
    rfl
  nothing space hroot hnone := by
    rw [FieldTree.children]
    cases hget : tree.index.get? space with
    | none => rfl
    | some names =>
        obtain ⟨steps, d, hsteps, hpath, -⟩ := (get?_eq_some_iff h hroot).mp hget
        exact absurd ⟨steps, d, hsteps, hpath⟩ hnone
  size := by
    rw [ofDeclarations_eq] at h
    split at h
    · cases h
    · obtain rfl := Except.ok.inj h
      simp [FieldTree.size, FieldDeclaration.length_levelSites]

end Built

/-- **The tree of declared fields is a walk over the declarations.** It is built exactly when the
declarations are well formed; otherwise the failure is that of the first declaration in pre-order
that offends; and a tree that is built reflects the declarations. -/
theorem ofDeclarations_reflects (level : List FieldDeclaration) :
    ((∃ tree, ofDeclarations level = .ok tree) ↔ WellFormed level) ∧
      (∀ e, ofDeclarations level = .error e ↔
        (levelSites [] [] level).findSome? Site.offence? = some e) ∧
      ∀ tree, ofDeclarations level = .ok tree → tree.Reflects level := by
  have hwell := FieldDeclaration.forall_offence?_eq_none_iff level [] []
  rw [← List.findSome?_eq_none_iff] at hwell
  refine ⟨?_, fun e => ?_, fun tree => reflects_of_ofDeclarations⟩
  · rw [ofDeclarations_eq]
    cases hfound : (levelSites [] [] level).findSome? Site.offence? with
    | some e =>
        refine ⟨(by rintro ⟨_, ⟨⟩⟩), fun hlevel => ?_⟩
        rw [hwell.mpr ⟨hlevel, by simp⟩] at hfound
        cases hfound
    | none => exact ⟨fun _ => (hwell.mp hfound).1, fun _ => ⟨_, rfl⟩⟩
  · rw [ofDeclarations_eq]
    cases (levelSites [] [] level).findSome? Site.offence? <;> simp

/-- Declarations with a nested field, below which a name of the topmost level occurs again. -/
def placeDeclarations : List FieldDeclaration :=
  [.atomic "name", .nested "address" [.atomic "city", .nested "owner" [.atomic "name"]]]

/-- The declarations are well formed, so there is a tree; it finds the inner name by its path, and a
second declaration of it would be the failure. -/
theorem ofDeclarations_reflects_places :
    WellFormed placeDeclarations ∧
      (∃ tree, ofDeclarations placeDeclarations = .ok tree ∧ tree.Reflects placeDeclarations ∧
        tree.kind? "$.address.owner.name" = some .atomic ∧ tree.size = 5) ∧
      ofDeclarations (placeDeclarations ++ [.nested "address" [.atomic ""]])
        = .error (.duplicate "$.address") := by
  obtain ⟨hbuilt, -, hreflects⟩ := ofDeclarations_reflects placeDeclarations
  refine ⟨hbuilt.mp ⟨_, rfl⟩, ⟨_, rfl, hreflects _ rfl, rfl, rfl⟩, ?_⟩
  exact ((ofDeclarations_reflects _).2.1 _).mpr rfl

end FieldTree

end ResourceQuery
