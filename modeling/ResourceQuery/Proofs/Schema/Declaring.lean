import ResourceQuery.Schema.FieldTree

/-!
# Declaring a level

Fields are declared level by level: a name, then the level below it, then the names beside it. Every
statement about a whole tree follows this order, by one principle of induction and one equation, and
what is preserved by each new name is preserved by a level (`FieldTree.declareAll_run`).

## Main statements

* `FieldDeclaration.levelInduction`: induction along declarations.
* `FieldTree.declareAll_cons`: the first declaration of a level and the others.
* `FieldTree.declareAll_run`: what new names preserve.
-/

namespace ResourceQuery

namespace FieldDeclaration

/-- The declarations below a field. -/
def children : FieldDeclaration → List FieldDeclaration
  | .atomic _ => []
  | .nested _ children => children

/-- Induction along declarations: on the level below the first one, and on the others. -/
@[elab_as_elim]
theorem levelInduction {P : List FieldDeclaration → Prop} (nil : P [])
    (cons : ∀ d rest, P d.children → P rest → P (d :: rest)) : ∀ level, P level
  | [] => nil
  | .atomic name :: rest => cons (.atomic name) rest nil (levelInduction nil cons rest)
  | .nested name children :: rest =>
    cons (.nested name children) rest (levelInduction nil cons children)
      (levelInduction nil cons rest)

end FieldDeclaration

namespace FieldTree

/-- Declaring a name checks it and adds it. -/
theorem declareName_eq_ok {tree tree' : FieldTree} {space name : String}
    (h : tree.declareName space name = .ok tree') :
    isFieldName name = true ∧ tree' = tree.add space name := by
  rw [declareName] at h
  split at h
  · cases h
  · next hn =>
      split at h
      · cases h
      · exact ⟨by simpa using hn, (Except.ok.inj h).symm⟩

/-- Declaring a field is declaring its name, then the fields below it, then the others. -/
theorem declareAll_cons (tree : FieldTree) (space : String) (d : FieldDeclaration)
    (rest : List FieldDeclaration) :
    tree.declareAll space (d :: rest) =
      match tree.declareName space d.name with
      | .error e => .error e
      | .ok added =>
        match added.declareAll (joinPath space d.name) d.children with
        | .error e => .error e
        | .ok below => below.declareAll space rest := by
  cases d with
  | atomic name =>
      rw [declareAll, declare, FieldDeclaration.name]
      cases tree.declareName space name with
      | error e => rfl
      | ok added => rfl
  | nested name children =>
      rw [declareAll, declare, FieldDeclaration.name, FieldDeclaration.children]
      cases tree.declareName space name with
      | error e => rfl
      | ok added =>
          dsimp only
          cases added.declareAll (joinPath space name) children with
          | error e => rfl
          | ok below => rfl

/-- **What new names preserve, a level preserves.** `Open` says where names can be declared: below
every new name, and still where it was. -/
theorem declareAll_run (Open : FieldTree → String → Prop) (R : FieldTree → FieldTree → Prop)
    (refl : ∀ tree, R tree tree)
    (trans : ∀ {tree tree' tree''}, R tree tree' → R tree' tree'' → R tree tree'')
    (step : ∀ {tree tree' space name}, Open tree space → tree.declareName space name = .ok tree' →
      R tree tree' ∧ Open tree' (joinPath space name))
    (still : ∀ {tree tree' space}, Open tree space → R tree tree' → Open tree' space)
    (level : List FieldDeclaration) :
    ∀ {tree tree' : FieldTree} {space : String}, Open tree space →
      tree.declareAll space level = .ok tree' → R tree tree' := by
  induction level using FieldDeclaration.levelInduction with
  | nil =>
      intro tree tree' space _ h
      rw [declareAll] at h
      obtain rfl := Except.ok.inj h
      exact refl tree
  | cons d rest ihbelow ihrest =>
      intro tree tree' space hopen h
      rw [declareAll_cons] at h
      split at h
      · cases h
      · next added hname =>
          obtain ⟨hadded, hopenBelow⟩ := step hopen hname
          split at h
          · cases h
          · next below hbelow =>
              have hfirst : R tree below := trans hadded (ihbelow hopenBelow hbelow)
              exact trans hfirst (ihrest (still hopen hfirst) h)

end FieldTree

end ResourceQuery
