import ResourceQuery.Json.Reader
import ResourceQuery.Proofs.Json.Token
import ResourceQuery.Proofs.Lists

/-!
# The trees of what is written

The compact text of a value is read as the structure of the value, with its strings and numbers as
they are written. `Json.Drives` says that a text takes the reader from one state to another, in
front of any rest that does not continue its last word. Texts are put together from the back: in
front of what is left of an array or object stands a value, in front of that a name, a comma or a
bracket.

The structure with its strings and numbers as they are written determines the value, so the compact
text does too.

## Main definitions

* `Json.tree`: the tree of what is written for a value.
* `Json.Drives`: a text takes the reader from one state to another.

## Main statements

* `Json.drives_compact`: a compact text is read as one value.
* `Json.Tree.ofText?_compact`: the tree of a compact text.
* `Json.compact_injective`: a value is determined by its compact text.
-/

namespace ResourceQuery

namespace Json

/-! ### Trees -/

mutual

/-- The tree of what is written for a value. -/
def tree : Json → Tree
  | .null => .null
  | .bool b => .bool b
  | .number n => .number n.numeral
  | .string s => .string (pieces s)
  | .array items => .array (trees items)
  | .object members => .object (memberTrees members)

/-- The trees of the items of an array. -/
def trees : List Json → List Tree
  | [] => []
  | item :: items => item.tree :: trees items

/-- The trees of the members of an object. -/
def memberTrees : List (String × Json) → List (List Piece × Tree)
  | [] => []
  | (key, v) :: members => (pieces key, v.tree) :: memberTrees members

end

/-! ### Texts that drive the reader -/

/-- A text takes the reader from one state to another, in front of any rest that does not continue
its last word. -/
def Drives (text : List Char) (first last : ReadState) : Prop :=
  ∃ tokens, (∀ rest, EndsWord rest →
      tokens? (text ++ rest) = (tokens? rest).map (tokens ++ ·)) ∧
    tokens.foldlM ReadState.step? first = some last

namespace Drives

variable {text more : List Char} {first middle last : ReadState}

/-- No text leaves the state as it is. -/
theorem nil (state : ReadState) : Drives [] state state :=
  ⟨[], fun rest _ => by simp, rfl⟩

/-- A text that is one token. -/
theorem token {token : Token}
    (htoken : ∀ rest, EndsWord rest → tokens? (text ++ rest) = (tokens? rest).map (token :: ·))
    (hstep : first.step? token = some last) : Drives text first last := by
  refine ⟨[token], htoken, ?_⟩
  rw [List.foldlM_cons, hstep]
  rfl

/-- A text that is one token whatever follows it, and more. -/
theorem cons {token : Token}
    (htoken : ∀ rest, tokens? (text ++ rest) = (tokens? rest).map (token :: ·))
    (hstep : first.step? token = some middle) (h : Drives more middle last) :
    Drives (text ++ more) first last := by
  obtain ⟨tokens, htokens, hrun⟩ := h
  refine ⟨token :: tokens, fun rest hrest => ?_, ?_⟩
  · rw [List.append_assoc, htoken, htokens rest hrest, Option.map_map]
    rfl
  · rw [List.foldlM_cons, hstep]
    exact hrun

/-- A punctuation character is a step. -/
theorem punctuation {c : Char} {token : Token} (hc : punctuation? c = some token)
    (hstep : first.step? token = some middle) (h : Drives more middle last) :
    Drives (c :: more) first last := by
  have htoken (rest : List Char) : tokens? ([c] ++ rest) = (tokens? rest).map (token :: ·) :=
    tokens?_punctuation hc rest
  exact cons htoken hstep h

/-- A string that is written is a step with its pieces. -/
theorem string {s : String} (hstep : first.step? (.string (pieces s)) = some middle)
    (h : Drives more middle last) : Drives (Writer.string s ++ more) first last :=
  cons (tokens?_string s) hstep h

/-- Two texts, if the second does not continue the last word of the first. -/
theorem append (h : Drives text first middle) (hmore : Drives more middle last)
    (hword : EndsWord more) : Drives (text ++ more) first last := by
  obtain ⟨tokens, htokens, hrun⟩ := h
  obtain ⟨others, hothers, hrun'⟩ := hmore
  refine ⟨tokens ++ others, fun rest hrest => ?_, ?_⟩
  · rw [List.append_assoc, htokens _ (hword.append hrest), hothers rest hrest, Option.map_map]
    simp only [Function.comp_def, List.append_assoc]
  · rw [List.foldlM_append, hrun]
    exact hrun'

/-- The first item of an array is read as any other. The states differ only at the end of the
array, where no item can begin. -/
theorem arrayStart {v : Tree} {stack stack' : List Frame}
    (h : Drives text (.value (.array [] :: stack)) (.complete v stack')) :
    Drives text (.arrayStart stack) (.complete v stack') := by
  obtain ⟨tokens, htokens, hrun⟩ := h
  refine ⟨tokens, htokens, ?_⟩
  cases tokens with
  | nil => cases hrun
  | cons token tokens =>
      have hstep : ReadState.step? (.arrayStart stack) token
          = ReadState.step? (.value (.array [] :: stack)) token := by
        cases token with
        | arrayEnd => cases hrun
        | _ => rfl
      rw [List.foldlM_cons, hstep]
      exact hrun

end Drives

/-! ### Compact texts -/

/-- The rest of a list ends a word in front of it. -/
theorem endsWord_compactItems (items : List Json) : EndsWord (Writer.compactItems items) := by
  cases items <;> exact endsWord_cons (by decide) _

/-- The rest of an object ends a word in front of it. -/
theorem endsWord_compactMembers (members : List (String × Json)) :
    EndsWord (Writer.compactMembers members) := by
  cases members <;> exact endsWord_cons (by decide) _

mutual

/-- **A compact text is read as one value.** -/
theorem drives_compact (v : Json) (stack : List Frame) :
    Drives (Writer.compact v) (.value stack) (.complete v.tree stack) := by
  match v with
  | .null => exact .token (fun _ => tokens?_null) rfl
  | .bool b => exact .token (fun _ => tokens?_bool b) rfl
  | .number n => exact .token (fun _ => tokens?_number n) rfl
  | .string s => exact .token (fun rest _ => tokens?_string s rest) rfl
  | .array [] => exact .punctuation rfl rfl (.punctuation rfl rfl (.nil _))
  | .array (item :: items) =>
      exact .punctuation rfl rfl <| .arrayStart <|
        (drives_compact item _).append (drives_items items item.tree [] stack)
          (endsWord_compactItems items)
  | .object [] => exact .punctuation rfl rfl (.punctuation rfl rfl (.nil _))
  | .object ((key, v) :: members) =>
      exact .punctuation rfl rfl <| .string rfl <| .punctuation rfl rfl <|
        (drives_compact v _).append (drives_members members v.tree [] (pieces key) stack)
          (endsWord_compactMembers members)

/-- What stands behind an item is read as the other items and the end of the array. -/
theorem drives_items (items : List Json) (last : Tree) (before : List Tree)
    (stack : List Frame) :
    Drives (Writer.compactItems items) (.complete last (.array before :: stack))
      (.complete (.array ((last :: before).reverse ++ trees items)) stack) := by
  match items with
  | [] =>
      rw [trees, List.append_nil]
      exact .punctuation rfl rfl (.nil _)
  | item :: items =>
      have hrest := drives_items items item.tree (last :: before) stack
      rw [List.reverse_cons, List.append_assoc, List.singleton_append] at hrest
      exact .punctuation rfl rfl <|
        (drives_compact item _).append hrest (endsWord_compactItems items)

/-- What stands behind a member is read as the other members and the end of the object. -/
theorem drives_members (members : List (String × Json)) (last : Tree)
    (before : List (List Piece × Tree)) (name : List Piece) (stack : List Frame) :
    Drives (Writer.compactMembers members) (.complete last (.object before name :: stack))
      (.complete (.object (((name, last) :: before).reverse ++ memberTrees members)) stack) := by
  match members with
  | [] =>
      rw [memberTrees, List.append_nil]
      exact .punctuation rfl rfl (.nil _)
  | (key, v) :: members =>
      have hrest := drives_members members v.tree ((name, last) :: before) (pieces key) stack
      rw [List.reverse_cons, List.append_assoc, List.singleton_append] at hrest
      exact .punctuation rfl rfl <| .string rfl <| .punctuation rfl rfl <|
        (drives_compact v _).append hrest (endsWord_compactMembers members)

end

/-- The tree of a compact text is that of the value. -/
theorem Tree.ofText?_compact (v : Json) : Tree.ofText? v.compact = some v.tree := by
  obtain ⟨tokens, htokens, hrun⟩ := drives_compact v []
  have hread : tokens? (Writer.compact v) = some tokens := by
    have hall := htokens [] (by simp [EndsWord])
    rw [List.append_nil, tokens?] at hall
    simpa using hall
  rw [Tree.ofText?, compact, String.toList_ofList, hread, Option.bind_some, Tree.ofTokens?, hrun]

/-! ### Values are determined by their texts -/

/-- Strings with the same pieces are the same. -/
theorem pieces_injective : Function.Injective pieces :=
  injective_of_read text?_pieces

mutual

/-- A value is determined by its tree. -/
theorem eq_of_tree_eq : ∀ {v v' : Json}, v.tree = v'.tree → v = v'
  | .null, .null, _ => rfl
  | .bool _, .bool _, h => by rw [Tree.bool.inj h]
  | .number _, .number _, h => by rw [Number.numeral_injective (Tree.number.inj h)]
  | .string _, .string _, h => by rw [pieces_injective (Tree.string.inj h)]
  | .array _, .array _, h => by rw [eq_of_trees_eq (Tree.array.inj h)]
  | .object _, .object _, h => by rw [eq_of_memberTrees_eq (Tree.object.inj h)]

/-- Lists with the same trees are the same. -/
theorem eq_of_trees_eq : ∀ {items items' : List Json}, trees items = trees items' → items = items'
  | [], [], _ => rfl
  | _ :: _, _ :: _, h => by
      obtain ⟨hitem, hitems⟩ := List.cons.inj h
      rw [eq_of_tree_eq hitem, eq_of_trees_eq hitems]

/-- Objects with the same trees of members are the same. -/
theorem eq_of_memberTrees_eq : ∀ {members members' : List (String × Json)},
    memberTrees members = memberTrees members' → members = members'
  | [], [], _ => rfl
  | (_, _) :: _, (_, _) :: _, h => by
      obtain ⟨hmember, hmembers⟩ := List.cons.inj h
      obtain ⟨hname, hvalue⟩ := Prod.mk.inj hmember
      rw [pieces_injective hname, eq_of_tree_eq hvalue, eq_of_memberTrees_eq hmembers]

end

/-- **A value is determined by its compact text.** -/
theorem compact_injective : Function.Injective compact := by
  intro v v' h
  have htree := Tree.ofText?_compact v
  rw [h, Tree.ofText?_compact] at htree
  exact (eq_of_tree_eq (Option.some.inj htree)).symm

end Json

end ResourceQuery
