import ResourceQuery.Document.Json
import ResourceQuery.Proofs.Json.Reader

/-!
# The documents of JSON values

A value without doubles that is not nested too deep has a document, `Document.ofValue`, which does
not depend on how the value is written. It is the document that its compact text is read as
(`Document.ofJson?_compact`).

A way of reading parts of a document undoes a way of writing values if each thing that is written is
read back: `Document.Undoes`. What is read part by part, namely what may be null, lists, tables and
the members of records, is read back if its parts are.

## Main definitions

* `Json.IsWhole`: all numbers of a value are whole, and within the bounds of whole numbers.
* `Json.depth`: how deep a value is nested.
* `Document.ofValue`: the document of a value.
* `Document.Undoes`: a way of reading undoes a way of writing.

## Main statements

* `Document.ofJson?_compact`: the document of a compact text.
* `Document.Undoes.optional`, `Document.Undoes.list`, `Document.Undoes.table`,
  `Document.Undoes.field`: what is read part by part.
-/

namespace ResourceQuery

namespace Json

/-! ### Values without doubles -/

mutual

/-- All numbers of a value are whole, and within the bounds of whole numbers. -/
def IsWhole : Json → Prop
  | .null | .bool _ | .string _ => True
  | .number (.integer i) => InBounds i
  | .number (.double _) => False
  | .array items => AreWhole items
  | .object members => MembersAreWhole members

/-- All numbers of the items are whole. -/
def AreWhole : List Json → Prop
  | [] => True
  | item :: items => item.IsWhole ∧ AreWhole items

/-- All numbers of the members are whole. -/
def MembersAreWhole : List (String × Json) → Prop
  | [] => True
  | (_, v) :: members => v.IsWhole ∧ MembersAreWhole members

end

/-- A value that may be missing is whole, if it is whole where it is there. -/
theorem isWhole_ofOption {α : Type} {f : α → Json} (h : ∀ a, (f a).IsWhole) (o : Option α) :
    (ofOption f o).IsWhole := by
  cases o with
  | none => trivial
  | some a => exact h a

/-- A count is a whole value. -/
theorem isWhole_ofCount (n : UInt64) : (ofCount n).IsWhole := by
  have hlt := n.toNat_lt
  exact ⟨by omega, by omega⟩

/-- A list is whole, if its items are. -/
theorem isWhole_array_map {α : Type} {f : α → Json} (h : ∀ a, (f a).IsWhole) (as : List α) :
    (Json.array (as.map f)).IsWhole := by
  induction as with
  | nil => trivial
  | cons a as ih => exact ⟨h a, ih⟩

/-- An object is whole, if its members are. -/
theorem isWhole_object_map {α : Type} {f : α → Json} (h : ∀ a, (f a).IsWhole)
    (entries : List (String × α)) :
    (Json.object (entries.map fun (name, a) => (name, f a))).IsWhole := by
  induction entries with
  | nil => trivial
  | cons entry entries ih => exact ⟨h entry.2, ih⟩

/-- A text is a whole value. -/
theorem isWhole_string (s : String) : (Json.string s).IsWhole :=
  trivial

/-- A list of texts is whole. -/
theorem isWhole_ofStrings (texts : List String) : (ofStrings texts).IsWhole :=
  isWhole_array_map isWhole_string texts

end Json

mutual

/-- How deep the arrays and objects of a value are nested. -/
def Json.depth : Json → Nat
  | .array items => 1 + Json.depthOfItems items
  | .object members => 1 + Json.depthOfMembers members
  | _ => 0

/-- The depth of the deepest item. -/
def Json.depthOfItems : List Json → Nat
  | [] => 0
  | item :: items => max item.depth (Json.depthOfItems items)

/-- The depth of the deepest member. -/
def Json.depthOfMembers : List (String × Json) → Nat
  | [] => 0
  | (_, v) :: members => max v.depth (Json.depthOfMembers members)

end

namespace Document

/-! ### The document of a value -/

/-- The part of a document that a number is. -/
def ofNumber (n : Json.Number) : Document :=
  match n.count? with
  | some count => ofCount count
  | none => otherScalar

/-- The named value that an object may be taken for. -/
def nameOfObject? : List (String × Json) → Option String
  | [(name, .null)] => some name
  | _ => none

mutual

/-- The document of a value. -/
def ofValue : Json → Document
  | .null => null
  | .bool _ => otherScalar
  | .number n => ofNumber n
  | .string s => ofText s
  | .array items => .list .exact (ofValues items)
  | .object members => .table (nameOfObject? members) (ofNamedValues members)

/-- The documents of the items of an array. -/
def ofValues : List Json → List Document
  | [] => []
  | item :: items => ofValue item :: ofValues items

/-- The documents of the members of an object. -/
def ofNamedValues : List (String × Json) → List (Document × Document)
  | [] => []
  | (name, v) :: members => (ofText name, ofValue v) :: ofNamedValues members

end

/-- The documents of some items are those of each. -/
theorem ofValues_eq_map (items : List Json) : ofValues items = items.map ofValue := by
  induction items with
  | nil => rfl
  | cons item items ih => rw [ofValues, ih, List.map_cons]

/-! ### The document of a compact text -/

/-- The pieces of a string make up the document of that text. -/
theorem ofPieces_pieces (s : String) : ofPieces (Json.pieces s) = ofText s := by
  rw [ofPieces, Json.text?_pieces]

/-- The numeral of an integer makes up the document of that number. -/
theorem ofNumeral_numeral {i : Int} (h : Json.InBounds i) :
    ofNumeral (Json.numeral i) = ofNumber (.integer i) := by
  rw [ofNumeral, Json.number?_numeral h, ofNumber]
  cases i with
  | ofNat n => rfl
  | negSucc n => rfl

/-- An object holds the same name as the members of its tree. -/
theorem nameOfMembers?_memberTrees {members : List (String × Json)}
    (h : Json.MembersAreWhole members) :
    nameOfMembers? (Json.memberTrees members) = nameOfObject? members := by
  match members, h with
  | [], _ => rfl
  | [(name, v)], h =>
      match v, h.1 with
      | .null, _ => exact Json.text?_pieces name
      | .bool _, _ => rfl
      | .number (.integer _), _ => rfl
      | .string _, _ => rfl
      | .array _, _ => rfl
      | .object _, _ => rfl
  | (_, _) :: (_, _) :: _, _ => simp [Json.memberTrees, nameOfMembers?, nameOfObject?]

mutual

/-- The document of the tree of a value is the document of the value, if it is not nested too
deep. -/
theorem ofTree_tree (v : Json) (h : v.IsWhole) {level : Nat}
    (hdepth : level + v.depth ≤ Json.nestingLimit) : ofTree level v.tree = ofValue v := by
  match v, h with
  | .null, _ => rfl
  | .bool _, _ => rfl
  | .number (.integer i), h => exact ofNumeral_numeral h
  | .string s, _ => exact ofPieces_pieces s
  | .array items, h =>
      rw [Json.depth] at hdepth
      rw [Json.tree, ofTree, if_pos (by omega), ofTrees_trees items h (by omega), ofValue]
  | .object members, h =>
      rw [Json.depth] at hdepth
      rw [Json.tree, ofTree, if_pos (by omega), nameOfMembers?_memberTrees h,
        ofMembers_memberTrees members h (by omega), ofValue]

/-- A list that is not nested too deep has the documents of its items. -/
theorem ofTrees_trees (items : List Json) (h : Json.AreWhole items) {level : Nat}
    (hdepth : level + Json.depthOfItems items ≤ Json.nestingLimit) :
    ofTrees level (Json.trees items) = ofValues items := by
  match items, h with
  | [], _ => rfl
  | item :: items, h =>
      rw [Json.depthOfItems] at hdepth
      rw [Json.trees, ofTrees, ofTree_tree item h.1 (by omega), ofTrees_trees items h.2 (by omega),
        ofValues]

/-- An object that is not nested too deep has the documents of its members. -/
theorem ofMembers_memberTrees (members : List (String × Json)) (h : Json.MembersAreWhole members)
    {level : Nat} (hdepth : level + Json.depthOfMembers members ≤ Json.nestingLimit) :
    ofMembers level (Json.memberTrees members) = ofNamedValues members := by
  match members, h with
  | [], _ => rfl
  | (name, v) :: members, h =>
      rw [Json.depthOfMembers] at hdepth
      rw [Json.memberTrees, ofMembers, ofPieces_pieces, ofTree_tree v h.1 (by omega),
        ofMembers_memberTrees members h.2 (by omega), ofNamedValues]

end

/-- **The document of a compact text is that of the value.** -/
theorem ofJson?_compact {v : Json} (h : v.IsWhole) (hdepth : v.depth ≤ Json.nestingLimit) :
    ofJson? v.compact = some (ofValue v) := by
  rw [ofJson?, Json.Tree.ofText?_compact, Option.map_some, ofTree_tree v h (by omega)]

/-! ### Reading what was written -/

/-- A way of reading parts of a document undoes a way of writing values. -/
def Undoes {α : Type} (read : Document → Option α) (write : α → Json) : Prop :=
  ∀ a, read (ofValue (write a)) = some a

namespace Undoes

variable {α : Type} {read : Document → Option α} {write : α → Json}

/-- A text is read from the document that it has. -/
theorem text : Undoes text? .string :=
  fun _ => rfl

/-- A count is read from the document that it has. -/
theorem count : Undoes count? Json.ofCount := by
  intro n
  rw [Json.ofCount, ofValue, ofNumber, Json.Number.count?_toNat]
  rfl

/-- A named value is read from the document of its name, if it is found by its name. -/
theorem named {ofName? : String → Option α} {name : α → String}
    (h : ∀ a, ofName? (name a) = some a) : Undoes (named? ofName?) fun a => .string (name a) :=
  h

/-- What may be null is read back, if null stands for nothing else. -/
theorem optional (h : Undoes read write) (hnull : ∀ a, write a ≠ .null) :
    Undoes (optional? read) (Json.ofOption write) := by
  rintro (- | a)
  · rfl
  · have hsome : optional? read (ofValue (write a)) = (read (ofValue (write a))).map some := by
      cases hv : write a with
      | null => exact absurd hv (hnull a)
      | number n =>
          unfold ofValue ofNumber
          cases n.count? <;> rfl
      | _ => rfl
    rw [Json.ofOption, hsome, h a]
    rfl

/-- Values are read from the documents that they have, one by one. -/
theorem mapM (h : Undoes read write) (as : List α) :
    (as.map fun a => ofValue (write a)).mapM read = some as := by
  induction as with
  | nil => rfl
  | cons a as ih =>
      rw [List.map_cons, List.mapM_cons, h a, ih]
      rfl

/-- A list is read from its document, if its items are read from theirs. -/
theorem list (h : Undoes read write) : Undoes (list? read) fun as => .array (as.map write) := by
  intro as
  have hitems := h.mapM as
  rw [ofValue, ofValues_eq_map, List.map_map]
  exact hitems

end Undoes

/-! ### Records -/

/-- The members of an object as a record. -/
def ofRecord (members : List (String × Json)) : Entries Document :=
  members.map fun (name, v) => (name, ofValue v)

/-- The members of an object are a record with texts for names. -/
theorem namedMembers?_ofNamedValues (members : List (String × Json)) :
    namedMembers? (ofNamedValues members) = some (ofRecord members) := by
  induction members with
  | nil => rfl
  | cons member members ih =>
      rw [namedMembers?] at ih ⊢
      rw [ofNamedValues, List.mapM_cons, ih]
      rfl

/-- An object with known members, each once, is a record. -/
theorem record?_ofValue {names : List String} {members : List (String × Json)}
    (hnames : Entries.keys members = names) (hnodup : names.Nodup) :
    record? names (ofValue (.object members)) = some (ofRecord members) := by
  have hkeys : Entries.keys (ofRecord members) = names := by
    rw [← hnames, Entries.keys, Entries.keys, ofRecord, List.map_map]
    rfl
  have hknown : (ofRecord members).filter (fun member => member.1 ∈ names) = ofRecord members := by
    refine List.filter_eq_self.mpr fun entry hentry => ?_
    have hmem : entry.1 ∈ names := hkeys ▸ List.mem_map_of_mem hentry
    simpa using hmem
  have hrecord : record? names (ofValue (.object members))
      = (namedMembers? (ofNamedValues members)).bind fun members =>
          let known := members.filter fun member => member.1 ∈ names
          if (Entries.keys known).Nodup then some known else none := rfl
  rw [hrecord, namedMembers?_ofNamedValues, Option.bind_some]
  simp only [hknown, hkeys, hnodup, if_true]

/-- A member of a record is the document of the member of the object. -/
theorem get?_ofRecord (members : List (String × Json)) (name : String) :
    (ofRecord members).get? name = (Entries.get? members name).map ofValue := by
  induction members with
  | nil => rfl
  | cons member members ih =>
      obtain ⟨key, v⟩ := member
      rw [ofRecord, List.map_cons, Entries.get?, Entries.get?]
      split
      · rfl
      · exact ih

namespace Undoes

variable {α : Type} {read : Document → Option α} {write : α → Json}

/-- A table is read from its document, if its values are read from theirs. -/
theorem table (h : Undoes read write) :
    Undoes (table? read) fun entries => .object (entries.map fun (name, a) => (name, write a)) := by
  intro entries
  have htable (members : List (String × Json)) : table? read (ofValue (.object members))
      = (namedMembers? (ofNamedValues members)).bind fun members =>
          members.mapM fun member => (read member.2).map fun v => (member.1, v) := rfl
  rw [htable, namedMembers?_ofNamedValues, Option.bind_some]
  induction entries with
  | nil => rfl
  | cons entry entries ih =>
      obtain ⟨name, a⟩ := entry
      rw [ofRecord] at ih ⊢
      rw [List.map_cons, List.map_cons, List.mapM_cons, ih]
      simp only [h a]
      rfl

/-- A member of a record is read back. -/
theorem field (h : Undoes read write) {members : List (String × Json)} {name : String} {a : α}
    (hmember : Entries.get? members name = some (write a)) (default : α) :
    field? (ofRecord members) name default read = some a := by
  rw [field?, get?_ofRecord, hmember]
  exact h a

/-- So is a member that must not be missing. -/
theorem required (h : Undoes read write) {members : List (String × Json)} {name : String} {a : α}
    (hmember : Entries.get? members name = some (write a)) :
    required? (ofRecord members) name read = some a := by
  rw [required?, get?_ofRecord, hmember]
  exact h a

end Undoes

end Document

end ResourceQuery
