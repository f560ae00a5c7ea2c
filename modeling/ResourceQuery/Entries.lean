/-!
# Records in insertion order

A record is a list of named entries. Writing a name that is there keeps its place and replaces
its value; writing a new one appends it. This is the order in which requests and documents show
their members. A second way of writing keeps the names in increasing order of their code points,
which is also the order of their UTF-8 bytes.

## Main statements

* `get?_put`: after a write, the written name has the new value and every other name its old one.
* `keys_put`: a write keeps the order of the names and adds at most one, at the end.
* `pairwise_keys_putSorted`: the second way of writing keeps the names increasing, which is what
  the type `SortedEntries` relies on.
-/

namespace ResourceQuery

/-- Named values in order. -/
abbrev Entries (α : Type) := List (String × α)

namespace Entries

variable {α : Type}

/-- The value under a name; the first one, should the name repeat. -/
def get? : Entries α → String → Option α
  | [], _ => none
  | (key, v) :: rest, name => if key = name then some v else get? rest name

/-- Whether the name occurs. -/
def contains (entries : Entries α) (name : String) : Bool :=
  (entries.get? name).isSome

/-- Writes a value: in place when the name is there, else at the end. -/
def put : Entries α → String → α → Entries α
  | [], name, v => [(name, v)]
  | (key, old) :: rest, name, v =>
    if key = name then (key, v) :: rest else (key, old) :: put rest name v

/-- The record that a list of writes leaves: each name at its first place with its last value. -/
def ofWrites (writes : List (String × α)) : Entries α :=
  writes.foldl (fun entries (name, v) => entries.put name v) []

/-- Writes a value into a record whose names increase, keeping them so. -/
def putSorted : Entries α → String → α → Entries α
  | [], name, v => [(name, v)]
  | (key, old) :: rest, name, v =>
    if key = name then (key, v) :: rest
    else if name < key then (name, v) :: (key, old) :: rest
    else (key, old) :: putSorted rest name v

/-- The names, in order. -/
def keys (entries : Entries α) : List String :=
  entries.map (·.1)

/-- In no entries nothing is found. -/
@[simp] theorem get?_nil (name : String) : get? ([] : Entries α) name = none := rfl

/-- After a write the name that was written has the new value, and every other name what it had. -/
theorem get?_put (entries : Entries α) (written name : String) (v : α) :
    (entries.put written v).get? name = if written = name then some v else entries.get? name := by
  induction entries with
  | nil => rfl
  | cons entry rest ih =>
    obtain ⟨key, old⟩ := entry
    by_cases hk : key = written
    · by_cases hw : written = name <;> simp [put, get?, hk, hw]
    · by_cases hn : key = name
      · subst hn
        simp [put, get?, hk, Ne.symm hk]
      · simp [put, get?, hk, hn, ih]

/-- A write adds its name at the end, unless the name is there. -/
theorem keys_put (entries : Entries α) (name : String) (v : α) :
    (entries.put name v).keys
      = if name ∈ entries.keys then entries.keys else entries.keys ++ [name] := by
  induction entries with
  | nil => rfl
  | cons entry rest ih =>
    obtain ⟨key, old⟩ := entry
    by_cases hk : key = name
    · simp [put, keys, hk]
    · simp only [keys] at ih
      by_cases hm : name ∈ rest.map (·.1) <;>
        simp [put, keys, hk, Ne.symm hk, ih, hm]

/-- A sorted write adds its name and no other. -/
theorem mem_keys_putSorted {entries : Entries α} {name key : String} {v : α} :
    key ∈ (entries.putSorted name v).keys ↔ key = name ∨ key ∈ entries.keys := by
  induction entries with
  | nil => simp [putSorted, keys]
  | cons entry rest ih =>
    obtain ⟨first, old⟩ := entry
    simp only [keys] at ih
    rw [putSorted]
    split
    · next h => simp [keys, h]
    · split
      · simp [keys]
      · simp only [keys, List.map_cons, List.mem_cons, ih]
        exact or_left_comm

/-- A sorted write keeps names in order. -/
theorem pairwise_keys_putSorted {entries : Entries α} (name : String) (v : α)
    (h : entries.keys.Pairwise (· < ·)) : (entries.putSorted name v).keys.Pairwise (· < ·) := by
  induction entries with
  | nil => simp [putSorted, keys]
  | cons entry rest ih =>
    obtain ⟨first, old⟩ := entry
    have hr := List.pairwise_cons.1 h
    rw [putSorted]
    split
    · exact h
    · next hne =>
      split
      · next hlt =>
        refine List.pairwise_cons.2 ⟨fun key hk => ?_, h⟩
        rcases List.mem_cons.1 hk with rfl | hk
        · exact hlt
        · exact String.lt_trans hlt (hr.1 key hk)
      · next hge =>
        refine List.pairwise_cons.2 ⟨fun key hk => ?_, ih hr.2⟩
        rcases mem_keys_putSorted.1 hk with rfl | hk
        · exact Std.lt_of_le_of_ne (String.not_lt.1 hge) hne
        · exact hr.1 key hk

end Entries

/-- A record whose names increase. -/
structure SortedEntries (α : Type) where
  entries : Entries α
  increasing : entries.keys.Pairwise (· < ·)

namespace SortedEntries

variable {α : Type}

/-- The record without an entry. -/
def empty : SortedEntries α := ⟨[], List.Pairwise.nil⟩

/-- Writes a value under a name. -/
def put (sorted : SortedEntries α) (name : String) (v : α) : SortedEntries α :=
  ⟨sorted.entries.putSorted name v, Entries.pairwise_keys_putSorted name v sorted.increasing⟩

/-- The value under a name. -/
def get? (sorted : SortedEntries α) (name : String) : Option α :=
  sorted.entries.get? name

/-- Whether the name occurs. -/
def contains (sorted : SortedEntries α) (name : String) : Bool :=
  sorted.entries.contains name

/-- The record that a list of writes leaves: each name with its last value. -/
def ofWrites (writes : List (String × α)) : SortedEntries α :=
  writes.foldl (fun sorted (name, v) => sorted.put name v) empty

end SortedEntries

end ResourceQuery
