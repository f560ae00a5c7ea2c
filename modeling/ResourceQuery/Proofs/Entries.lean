import Mathlib.Data.List.Nodup
import ResourceQuery.Entries

/-!
# Records, looked up and written

What the two ways of writing a record do to its entries. A name that does not occur is written at
the end, and from then on it is found and replaced there, so a record that is only written under new
names and the last one grows at its end. A record whose names increase is what its own entries
leave, when they are written one after the other.

## Main statements

* `mem_of_get?`: a value that is found is that of an entry.
* `get?_putSorted`, `get?_map`, `get?_filterMap`, `get?_append`: what is found in records that were
  written to or made from others.
* `get?_of_mem`: when no name occurs twice, every entry is found.
* `put_of_notMem`, `put_append_last`: writing a new name, and the last one.
* `get?_renamed_new`, `get?_without`: what is found when a name is changed, or names are left out.
* `SortedEntries.ofWrites_entries`: writing the entries of a sorted record again.
* `SortedEntries.find?_eq_some_iff`, `SortedEntries.get?_foldl_put`: the first entry of a sorted
  record with a property, and what writes leave under a name.
-/

namespace ResourceQuery

namespace Entries

variable {α : Type} {entries : Entries α} {name : String}

/-- A value that is found under a name is an entry. -/
theorem mem_of_get? {v : α} (h : entries.get? name = some v) : (name, v) ∈ entries := by
  induction entries with
  | nil => simp at h
  | cons entry rest ih =>
      obtain ⟨key, old⟩ := entry
      rw [get?] at h
      split at h
      · next hk =>
          obtain rfl := Option.some.inj h
          simp [hk]
      · exact List.mem_cons_of_mem _ (ih h)

/-- The entries after a sorted write are old ones and the written one. -/
theorem mem_putSorted {v : α} {entry : String × α} (h : entry ∈ entries.putSorted name v) :
    entry = (name, v) ∨ entry ∈ entries := by
  induction entries with
  | nil => exact Or.inl (by simpa [putSorted] using h)
  | cons first rest ih =>
      obtain ⟨key, old⟩ := first
      rw [putSorted] at h
      split at h
      · next hk =>
          rcases List.mem_cons.mp h with rfl | h
          · exact Or.inl (by rw [hk])
          · exact Or.inr (List.mem_cons_of_mem _ h)
      · split at h
        · exact List.mem_cons.mp h
        · rcases List.mem_cons.mp h with rfl | h
          · exact Or.inr List.mem_cons_self
          · exact (ih h).imp_right (List.mem_cons_of_mem _)

/-! ### Looking up -/

/-- After a sorted write the name that was written has the new value, and every other name what it
had. -/
theorem get?_putSorted (entries : Entries α) (written name : String) (v : α) :
    (entries.putSorted written v).get? name
      = if written = name then some v else entries.get? name := by
  induction entries with
  | nil => rfl
  | cons entry rest ih =>
      obtain ⟨key, old⟩ := entry
      rw [putSorted]
      split
      · next hkey =>
          subst hkey
          by_cases h : key = name <;> simp [get?, h]
      · split
        · rfl
        · next hkey _ =>
            by_cases h : key = name
            · have hne : written ≠ name := fun hw => hkey (h.trans hw.symm)
              simp [get?, h, hne]
            · simp [get?, h, ih]

/-- Looking a name up among changed values. -/
theorem get?_map {β : Type} (f : α → β) (entries : Entries α) (name : String) :
    get? (entries.map fun (key, v) => (key, f v)) name = (entries.get? name).map f := by
  induction entries with
  | nil => rfl
  | cons entry rest ih =>
      obtain ⟨key, v⟩ := entry
      by_cases h : key = name <;> simp [get?, h, ih]

/-- Looking a name up in a record of those things that have a value. -/
theorem get?_filterMap {ι : Type} [DecidableEq ι] {nameOf : ι → String}
    (hname : Function.Injective nameOf) (valueOf : ι → Option α) (is : List ι) (i : ι) :
    get? (is.filterMap fun i => (valueOf i).map fun v => (nameOf i, v)) (nameOf i)
      = if i ∈ is then valueOf i else none := by
  induction is with
  | nil => rfl
  | cons first rest ih =>
      rw [List.filterMap_cons]
      by_cases h : first = i
      · subst h
        cases hvalue : valueOf first with
        | none => simp [ih, hvalue]
        | some v => simp [get?]
      · have hne : nameOf first ≠ nameOf i := fun heq => h (hname heq)
        cases valueOf first with
        | none => simp [ih, Ne.symm h]
        | some v => simp [get?, hne, ih, Ne.symm h]

/-- What is found in entries with more behind them is found in the first, or else in the others. -/
theorem get?_append (entries more : Entries α) (name : String) :
    get? (entries ++ more) name = (entries.get? name).or (more.get? name) := by
  induction entries with
  | nil => rfl
  | cons entry rest ih =>
      obtain ⟨key, v⟩ := entry
      by_cases h : key = name <;> simp [get?, h, ih]

/-- A name has a value exactly when it occurs. -/
theorem isSome_get?_iff : (entries.get? name).isSome = true ↔ name ∈ entries.keys := by
  induction entries with
  | nil => simp [keys]
  | cons entry rest ih =>
      obtain ⟨key, v⟩ := entry
      simp only [keys] at ih
      by_cases h : key = name
      · simp [get?, keys, h]
      · simp [get?, keys, h, Ne.symm h, ih]

/-- When no name occurs twice, every entry is found. -/
theorem get?_of_mem (hnodup : entries.keys.Nodup) {v : α} (hm : (name, v) ∈ entries) :
    entries.get? name = some v := by
  induction entries with
  | nil => cases hm
  | cons entry rest ih =>
      obtain ⟨key, first⟩ := entry
      obtain ⟨hfresh, hrest⟩ := List.nodup_cons.mp hnodup
      rcases List.mem_cons.mp hm with heq | hm
      · obtain ⟨rfl, rfl⟩ := Prod.mk.inj heq
        exact if_pos rfl
      · have hne : key ≠ name := fun heq => hfresh (heq ▸ List.mem_map.mpr ⟨_, hm, rfl⟩)
        rw [get?, if_neg hne, ih hrest hm]

/-! ### Other names, and fewer -/

/-- The entries with another name for one of the names. -/
def renamed (entries : Entries α) (old new : String) : Entries α :=
  entries.map fun (key, v) => (if key = old then new else key, v)

/-- All other names find what they found. -/
theorem get?_renamed_of_ne (entries : Entries α) {old new : String} (hold : name ≠ old)
    (hnew : name ≠ new) : (entries.renamed old new).get? name = entries.get? name := by
  induction entries with
  | nil => rfl
  | cons entry rest ih =>
      obtain ⟨key, v⟩ := entry
      rw [renamed, List.map_cons, get?, get?]
      by_cases hkey : key = old
      · subst hkey
        rw [if_pos rfl, if_neg (Ne.symm hnew), if_neg (Ne.symm hold)]
        exact ih
      · rw [if_neg hkey]
        exact congrArg _ ih

/-- Under the new name there is what was under the old one. -/
theorem get?_renamed_new {old new : String} (h : new ∉ entries.keys) :
    (entries.renamed old new).get? new = entries.get? old := by
  induction entries with
  | nil => rfl
  | cons entry rest ih =>
      obtain ⟨key, v⟩ := entry
      rw [keys, List.map_cons, List.mem_cons, not_or] at h
      rw [renamed, List.map_cons, get?, get?]
      by_cases hkey : key = old
      · simp [hkey]
      · rw [if_neg hkey, if_neg (Ne.symm h.1), if_neg hkey]
        exact ih h.2

/-- Under the old name there is nothing any more. -/
theorem get?_renamed_old (entries : Entries α) {old new : String} (h : old ≠ new) :
    (entries.renamed old new).get? old = none := by
  induction entries with
  | nil => rfl
  | cons entry rest ih =>
      obtain ⟨key, v⟩ := entry
      rw [renamed, List.map_cons, get?]
      by_cases hkey : key = old
      · rw [if_pos hkey, if_neg (Ne.symm h)]
        exact ih
      · rw [if_neg hkey, if_neg hkey]
        exact ih

/-- The entries but for those under some names. -/
def without (entries : Entries α) (names : List String) : Entries α :=
  entries.filter fun (key, _) => key ∉ names

/-- A name that is left out finds nothing. All other names find what they found. -/
theorem get?_without (entries : Entries α) (names : List String) (name : String) :
    (entries.without names).get? name = if name ∈ names then none else entries.get? name := by
  induction entries with
  | nil => simp [without]
  | cons entry rest ih =>
      obtain ⟨key, v⟩ := entry
      rw [without] at ih ⊢
      by_cases hout : key ∈ names
      · rw [List.filter_cons_of_neg (by simpa using hout), ih, get?]
        by_cases hkey : key = name
        · rw [if_pos (hkey ▸ hout), if_pos (hkey ▸ hout)]
        · rw [if_neg hkey]
      · rw [List.filter_cons_of_pos (by simpa using hout), get?, get?, ih]
        by_cases hkey : key = name
        · rw [if_pos hkey, if_pos hkey, if_neg (hkey ▸ hout)]
        · rw [if_neg hkey, if_neg hkey]

/-! ### Names that occur -/

/-- The entries after a write are old ones and the written one. -/
theorem mem_put {v : α} {entry : String × α} (h : entry ∈ entries.put name v) :
    entry = (name, v) ∨ entry ∈ entries := by
  induction entries with
  | nil => exact Or.inl (by simpa [put] using h)
  | cons first rest ih =>
      obtain ⟨key, old⟩ := first
      rw [put] at h
      split at h
      · next hk =>
          rcases List.mem_cons.mp h with rfl | h
          · exact Or.inl (by rw [hk])
          · exact Or.inr (List.mem_cons_of_mem _ h)
      · rcases List.mem_cons.mp h with rfl | h
        · exact Or.inr List.mem_cons_self
        · exact (ih h).imp_right (List.mem_cons_of_mem _)

/-- There is an entry after a write. -/
theorem put_ne_nil (entries : Entries α) (name : String) (v : α) : entries.put name v ≠ [] := by
  cases entries with
  | nil => simp [put]
  | cons entry rest =>
      rw [put]
      split <;> simp

/-- The names after a write are old ones and the written one. -/
theorem mem_keys_put {v : α} {key : String} (h : key ∈ (entries.put name v).keys) :
    key = name ∨ key ∈ entries.keys := by
  obtain ⟨entry, hentry, rfl⟩ := List.mem_map.mp h
  exact (mem_put hentry).imp (congrArg Prod.fst) fun hm => List.mem_map.mpr ⟨entry, hm, rfl⟩

/-- A write keeps the names distinct. -/
theorem nodup_keys_put (h : entries.keys.Nodup) (name : String) (v : α) :
    (entries.put name v).keys.Nodup := by
  rw [keys_put]
  split
  · exact h
  · next hfresh => simpa using h.concat hfresh

/-- A name that occurs is written where it occurs, whatever stands behind. -/
theorem put_append_of_mem (h : name ∈ entries.keys) (more : Entries α) (v : α) :
    put (entries ++ more) name v = entries.put name v ++ more := by
  induction entries with
  | nil => cases h
  | cons entry rest ih =>
      obtain ⟨key, old⟩ := entry
      rw [List.cons_append, put, put]
      split
      · rfl
      · next hne =>
          have hrest : name ∈ keys rest := (List.mem_cons.mp h).resolve_left (Ne.symm hne)
          rw [ih hrest, List.cons_append]

/-- Of two writes under one name the second counts. -/
theorem put_put (entries : Entries α) (name : String) (v w : α) :
    (entries.put name v).put name w = entries.put name w := by
  induction entries with
  | nil => simp [put]
  | cons entry rest ih =>
      obtain ⟨key, old⟩ := entry
      by_cases h : key = name <;> simp [put, h, ih]

/-- Writing the value that is there changes nothing. -/
theorem put_of_get? {v : α} (h : entries.get? name = some v) : entries.put name v = entries := by
  induction entries with
  | nil => cases h
  | cons entry rest ih =>
      obtain ⟨key, old⟩ := entry
      rw [get?] at h
      rw [put]
      split at h
      · next hkey => rw [if_pos hkey, Option.some.inj h]
      · next hkey => rw [if_neg hkey, ih h]

/-! ### Names that do not occur -/

/-- A name that does not occur has no value. -/
theorem get?_of_notMem (h : name ∉ entries.keys) : entries.get? name = none := by
  induction entries with
  | nil => rfl
  | cons entry rest ih =>
      obtain ⟨key, old⟩ := entry
      rw [keys, List.map_cons, List.mem_cons, not_or] at h
      exact (if_neg (Ne.symm h.1)).trans (ih h.2)

/-- A new name is written at the end. -/
theorem put_of_notMem (h : name ∉ entries.keys) (v : α) :
    entries.put name v = entries ++ [(name, v)] := by
  induction entries with
  | nil => rfl
  | cons entry rest ih =>
      obtain ⟨key, old⟩ := entry
      rw [keys, List.map_cons, List.mem_cons, not_or] at h
      rw [put, if_neg (Ne.symm h.1), ih h.2]
      rfl

/-- The value of the last name. -/
theorem get?_append_last (h : name ∉ entries.keys) (v : α) :
    get? (entries ++ [(name, v)]) name = some v := by
  rw [← put_of_notMem h, get?_put, if_pos rfl]

/-- The value of the last name is replaced where it is. -/
theorem put_append_last (h : name ∉ entries.keys) (old v : α) :
    put (entries ++ [(name, old)]) name v = entries ++ [(name, v)] := by
  induction entries with
  | nil => simp [put]
  | cons entry rest ih =>
      obtain ⟨key, first⟩ := entry
      rw [keys, List.map_cons, List.mem_cons, not_or] at h
      rw [List.cons_append, put, if_neg (Ne.symm h.1), ih h.2]
      rfl

/-- The record that writes under new names leave, behind the entries that are there. -/
theorem foldl_put_of_nodup {writes : List (String × α)} (h : keys (entries ++ writes) |>.Nodup) :
    writes.foldl (fun entries (name, v) => entries.put name v) entries = entries ++ writes := by
  induction writes generalizing entries with
  | nil => simp
  | cons write writes ih =>
      obtain ⟨name, v⟩ := write
      have hfresh : name ∉ entries.keys := by
        rw [keys, List.map_append, List.nodup_append] at h
        exact fun hmem => h.2.2 _ hmem _ List.mem_cons_self rfl
      have hsplit : entries ++ (name, v) :: writes = entries.put name v ++ writes := by
        rw [put_of_notMem hfresh, List.append_assoc, List.singleton_append]
      rw [List.foldl_cons, hsplit]
      exact ih (hsplit ▸ h)

/-- Writes under distinct names leave themselves. -/
theorem ofWrites_of_nodup {writes : List (String × α)} (h : (keys writes).Nodup) :
    ofWrites writes = writes :=
  foldl_put_of_nodup (by simpa using h)

/-! ### Writing in order -/

/-- A name behind all others is written at the end. -/
theorem putSorted_of_lt (h : ∀ key ∈ entries.keys, key < name) (v : α) :
    entries.putSorted name v = entries ++ [(name, v)] := by
  induction entries with
  | nil => rfl
  | cons entry rest ih =>
      obtain ⟨key, old⟩ := entry
      rw [keys, List.map_cons, List.forall_mem_cons] at h
      rw [putSorted, if_neg (String.ne_of_lt h.1), if_neg (String.lt_asymm h.1), ih h.2]
      rfl

end Entries

namespace SortedEntries

variable {α : Type}

/-- Entries whose names increase, all behind those that are there, are written at the end. -/
theorem entries_foldl_put {more : Entries α} (sorted : SortedEntries α)
    (h : (sorted.entries ++ more).keys.Pairwise (· < ·)) :
    (more.foldl (fun sorted (name, v) => sorted.put name v) sorted).entries
      = sorted.entries ++ more := by
  induction more generalizing sorted with
  | nil => simp
  | cons entry more ih =>
      obtain ⟨name, v⟩ := entry
      have hbehind : ∀ key ∈ sorted.entries.keys, key < name := by
        rw [Entries.keys, List.map_append, List.pairwise_append] at h
        exact fun key hkey => h.2.2 key hkey name List.mem_cons_self
      have hput : (sorted.put name v).entries = sorted.entries ++ [(name, v)] :=
        Entries.putSorted_of_lt hbehind v
      have hsplit : sorted.entries ++ (name, v) :: more = (sorted.put name v).entries ++ more := by
        rw [hput, List.append_assoc, List.singleton_append]
      rw [List.foldl_cons, hsplit]
      exact ih _ (hsplit ▸ h)

/-- A sorted record is what its entries leave. -/
theorem ofWrites_entries (sorted : SortedEntries α) : ofWrites sorted.entries = sorted := by
  have hentries : (ofWrites sorted.entries).entries = sorted.entries :=
    entries_foldl_put empty sorted.increasing
  obtain ⟨entries, increasing⟩ := sorted
  generalize ofWrites entries = written at hentries
  obtain ⟨entries', increasing'⟩ := written
  obtain rfl : entries' = entries := hentries
  rfl

/-! ### Looking up in order -/

/-- Sorted entries have every name once. -/
theorem nodup_keys (sorted : SortedEntries α) : sorted.entries.keys.Nodup :=
  sorted.increasing.imp String.ne_of_lt

/-- The entries of sorted entries are what is found in them. -/
theorem mem_entries_iff {sorted : SortedEntries α} {name : String} {v : α} :
    (name, v) ∈ sorted.entries ↔ sorted.get? name = some v :=
  ⟨Entries.get?_of_mem sorted.nodup_keys, Entries.mem_of_get?⟩

/-- The first entry with a property is the one whose name is before those of all others. -/
theorem find?_eq_some_iff {sorted : SortedEntries α} {p : α → Bool} {name : String} {v : α} :
    sorted.entries.find? (fun entry => p entry.2) = some (name, v) ↔
      sorted.get? name = some v ∧ p v = true ∧
        ∀ other w, sorted.get? other = some w → p w = true → other ≠ name → name < other := by
  rw [List.find?_eq_some_iff_append]
  have hincreasing := sorted.increasing
  constructor
  · rintro ⟨hp, before, behind, hsplit, hbefore⟩
    rw [hsplit, Entries.keys, List.map_append, List.map_cons, List.pairwise_append,
      List.pairwise_cons] at hincreasing
    refine ⟨mem_entries_iff.mp (by simp [hsplit]), hp, fun other w hother hw hne => ?_⟩
    -- another entry with the property is not before the first one
    have hm := mem_entries_iff.mpr hother
    rw [hsplit, List.mem_append, List.mem_cons] at hm
    rcases hm with hm | heq | hm
    · simpa [hw] using hbefore _ hm
    · exact absurd (congrArg Prod.fst heq) hne
    · exact hincreasing.2.1.1 _ (List.mem_map.mpr ⟨_, hm, rfl⟩)
  · rintro ⟨hget, hp, hleast⟩
    obtain ⟨before, behind, hsplit⟩ := List.append_of_mem (mem_entries_iff.mpr hget)
    refine ⟨hp, before, behind, hsplit, fun entry hm => ?_⟩
    obtain ⟨other, w⟩ := entry
    rw [hsplit, Entries.keys, List.map_append, List.map_cons, List.pairwise_append] at hincreasing
    have hlt : other < name :=
      hincreasing.2.2 _ (List.mem_map.mpr ⟨_, hm, rfl⟩) _ List.mem_cons_self
    cases hw : p w with
    | false => simp
    | true =>
        have hother : sorted.get? other = some w := mem_entries_iff.mp (by simp [hsplit, hm])
        exact absurd (hleast other w hother hw (String.ne_of_lt hlt)) (String.lt_asymm hlt)

/-- Writes that agree on a name leave their value under it, if there are any. -/
theorem get?_foldl_put {writes : List (String × α)} {name : String} {v : α}
    (h : ∀ w, (name, w) ∈ writes → w = v) (sorted : SortedEntries α) :
    (writes.foldl (fun sorted (name, v) => sorted.put name v) sorted).get? name
      = if name ∈ Entries.keys writes then some v else sorted.get? name := by
  induction writes generalizing sorted with
  | nil => rfl
  | cons write rest ih =>
      obtain ⟨key, w⟩ := write
      rw [List.foldl_cons, ih (fun w hm => h w (List.mem_cons_of_mem _ hm))]
      have hput : (sorted.put key w).get? name = if key = name then some w else sorted.get? name :=
        Entries.get?_putSorted _ _ _ _
      have hmem : name ∈ Entries.keys ((key, w) :: rest) ↔ name = key ∨ name ∈ Entries.keys rest :=
        List.mem_cons
      rw [hput]
      by_cases hm : name ∈ Entries.keys rest
      · rw [if_pos hm, if_pos (hmem.mpr (Or.inr hm))]
      · by_cases hkey : key = name
        · rw [if_neg hm, if_pos hkey, if_pos (hmem.mpr (Or.inl hkey.symm)),
            h w (hkey ▸ List.mem_cons_self)]
        · rw [if_neg hm, if_neg hkey, if_neg (mt hmem.mp (not_or.mpr ⟨Ne.symm hkey, hm⟩))]

end SortedEntries

end ResourceQuery
