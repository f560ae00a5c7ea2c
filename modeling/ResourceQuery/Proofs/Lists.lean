import Mathlib.Data.List.Forall2
import Mathlib.Data.List.Induction
import Mathlib.Data.List.Nodup

/-!
# Reading back, groups, and first occurrences

Four things that many proofs need of plain functions and lists: what can be read back determines
what was written, one by one and in a list; what holds of everything that is related to something
holds of the second of two related lists, and a function that does not tell related things apart
takes both lists to the same; the groups of a list make up the list; and the first occurrences of
the elements of a list, which `List.eraseDups` keeps, grow by one element at a time.

## Main statements

* `injective_of_read`, `filterMap_of_read`: what can be read back.
* `forall_of_forall₂`, `map_eq_of_forall₂`: the second of two related lists, and their image.
* `flatMap_filter_perm`: the groups of a list.
* `eraseDups_append_singleton`: one more element counts, if it has not occurred before.
* `nodup_eraseDups`, `eraseDups_filter`, `eraseDups_map`: first occurrences, each once, and of
  restricted and changed lists.
-/

namespace ResourceQuery

/-! ### Reading back -/

section ReadBack

variable {α β : Type} {read : β → Option α} {write : α → β}

/-- What can be read back determines what was written. -/
theorem injective_of_read (h : ∀ a, read (write a) = some a) : Function.Injective write := by
  intro a b hab
  have hread := h a
  rw [hab, h b] at hread
  exact (Option.some.inj hread).symm

/-- A list is read back, if its elements are. -/
theorem filterMap_of_read {as : List α} (h : ∀ a ∈ as, read (write a) = some a) :
    (as.map write).filterMap read = as := by
  induction as with
  | nil => rfl
  | cons a as ih =>
      obtain ⟨ha, has⟩ := List.forall_mem_cons.mp h
      rw [List.map_cons, List.filterMap_cons_some ha, ih has]

end ReadBack

/-- What holds of everything that something is related to holds of the second of two related
lists. -/
theorem forall_of_forall₂ {α β : Type} {R : α → β → Prop} {P : β → Prop} {as : List α} {bs : List β}
    (h : List.Forall₂ R as bs) (hR : ∀ a b, R a b → P b) : ∀ b ∈ bs, P b := by
  induction h with
  | nil => exact fun _ hmem => absurd hmem List.not_mem_nil
  | cons hab _ ih => exact List.forall_mem_cons.mpr ⟨hR _ _ hab, ih⟩

/-- Related lists have the same image under a function that does not tell related things apart. -/
theorem map_eq_of_forall₂ {α β : Type} {R : α → α → Prop} {f : α → β} {as bs : List α}
    (h : List.Forall₂ R as bs) (hf : ∀ a b, R a b → f a = f b) : as.map f = bs.map f := by
  induction h with
  | nil => rfl
  | cons hab _ ih => rw [List.map_cons, List.map_cons, hf _ _ hab, ih]

/-! ### Groups -/

/-- The groups of a list by what a function says of its elements make up the list, if every group
is there and once. -/
theorem flatMap_filter_perm {α κ : Type} [DecidableEq κ] (f : α → κ) {ks : List κ}
    (hnodup : ks.Nodup) {as : List α} (h : ∀ a ∈ as, f a ∈ ks) :
    (ks.flatMap fun k => as.filter fun a => f a = k).Perm as := by
  induction ks generalizing as with
  | nil =>
      have hnil : as = [] := List.eq_nil_iff_forall_not_mem.mpr fun a ha => nomatch h a ha
      subst hnil
      exact List.Perm.refl _
  | cons k ks ih =>
      obtain ⟨hfresh, hnodup⟩ := List.nodup_cons.mp hnodup
      -- the groups behind the first one are those of the elements that are not in it
      have hothers : ∀ k' ∈ ks, (as.filter fun a => f a = k')
          = (as.filter fun a => !decide (f a = k)).filter fun a => f a = k' := by
        intro k' hk'
        rw [List.filter_filter]
        refine List.filter_congr fun a _ => ?_
        by_cases heq : f a = k'
        · have hne : k' ≠ k := fun heq => hfresh (heq ▸ hk')
          simp [heq, hne]
        · simp [heq]
      have hmem : ∀ a ∈ as.filter fun a => !decide (f a = k), f a ∈ ks := by
        intro a ha
        obtain ⟨ha, hne⟩ := List.mem_filter.mp ha
        exact (List.mem_cons.mp (h a ha)).resolve_left (by simpa using hne)
      rw [List.flatMap_cons, List.flatMap_congr hothers]
      exact (List.Perm.append_left _ (ih hnodup hmem)).trans (List.filter_append_perm _ as)

/-! ### First occurrences -/

section FirstOccurrences

variable {α β : Type} [BEq α] [LawfulBEq α] [BEq β] [LawfulBEq β]

/-- One more element counts, if it has not occurred before. -/
theorem eraseDups_append_singleton (as : List α) (a : α) :
    (as ++ [a]).eraseDups = if a ∈ as then as.eraseDups else as.eraseDups ++ [a] := by
  rw [List.eraseDups_append]
  split
  · next h => simp [List.removeAll, h]
  · next h => simp [List.removeAll, h, List.eraseDups_cons]

/-- First occurrences are each there once. -/
theorem nodup_eraseDups (as : List α) : as.eraseDups.Nodup := by
  induction as using List.reverseRecOn with
  | nil => simp
  | append_singleton as a ih =>
      rw [eraseDups_append_singleton]
      split
      · exact ih
      · next h => simpa using List.Nodup.concat (mt List.mem_eraseDups.mp h) ih

/-- The first occurrences of the elements that are kept are the kept ones of the first occurrences.
-/
theorem eraseDups_filter (p : α → Bool) (as : List α) :
    (as.filter p).eraseDups = as.eraseDups.filter p := by
  induction as using List.reverseRecOn with
  | nil => simp
  | append_singleton as a ih =>
      by_cases hp : p a = true <;> by_cases ha : a ∈ as <;>
        simp [List.filter_append, eraseDups_append_singleton, hp, ha, ih]

/-- A change that keeps elements apart changes first occurrences one by one. -/
theorem eraseDups_map {f : α → β} (hf : Function.Injective f) (as : List α) :
    (as.map f).eraseDups = as.eraseDups.map f := by
  induction as using List.reverseRecOn with
  | nil => simp
  | append_singleton as a ih =>
      by_cases ha : a ∈ as <;>
        simp [eraseDups_append_singleton, ha, ih, List.mem_map_of_injective hf]

end FirstOccurrences

end ResourceQuery
