import Mathlib.Data.List.DropRight
import ResourceQuery.Text.Blank
import ResourceQuery.Text.Split

/-!
# Cutting and trimming undone

The cuts of `ResourceQuery.Text.Split` find the parts of a joined text again, as long as the parts
keep clear of the separator on the side that is searched: all parts for `splitOn`, the text before
the cut for `cutFirst`, the text behind it for `cutLast`. Trimming a text that was trimmed changes
nothing.

## Main statements

* `splitOn_intercalate`, `cutFirst_append`, `cutLast_append`: cutting undoes joining.
* `notMem_of_mem_splitOn`: no part has the separator.
* `trimmed_trimmed`: trimming is idempotent.
* `trim_append_cons`: a character that is not blank parts what is trimmed in front of it and behind.
* `trim_between`: blanks around a text do not change what it is trimmed to.
-/

namespace ResourceQuery.Text

/-! ### Cutting -/

/-- Cutting at each separator is splitting a list at an element. -/
theorem splitOn_eq_list_splitOn (separator : Char) (cs : List Char) :
    splitOn separator cs = cs.splitOn separator := by
  induction cs with
  | nil => rfl
  | cons c cs ih =>
      rw [splitOn, List.splitOn_cons_eq_if_modifyHead, ih]
      by_cases hc : c = separator
      · simp [hc]
      · cases hs : cs.splitOn separator with
        | nil => exact absurd hs (List.splitOn_ne_nil _ _)
        | cons first others => simp [hc]

/-- **Splitting undoes joining**, when no part has the separator. -/
theorem splitOn_intercalate {separator : Char} {parts : List (List Char)} (hne : parts ≠ [])
    (h : ∀ part ∈ parts, separator ∉ part) :
    splitOn separator ([separator].intercalate parts) = parts := by
  rw [splitOn_eq_list_splitOn, List.splitOn_intercalate separator h hne]

/-- The characters of a joined text are the separator and those of the parts. -/
theorem of_mem_intercalate {separator c : Char} {parts : List (List Char)}
    (h : c ∈ [separator].intercalate parts) : c = separator ∨ ∃ part ∈ parts, c ∈ part := by
  induction parts with
  | nil => simp [List.intercalate] at h
  | cons first rest ih =>
      cases rest with
      | nil => exact Or.inr ⟨first, List.mem_cons_self, by simpa [List.intercalate] using h⟩
      | cons second rest =>
          rw [List.intercalate_cons_cons, List.append_assoc, List.mem_append, List.mem_append] at h
          rcases h with h | h | h
          · exact Or.inr ⟨first, List.mem_cons_self, h⟩
          · exact Or.inl (List.mem_singleton.mp h)
          · exact (ih h).imp_right fun ⟨part, hm, hc⟩ => ⟨part, List.mem_cons_of_mem _ hm, hc⟩

/-- Joining undoes splitting. -/
theorem intercalate_splitOn (separator : Char) (cs : List Char) :
    [separator].intercalate (splitOn separator cs) = cs := by
  rw [splitOn_eq_list_splitOn, List.intercalate_splitOn]

/-- No part of a split text has the separator. -/
theorem notMem_of_mem_splitOn {separator : Char} {cs part : List Char}
    (h : part ∈ splitOn separator cs) : separator ∉ part := by
  induction cs generalizing part with
  | nil =>
      obtain rfl : part = [] := by simpa [splitOn] using h
      simp
  | cons c cs ih =>
      rw [splitOn] at h
      split at h
      · rcases List.mem_cons.mp h with rfl | h
        · simp
        · exact ih h
      · next hc =>
          split at h
          · next hnil => exact absurd hnil (splitOn_ne_nil _ _)
          · next first others hsplit =>
              rcases List.mem_cons.mp h with rfl | h
              · have hfirst : separator ∉ first := ih (by simp [hsplit])
                simp [Ne.symm hc, hfirst]
              · exact ih (by simp [hsplit, h])

/-- The first cut of a joined text is at the joint, when the separator is not in front of it. -/
theorem cutFirst_append {separator : Char} {before after : List Char} (h : separator ∉ before) :
    cutFirst separator (before ++ separator :: after) = some (before, after) := by
  induction before with
  | nil => simp [cutFirst]
  | cons c before ih =>
      rw [List.mem_cons, not_or] at h
      simp [cutFirst, Ne.symm h.1, ih h.2]

/-- A text without the separator has no first cut. -/
theorem cutFirst_of_notMem {separator : Char} {cs : List Char} (h : separator ∉ cs) :
    cutFirst separator cs = none := by
  cases hcut : cutFirst separator cs with
  | none => rfl
  | some parts =>
      obtain ⟨before, after⟩ := parts
      exact absurd (by simp [(cutFirst_eq_some hcut).1]) h

/-- A text without the separator has no last cut. -/
theorem cutLast_of_notMem {separator : Char} {cs : List Char} (h : separator ∉ cs) :
    cutLast separator cs = none := by
  cases hcut : cutLast separator cs with
  | none => rfl
  | some parts =>
      obtain ⟨before, after⟩ := parts
      exact absurd (by simp [(cutLast_eq_some hcut).1]) h

/-- The last cut of a joined text is at the joint, when the separator is not behind it. -/
theorem cutLast_append {separator : Char} {before after : List Char} (h : separator ∉ after) :
    cutLast separator (before ++ separator :: after) = some (before, after) := by
  induction before with
  | nil => simp [cutLast, cutLast_of_notMem h]
  | cons c before ih => simp [cutLast, ih]

/-! ### Trimming -/

/-- A text whose last character is not blank has no trailing blanks. -/
theorem trimEnd_eq_self {cs : List Char} (h : ∀ c ∈ cs, isBlank c = false) : trimEnd cs = cs :=
  List.rdropWhile_eq_self_iff.mpr fun hne => by simp [h _ (List.getLast_mem hne)]

/-- A character that is not blank ends the blanks in front of it. -/
theorem trimStart_append_cons {c : Char} (hc : isBlank c = false) (before after : List Char) :
    trimStart (before ++ c :: after) = trimStart before ++ c :: after := by
  induction before with
  | nil => simp [trimStart, hc]
  | cons d before ih =>
      by_cases hd : isBlank d = true
      · simpa [trimStart, hd] using ih
      · simp [trimStart, hd]

/-- A character that is not blank ends the blanks behind it. -/
theorem trimEnd_append_cons {c : Char} (hc : isBlank c = false) (before after : List Char) :
    trimEnd (before ++ c :: after) = before ++ c :: trimEnd after := by
  have hreverse := trimStart_append_cons hc after.reverse before.reverse
  rw [trimStart, trimStart] at hreverse
  rw [trimEnd, trimEnd, List.reverse_append, List.reverse_cons, List.append_assoc,
    List.singleton_append, hreverse]
  simp

/-- **A character that is not blank parts what is trimmed** in front of it and behind. -/
theorem trim_append_cons {c : Char} (hc : isBlank c = false) (before after : List Char) :
    trim (before ++ c :: after) = trimStart before ++ c :: trimEnd after := by
  rw [trim, trimStart_append_cons hc, trimEnd_append_cons hc]

/-- Trimming the end leaves the character at the front, which is not blank. -/
theorem head?_trim (cs : List Char) : (trim cs).head? = (trimStart cs).head? := by
  rw [trim]
  cases h : trimStart cs with
  | nil => rfl
  | cons c rest =>
      have hc : isBlank c = false := by
        have hhead := List.head?_dropWhile_not isBlank cs
        rw [trimStart] at h
        simpa [h] using hhead
      rw [← List.nil_append (c :: rest), trimEnd_append_cons hc]
      rfl

/-- Trimming the front only leaves characters out. -/
theorem trimStart_sublist (cs : List Char) : (trimStart cs).Sublist cs :=
  List.dropWhile_sublist _

/-- Trimming only leaves characters out. -/
theorem trim_sublist (cs : List Char) : (trim cs).Sublist cs :=
  (List.rdropWhile_prefix isBlank (trimStart cs)).sublist.trans (trimStart_sublist cs)

/-- Trimming the front first changes nothing. -/
theorem trim_trimStart (cs : List Char) : trim (trimStart cs) = trim cs :=
  congrArg trimEnd (List.dropWhile_idempotent _ _)

/-- Trimming the end first changes nothing. -/
theorem trim_trimEnd (cs : List Char) : trim (trimEnd cs) = trim cs := by
  by_cases h : ∃ c ∈ cs, isBlank c = false
  · obtain ⟨c, hmem, hc⟩ := h
    obtain ⟨before, after, rfl⟩ := List.append_of_mem hmem
    have hidempotent : trimEnd (trimEnd after) = trimEnd after := List.rdropWhile_idempotent _ _
    rw [trimEnd_append_cons hc, trim_append_cons hc, trim_append_cons hc, hidempotent]
  · have hnil : trimEnd cs = [] :=
      List.rdropWhile_eq_nil_iff.mpr fun c hm => by simpa using fun hc => h ⟨c, hm, hc⟩
    have hall : cs.all isBlank = true :=
      List.all_eq_true.mpr (List.rdropWhile_eq_nil_iff.mp hnil)
    rw [hnil, trim, trim, trimStart_of_all hall]
    rfl

/-- Trimming the end does not bring a leading blank to the front. -/
theorem trimStart_trimEnd_trimStart (cs : List Char) :
    trimStart (trimEnd (trimStart cs)) = trimEnd (trimStart cs) := by
  refine List.dropWhile_eq_self_iff.mpr fun hpos => ?_
  have hstart : trimEnd (trimStart cs) <+: trimStart cs := List.rdropWhile_prefix _ _
  rw [hstart.getElem hpos]
  exact List.dropWhile_get_zero_not _ _ _

/-- Trimming twice is trimming once. -/
theorem trim_trim (cs : List Char) : trim (trim cs) = trim cs := by
  rw [trim, trim, trimStart_trimEnd_trimStart]
  exact List.rdropWhile_idempotent _ _

/-- **Trimming is idempotent.** -/
theorem trimmed_trimmed (s : String) : trimmed (trimmed s) = trimmed s := by
  simp [trimmed, trim_trim]

/-- Blanks in front do not count when the front is trimmed. -/
theorem trimStart_append_of_blank {before : List Char} (h : before.all isBlank = true)
    (cs : List Char) : trimStart (before ++ cs) = trimStart cs :=
  List.dropWhile_append_of_pos (List.all_eq_true.mp h)

/-- Blanks at the end do not count when the end is trimmed. -/
theorem trimEnd_append_of_blank {after : List Char} (h : after.all isBlank = true)
    (cs : List Char) : trimEnd (cs ++ after) = trimEnd cs := by
  have hreverse : ∀ c ∈ after.reverse, isBlank c = true :=
    fun c hc => List.all_eq_true.mp h c (List.mem_reverse.mp hc)
  rw [trimEnd, List.reverse_append, List.dropWhile_append_of_pos hreverse, ← trimEnd]

/-- **Blanks around a text do not change what it is trimmed to.** -/
theorem trim_between {before after : List Char} (hbefore : before.all isBlank = true)
    (hafter : after.all isBlank = true) (cs : List Char) :
    trim (before ++ cs ++ after) = trim cs := by
  calc trim (before ++ cs ++ after)
      = trim (before ++ cs) := by
        rw [← trim_trimEnd, trimEnd_append_of_blank hafter, trim_trimEnd]
    _ = trim cs := by
        rw [← trim_trimStart, trimStart_append_of_blank hbefore, trim_trimStart]

/-- A text is trimmed to nothing exactly when all of it is blank. -/
theorem trim_eq_nil_iff {cs : List Char} : trim cs = [] ↔ cs.all isBlank = true := by
  constructor
  · intro h
    have hstart : ∀ c ∈ trimStart cs, isBlank c = true := List.rdropWhile_eq_nil_iff.mp h
    have hnil : trimStart cs = [] := by
      rw [← List.dropWhile_eq_nil_iff.mpr hstart]
      exact (List.dropWhile_idempotent _ _).symm
    exact List.all_eq_true.mpr (List.dropWhile_eq_nil_iff.mp hnil)
  · intro h
    rw [trim, trimStart_of_all h]
    rfl

/-- A string is trimmed to the empty one exactly when it is blank. -/
theorem trimmed_eq_empty_iff {s : String} : trimmed s = "" ↔ isBlankText s = true := by
  rw [isBlankText, ← trim_eq_nil_iff, trimmed, String.ofList_eq_empty_iff]

/-- A string that is not blank is not empty when it is trimmed. -/
theorem trimmed_ne_empty {s : String} (h : isBlankText s = false) : trimmed s ≠ "" := by
  rw [Ne, trimmed_eq_empty_iff, h]
  decide

end ResourceQuery.Text
