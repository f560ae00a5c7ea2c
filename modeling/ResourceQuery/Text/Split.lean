/-!
# Cutting a text at a separator

Three cuts cover every format of the library: at each separator, at the first one, and at the
last one. All work on lists of characters and lose nothing: the parts, joined by the separator
again, are the text.

## Main statements

* `splitOn_ne_nil`: there is always at least one part.
* `cutFirst_eq_some`, `cutLast_eq_some`: what a successful cut says about the text.
-/

namespace ResourceQuery.Text

/-- The parts of a text between the separators, one more than there are separators. -/
def splitOn (separator : Char) : List Char → List (List Char)
  | [] => [[]]
  | c :: cs =>
    if c = separator then [] :: splitOn separator cs
    else
      match splitOn separator cs with
      | [] => [[c]]
      | first :: others => (c :: first) :: others

/-- The text before the first separator and the text after it. -/
def cutFirst (separator : Char) : List Char → Option (List Char × List Char)
  | [] => none
  | c :: cs =>
    if c = separator then some ([], cs)
    else (cutFirst separator cs).map fun (before, after) => (c :: before, after)

/-- The text before the last separator and the text after it. -/
def cutLast (separator : Char) : List Char → Option (List Char × List Char)
  | [] => none
  | c :: cs =>
    match cutLast separator cs with
    | some (before, after) => some (c :: before, after)
    | none => if c = separator then some ([], cs) else none

/-- A text that is split has a part. -/
theorem splitOn_ne_nil (separator : Char) (cs : List Char) : splitOn separator cs ≠ [] := by
  cases cs with
  | nil => simp [splitOn]
  | cons c cs =>
    rw [splitOn]
    split
    · simp
    · split <;> simp

/-- A text that is cut at the first separator is its parts, and the first part has no separator. -/
theorem cutFirst_eq_some {separator : Char} {cs before after : List Char}
    (h : cutFirst separator cs = some (before, after)) :
    cs = before ++ separator :: after ∧ separator ∉ before := by
  induction cs generalizing before with
  | nil => simp [cutFirst] at h
  | cons c cs ih =>
    rw [cutFirst] at h
    split at h
    · next hc => simp_all
    · next hc =>
      obtain ⟨⟨b, a⟩, hb, he⟩ := Option.map_eq_some_iff.1 h
      simp only [Prod.mk.injEq] at he
      obtain ⟨rfl, rfl⟩ := he
      obtain ⟨rfl, hn⟩ := ih hb
      exact ⟨rfl, by simp [hn, Ne.symm hc]⟩

/-- A text that cannot be cut has no separator. -/
theorem cutLast_eq_none {separator : Char} {cs : List Char}
    (h : cutLast separator cs = none) : separator ∉ cs := by
  induction cs with
  | nil => simp
  | cons c cs ih =>
    rw [cutLast] at h
    split at h
    · simp at h
    · next hn =>
      split at h
      · simp at h
      · next hc => simp [ih hn, Ne.symm hc]

/-- A text that is cut at the last separator is its parts, and the second part has no separator. -/
theorem cutLast_eq_some {separator : Char} {cs before after : List Char}
    (h : cutLast separator cs = some (before, after)) :
    cs = before ++ separator :: after ∧ separator ∉ after := by
  induction cs generalizing before with
  | nil => simp [cutLast] at h
  | cons c cs ih =>
    rw [cutLast] at h
    split at h
    · next b a hb =>
      simp only [Option.some.injEq, Prod.mk.injEq] at h
      obtain ⟨rfl, rfl⟩ := h
      obtain ⟨rfl, hn⟩ := ih hb
      exact ⟨rfl, hn⟩
    · next hn =>
      split at h
      · next hc =>
        simp only [Option.some.injEq, Prod.mk.injEq] at h
        obtain ⟨rfl, rfl⟩ := h
        exact ⟨by simp [hc], cutLast_eq_none hn⟩
      · simp at h

end ResourceQuery.Text
