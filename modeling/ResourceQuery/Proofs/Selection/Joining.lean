import ResourceQuery.Proofs.Selection.Expression
import ResourceQuery.Sample
import ResourceQuery.Selection.Reading

/-!
# Lists of expressions and their joined text

A client may ask for fields by a list of expressions, or by one expression in which they stand
between commas. Both ask for the same. The reason is that a comma outside of groups brings the
reader back to where it began: no group is open, no item has begun, no group has just been closed.
What is left of the text in front of it are the paths found so far and the position, and the reader
looks at neither.

`State.behind` is a state that has those in front of it. One character is read behind them as it is
without them (`State.read_behind`), so whole texts are (`State.steps_behind`). What differs is the
position in the message about a fault, which `SelectionError.moved` moves.

## Main statements

* `Expression.paths_append_comma`: the paths, or the fault, of an expression behind another one.
* `Selection.read_joined`: a list of expressions and their joined text select the same.
-/

namespace ResourceQuery

/-- The fault when the text with it stands this many bytes further on. -/
def SelectionError.moved (n : Nat) : SelectionError → SelectionError
  | .emptySegment item => .emptySegment item
  | .groupWithoutName position => .groupWithoutName (position + n)
  | .unexpectedEnd position => .unexpectedEnd (position + n)
  | .missingComma position => .missingComma (position + n)
  | .unclosedGroup => .unclosedGroup

namespace Expression

/-- An outcome when the text that it is about stands this many bytes further on. -/
def moved {α β : Type} (n : Nat) (f : α → β) :
    Except SelectionError α → Except SelectionError β
  | .ok a => .ok (f a)
  | .error e => .error (e.moved n)

namespace State

/-- The state with earlier paths and bytes in front of what it has read. -/
def behind (earlier : List Path) (n : Nat) (state : State) : State :=
  { state with paths := state.paths ++ earlier, position := state.position + n }

variable {state : State} {earlier : List Path} {n : Nat}

/-- What has been read before does not change the path that stands pending. -/
theorem path?_behind : (state.behind earlier n).path? = state.path? :=
  rfl

/-- What has been read before does not change the pending characters. -/
theorem item_behind : (state.behind earlier n).item = state.item :=
  rfl

/-- What has been read before does not change whether a group has just been closed. -/
theorem closed_behind : (state.behind earlier n).closed = state.closed :=
  rfl

/-- An item is at fault wherever it stands. -/
theorem moved_of_path? {e : SelectionError} (h : state.path? = .error e) : e.moved n = e := by
  rw [path?, segments?] at h
  dsimp only at h
  repeat' split at h
  all_goals cases h
  all_goals rfl

/-- What has been read before stays when the pending path is taken up. -/
theorem flush_behind :
    (state.behind earlier n).flush = moved n (behind earlier n) state.flush := by
  rw [flush, flush, path?_behind]
  cases h : state.path? with
  | error e => simp [moved, Except.map, moved_of_path? h]
  | ok found => simp [moved, behind, Except.map]

/-- The reader looks neither at the paths that it has found nor at its position. -/
theorem read_behind (c : Char) :
    (state.behind earlier n).read c = moved n (behind earlier n) (state.read c) := by
  unfold read
  rw [flush_behind, path?_behind, item_behind, closed_behind]
  split
  · cases state.flush <;> rfl
  split
  · cases h : state.path? with
    | error e => simp [moved, moved_of_path? h]
    | ok found => cases found <;> rfl
  split
  · cases state.flush with
    | error e => rfl
    | ok flushed =>
        obtain ⟨paths, groups, item, closed, position⟩ := flushed
        cases groups <;> rfl
  split
  · rfl
  split
  · rfl
  · rfl

/-- **The step.** -/
theorem step_behind (c : Char) :
    (state.behind earlier n).step c = moved n (behind earlier n) (state.step c) := by
  rw [step, step, read_behind]
  cases state.read c with
  | error e => rfl
  | ok next => simp [moved, behind, Except.map, Nat.add_right_comm]

/-- **The run.** A text is read behind earlier paths and bytes as it is without them. -/
theorem steps_behind (cs : List Char) :
    cs.foldlM step (state.behind earlier n)
      = moved n (behind earlier n) (cs.foldlM step state) := by
  induction cs generalizing state with
  | nil => rfl
  | cons c cs ih =>
      rw [List.foldlM_cons, List.foldlM_cons, step_behind]
      cases state.step c with
      | error e => rfl
      | ok next => exact ih

/-- What has been read before stays when the reading ends. -/
theorem finish_behind :
    (state.behind earlier n).finish = moved n (earlier.reverse ++ ·) state.finish := by
  rw [finish, finish, flush_behind]
  cases state.flush with
  | error e => rfl
  | ok flushed =>
      obtain ⟨paths, groups, item, closed, position⟩ := flushed
      cases groups <;> simp [moved, behind, SelectionError.moved]

/-- The position counts the bytes of what has been read. -/
theorem position_of_steps {cs : List Char} {last : State}
    (h : cs.foldlM step state = .ok last) :
    last.position = state.position + (String.ofList cs).utf8ByteSize := by
  induction cs generalizing state with
  | nil =>
      obtain rfl := Except.ok.inj h
      simp
  | cons c cs ih =>
      rw [List.foldlM_cons] at h
      cases hc : state.step c with
      | error e => rw [hc] at h; cases h
      | ok next =>
          rw [hc] at h
          obtain ⟨read, hread, rfl⟩ := map_eq_ok_iff.mp hc
          rw [ih h, String.ofList_cons]
          simp [Nat.add_assoc]

/-- **A comma outside of groups brings the reader back to where it began**, if it could have
finished there. -/
theorem step_comma {found : List Path} (h : state.finish = .ok found) :
    state.step ',' = .ok (start.behind found.reverse (state.position + 1)) := by
  rw [finish] at h
  split at h
  · cases h
  · next flushed hflush =>
      split at h
      · next hgroups =>
          obtain rfl := Except.ok.inj h
          obtain ⟨pending, -, rfl⟩ := map_eq_ok_iff.mp hflush
          have hnil : state.groups = [] := List.isEmpty_iff.mp hgroups
          have hsize : ','.utf8Size = 1 := by decide
          rw [step, read, if_pos rfl, hflush]
          simp [Except.map, behind, start, hsize, hnil]
      · cases h

end State

/-- **An expression behind another one and a comma** has its own paths behind those of the other,
or its own fault, further on. -/
theorem paths_append_comma {a b : String} {found : List Path} (h : paths a = .ok found) :
    paths (a ++ "," ++ b) = moved (a.utf8ByteSize + 1) (found ++ ·) (paths b) := by
  rw [paths] at h
  split at h
  · cases h
  · next middle hread =>
      have hposition : middle.position = a.utf8ByteSize := by
        simpa [State.start] using State.position_of_steps hread
      have htext : (a ++ "," ++ b).toList = a.toList ++ ',' :: b.toList := by simp
      have hbehind : (a ++ "," ++ b).toList.foldlM State.step State.start
          = moved (a.utf8ByteSize + 1) (State.behind found.reverse (a.utf8ByteSize + 1))
              (b.toList.foldlM State.step State.start) := by
        rw [htext, List.foldlM_append, hread, ← State.steps_behind, ← hposition]
        change List.foldlM State.step middle (',' :: b.toList) = _
        rw [List.foldlM_cons, State.step_comma h]
        rfl
      rw [paths, paths, hbehind]
      cases b.toList.foldlM State.step State.start with
      | error e => rfl
      | ok last =>
          have hfinish : (last.behind found.reverse (a.utf8ByteSize + 1)).finish
              = moved (a.utf8ByteSize + 1) (found.reverse.reverse ++ ·) last.finish :=
            State.finish_behind
          rwa [List.reverse_reverse] at hfinish

end Expression

namespace Selection

open Expression (paths)

/-- The paths of expressions that stand between commas. -/
theorem paths_intercalate {expressions : List String} {found : String → List Expression.Path}
    (h : ∀ e ∈ expressions, paths e = .ok (found e)) :
    paths (",".intercalate expressions) = .ok (expressions.flatMap found) := by
  induction expressions with
  | nil => rfl
  | cons first rest ih =>
      obtain ⟨hfirst, hrest⟩ := List.forall_mem_cons.mp h
      cases rest with
      | nil => simpa using hfirst
      | cons second rest =>
          rw [String.intercalate_cons_cons, Expression.paths_append_comma hfirst, ih hrest]
          rfl

/-- A list of expressions that are well written asks for the paths of their joined text, and
neither is at fault. -/
theorem readPaths_joined {expressions : List String}
    (h : ∀ e ∈ expressions, ∃ found, paths e = .ok found) (param : String) :
    ∃ found, readPaths param (some (Json.ofStrings expressions)) = .clean found ∧
      readPaths param (some (.string (",".intercalate expressions))) = .clean found := by
  have hfound : ∀ e ∈ expressions, paths e = .ok (readExpression param e).output := by
    intro e he
    obtain ⟨found, hpaths⟩ := h e he
    rw [readExpression, hpaths]
    rfl
  have hclean : ∀ e ∈ expressions, (readItem param (.string e)).faults = [] := by
    intro e he
    rw [readItem, readExpression, hfound e he]
    rfl
  refine ⟨expressions.flatMap fun e => (readExpression param e).output, ?_, ?_⟩
  · rw [Json.ofStrings, readPaths, List.flatMap_map, List.flatMap_map,
      List.flatMap_eq_nil_iff.mpr hclean]
    rfl
  · rw [readPaths, readExpression, paths_intercalate hfound]

/-- **Lists of expressions and their joined text agree.** Behind an expression and a comma, the
paths of another one are added to those of the first; when the other one is at fault, so is the
whole text, with the position moved. Therefore a request that lists expressions, each of which is
well written, selects what a request with the joined text selects, and neither is at fault. -/
theorem read_joined :
    (∀ a b found more, paths a = .ok found → paths b = .ok more →
      paths (a ++ "," ++ b) = .ok (found ++ more)) ∧
    (∀ a b found e, paths a = .ok found → paths b = .error e →
      paths (a ++ "," ++ b) = .error (e.moved (a.utf8ByteSize + 1))) ∧
    ∀ (schema : Schema) (listed joined : Request) (expressions : List String),
      (∀ e ∈ expressions, ∃ found, paths e = .ok found) →
      listed.get? schema.params.select = some (Json.ofStrings expressions) →
      joined.get? schema.params.select = some (.string (",".intercalate expressions)) →
      read schema listed = read schema joined ∧ (read schema joined).faults = [] := by
  refine ⟨?_, ?_, ?_⟩
  · intro a b found more ha hb
    rw [Expression.paths_append_comma ha, hb]
    rfl
  · intro a b found e ha hb
    rw [Expression.paths_append_comma ha, hb]
    rfl
  · intro schema listed joined expressions h hlisted hjoined
    obtain ⟨found, hlist, htext⟩ := readPaths_joined h schema.params.select
    rw [read, read, hlisted, hjoined, hlist, htext]
    exact ⟨rfl, rfl⟩

/-- Expressions with a group, blanks, an empty item and the resource itself, and one that is not
well written. -/
theorem read_joined_groups :
    paths ("id,address \x7bcity\x7d " ++ "," ++ ", $ , $.name") = .ok
        ([["id"], ["address", "city"]] ++ [["name"]]) ∧
      paths ("id,address \x7bcity\x7d " ++ "," ++ "name\x7d") = .error (.unexpectedEnd 23) ∧
      ∃ schema, Schema.ofDefinition Sample.minimal = .ok schema ∧
        read schema ⟨[("select", Json.ofStrings ["id,address \x7bcity\x7d ", ", $ , $.name"])]⟩
          = read schema ⟨[("select", .string (",".intercalate
            ["id,address \x7bcity\x7d ", ", $ , $.name"]))]⟩ := by
  have hfirst : paths "id,address \x7bcity\x7d " = .ok [["id"], ["address", "city"]] := by rfl
  have hsecond : paths ", $ , $.name" = .ok [["name"]] := by rfl
  have hthird : paths "name\x7d" = .error (.unexpectedEnd 4) := by rfl
  have hboth : ∀ e ∈ ["id,address \x7bcity\x7d ", ", $ , $.name"],
      ∃ found, paths e = .ok found := by
    simp [hfirst, hsecond]
  exact ⟨read_joined.1 _ _ _ _ hfirst hsecond, read_joined.2.1 _ _ _ _ hfirst hthird, _, rfl,
    (read_joined.2.2 _ _ _ _ hboth rfl rfl).1⟩

end Selection

end ResourceQuery
