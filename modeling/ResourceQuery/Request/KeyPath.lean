import ResourceQuery.Text.Split

/-!
# Key paths

The key of a query parameter names a place inside nested parameters by brackets: in
`filter[age][between][]` the base `filter` is followed by the segments `age`, `between` and the
empty one. The base is not empty and has no opening bracket; a segment has no closing one. A key of
any other form names no place.

## Main definitions

* `KeyPath`, `KeyPath.text`: a place, and how it is written.
* `KeyPath.ofText?`: the place that a key names.
-/

namespace ResourceQuery

/-- A place inside nested parameters. -/
structure KeyPath where
  base : String
  segments : List String
deriving DecidableEq

namespace KeyPath

/-- A segment between its brackets. -/
def segmentText (segment : String) : List Char :=
  '[' :: (segment.toList ++ [']'])

/-- The key that names a place. -/
def text (path : KeyPath) : List Char :=
  path.base.toList ++ path.segments.flatMap segmentText

/-- The segments of a bracketed text. The first argument is what has been read of an open segment,
the latest character first; it is none between segments. -/
def segments? : Option (List Char) → List Char → Option (List String)
  | none, [] => some []
  | none, c :: cs => if c = '[' then segments? (some []) cs else none
  | some _, [] => none
  | some read, c :: cs =>
    if c = ']' then (segments? none cs).map (String.ofList read.reverse :: ·)
    else segments? (some (c :: read)) cs

/-- The place that a key names. -/
def ofText? (key : List Char) : Option KeyPath :=
  let base := key.takeWhile (· ≠ '[')
  if base = [] then none
  else (segments? none (key.dropWhile (· ≠ '['))).map fun segments =>
    ⟨String.ofList base, segments⟩

end KeyPath

end ResourceQuery
