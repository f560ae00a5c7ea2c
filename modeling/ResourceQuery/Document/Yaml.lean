import ResourceQuery.Document.Yaml.Leaf
import ResourceQuery.Document.Yaml.Lexer

/-!
# Documents written in YAML

The structure of a YAML text is read from its tokens. A part is a scalar, a collection or an alias
of an earlier part, and may have an anchor and a tag. Where a part may be left out an empty plain
scalar stands for it. A collection is written in block style, by indentation, or in flow style,
between brackets or braces. A text holds one document; directives, which may only stand in front of
it, give handles of tags their meaning.

A list is never taken for a record. An alias inside the part that it stands for is unreadable, and
so is whatever is nested deeper than `Yaml.nestingLimit`.

## Main definitions

* `Yaml.Cursor`: what is left to read, and the anchors so far.
* `Yaml.node?`: a part of a document.
* `Document.ofYaml?`: the document that a text is.
-/

namespace ResourceQuery

namespace Yaml

/-- How many collections may be nested. -/
def nestingLimit : Nat := 128

/-! ### Tags and directives -/

/-- What the handles of tags stand for. -/
abbrev Handles := Entries String

/-- The handles that every document knows. -/
def standardHandles : Handles := [("!", "!"), ("!!", Tag.core)]

/-- A tag with its handle resolved; an empty handle stands for nothing. -/
def resolveTag? (handles : Handles) (handle rest : String) : Option Tag :=
  if handle = "" then some rest else (handles.get? handle).map (· ++ rest)

/-- The handles that directives give a meaning, each at most once, and the tokens that follow. Only
one directive may give the version, which must be known. -/
def directives? (versionSeen : Bool) (handles : Handles) :
    List Token → Option (Handles × List Token)
  | .version major minor :: rest =>
    if !versionSeen && major = 1 && (minor = 1 || minor = 2) then directives? true handles rest
    else none
  | .handle handle meaning :: rest =>
    if handles.contains handle then none
    else directives? versionSeen (handles.put handle meaning) rest
  | rest => some (handles, rest)

/-- What stands in front of a part. -/
structure Properties where
  anchor : Option String := none
  tag : Option Tag := none

/-- Whether anything stands in front of a part. -/
def Properties.arePresent (properties : Properties) : Bool :=
  properties.anchor.isSome || properties.tag.isSome

/-- An anchor and a tag in either order, each of which may be missing. -/
def properties? (handles : Handles) : List Token → Option (Properties × List Token)
  | .anchor name :: .tag handle rest :: after | .tag handle rest :: .anchor name :: after =>
    (resolveTag? handles handle rest).map fun tag => (⟨name, tag⟩, after)
  | .anchor name :: after => some (⟨name, none⟩, after)
  | .tag handle rest :: after =>
    (resolveTag? handles handle rest).map fun tag => (⟨none, tag⟩, after)
  | after => some ({}, after)

/-! ### Parts -/

/-- The part that is left out. -/
def emptyNode : Document := .leaf (leaf none .plain "")

/-- A scalar; a tag that is the exclamation mark alone asks for nothing. -/
def scalarNode (tag : Option Tag) (style : Style) (text : String) : Document :=
  .leaf (leaf (tag.filter (· ≠ "!")) style text)

/-- A collection inside of `level` others. -/
def collection (level : Nat) (tag : Option Tag) (document : Document) : Document :=
  if nestingLimit ≤ level then .unreadable
  else if (tag.bind Tag.ownName?).isSome then .marked document
  else document

/-- A block or flow sequence. -/
def sequence (items : List Document) : Document := .list .never items

/-- A block or flow mapping. -/
def mapping (members : List (Document × Document)) : Document := .table none members

/-- What is left to read. -/
structure Cursor where
  tokens : List Token
  /-- The anchors so far and what they stand for, the latest last. -/
  anchors : Array (String × Document) := #[]

namespace Cursor

/-- Whether one of some tokens is next. -/
def isAt (c : Cursor) (stops : List Token) : Bool :=
  match c.tokens with
  | [] => false
  | token :: _ => token ∈ stops

/-- The cursor behind the next token. -/
def tail (c : Cursor) : Cursor := { c with tokens := c.tokens.drop 1 }

/-- The cursor behind a token, if it is next. -/
def after? (c : Cursor) (token : Token) : Option Cursor :=
  if c.isAt [token] then some c.tail else none

/-- What the latest anchor of a name stands for. -/
def anchored? (c : Cursor) (name : String) : Option Document :=
  (c.anchors.toList.reverse.find? fun (anchor, _) => anchor = name).map (·.2)

/-- The cursor with an anchor, whose part has not been read yet. -/
def openAnchor (c : Cursor) (anchor : Option String) : Cursor :=
  match anchor with
  | some name => { c with anchors := c.anchors.push (name, .unreadable) }
  | none => c

/-- The cursor with the part of the anchor that was opened at an index. -/
def closeAnchor (c : Cursor) (anchor : Option String) (index : Nat) (node : Document) :
    Cursor :=
  match anchor with
  | some name => { c with anchors := c.anchors.setIfInBounds index (name, node) }
  | none => c

end Cursor

/-- Where a part stands, which decides what it may be. -/
inductive Place
  | inFlow
  | inBlock
  /-- The name or the value of a member of a block mapping, which may be a sequence that is not
  indented further. -/
  | blockMember
deriving DecidableEq

variable (handles : Handles)

mutual

/-- A part inside of `level` collections. Here and below the first argument bounds the steps. -/
def node? : Nat → Nat → Place → Cursor → Option (Document × Cursor)
  | 0, _, _, _ => none
  | fuel + 1, level, place, c =>
    match c.tokens with
    | .reference name :: _ => (c.anchored? name).map fun node => (node, c.tail)
    | tokens => do
      let (properties, rest) ← properties? handles tokens
      let opened := { c with tokens := rest }.openAnchor properties.anchor
      let (node, next) ← content? fuel level place properties opened
      pure (node, next.closeAnchor properties.anchor c.anchors.size node)

/-- A part behind its properties. -/
def content? : Nat → Nat → Place → Properties → Cursor → Option (Document × Cursor)
  | 0, _, _, _, _ => none
  | fuel + 1, level, place, properties, c =>
    let wrap := collection level properties.tag
    match c.tokens with
    | .scalar style text :: _ => some (scalarNode properties.tag style text, c.tail)
    | .openBracket :: _ =>
      (flowItems? fuel (level + 1) true c.tail).map fun (items, c) => (wrap (sequence items), c)
    | .openBrace :: _ =>
      (flowMembers? fuel (level + 1) true c.tail).map fun (members, c) =>
        (wrap (mapping members), c)
    | tokens =>
      if tokens.head? = some .blockSequence && place ≠ .inFlow then
        (blockItems? fuel (level + 1) c.tail).map fun (items, c) => (wrap (sequence items), c)
      else if tokens.head? = some .blockMapping && place ≠ .inFlow then
        (blockMembers? fuel (level + 1) c.tail).map fun (members, c) =>
          (wrap (mapping members), c)
      else if tokens.head? = some .item && place = .blockMember then
        (flatItems? fuel (level + 1) c).map fun (items, c) => (wrap (sequence items), c)
      else if properties.arePresent then some (.leaf (leaf properties.tag .plain ""), c)
      else none

/-- A part, or the empty one if a token that ends it is next. -/
def nodeUnless? : Nat → List Token → Nat → Place → Cursor → Option (Document × Cursor)
  | 0, _, _, _, _ => none
  | fuel + 1, stops, level, place, c =>
    if c.isAt stops then some (emptyNode, c) else node? fuel level place c

/-- The value behind a colon, or the empty one if there is no colon. -/
def valueUnless? : Nat → List Token → Nat → Place → Cursor → Option (Document × Cursor)
  | 0, _, _, _, _ => none
  | fuel + 1, stops, level, place, c =>
    match c.after? .value with
    | some c => nodeUnless? fuel stops level place c
    | none => some (emptyNode, c)

/-- The items of a block sequence up to its end. -/
def blockItems? : Nat → Nat → Cursor → Option (List Document × Cursor)
  | 0, _, _ => none
  | fuel + 1, level, c =>
    match c.after? .blockEnd with
    | some c => some ([], c)
    | none => do
      let c ← c.after? .item
      let (item, c) ← nodeUnless? fuel [.item, .blockEnd] level .inBlock c
      let (items, c) ← blockItems? fuel level c
      pure (item :: items, c)

/-- The items of a sequence that is indented no further than what it belongs to. -/
def flatItems? : Nat → Nat → Cursor → Option (List Document × Cursor)
  | 0, _, _ => none
  | fuel + 1, level, c =>
    match c.after? .item with
    | none => some ([], c)
    | some c => do
      let (item, c) ← nodeUnless? fuel [.item, .key, .value, .blockEnd] level .inBlock c
      let (items, c) ← flatItems? fuel level c
      pure (item :: items, c)

/-- The members of a block mapping up to its end. -/
def blockMembers? : Nat → Nat → Cursor → Option (List (Document × Document) × Cursor)
  | 0, _, _ => none
  | fuel + 1, level, c =>
    match c.after? .blockEnd with
    | some c => some ([], c)
    | none => do
      let c ← c.after? .key
      let (key, c) ← nodeUnless? fuel [.key, .value, .blockEnd] level .blockMember c
      let (v, c) ← valueUnless? fuel [.key, .value, .blockEnd] level .blockMember c
      let (members, c) ← blockMembers? fuel level c
      pure ((key, v) :: members, c)

/-- The items of a flow sequence up to its end. A member without braces is a mapping of its own. -/
def flowItems? : Nat → Nat → Bool → Cursor → Option (List Document × Cursor)
  | 0, _, _, _ => none
  | fuel + 1, level, isFirst, c =>
    match c.after? .closeBracket with
    | some c => some ([], c)
    | none => do
      let c ← if isFirst then some c else c.after? .comma
      match c.after? .closeBracket with
      | some c => pure ([], c)
      | none =>
        let (item, c) ←
          match c.after? .key with
          | some c => flowPair? fuel level c
          | none => node? fuel level .inFlow c
        let (items, c) ← flowItems? fuel level false c
        pure (item :: items, c)

/-- A mapping of one member in a flow sequence. If the name is left out, so is the next token. -/
def flowPair? : Nat → Nat → Cursor → Option (Document × Cursor)
  | 0, _, _ => none
  | fuel + 1, level, c => do
    let (key, c) ←
      if c.isAt [.value, .comma, .closeBracket] then some (emptyNode, c.tail)
      else node? fuel (level + 1) .inFlow c
    let (v, c) ← valueUnless? fuel [.comma, .closeBracket] (level + 1) .inFlow c
    pure (collection level none (mapping [(key, v)]), c)

/-- The members of a flow mapping up to its end. A name may stand without a value. -/
def flowMembers? : Nat → Nat → Bool → Cursor → Option (List (Document × Document) × Cursor)
  | 0, _, _, _ => none
  | fuel + 1, level, isFirst, c =>
    match c.after? .closeBrace with
    | some c => some ([], c)
    | none => do
      let c ← if isFirst then some c else c.after? .comma
      match c.after? .closeBrace with
      | some c => pure ([], c)
      | none =>
        let (key, v, c) ←
          match c.after? .key with
          | some c => do
            let (key, c) ← nodeUnless? fuel [.value, .comma, .closeBrace] level .inFlow c
            let (v, c) ← valueUnless? fuel [.comma, .closeBrace] level .inFlow c
            pure (key, v, c)
          | none => do
            let (key, c) ← node? fuel level .inFlow c
            pure (key, emptyNode, c)
        let (members, c) ← flowMembers? fuel level false c
        pure ((key, v) :: members, c)

end

/-! ### Documents -/

/-- The document of tokens, behind the directives; markers of its end may follow. -/
def document? (handles : Handles) (tokens : List Token) : Option Document := do
  let c : Cursor := ⟨tokens, #[]⟩
  let (node, c) ←
    if tokens.isEmpty || c.isAt [.documentEnd] then some (emptyNode, c)
    else node? handles (4 * tokens.length + 4) 0 .inBlock c
  if (c.tokens.dropWhile (· = .documentEnd)).isEmpty then pure node else none

/-- The one document of the tokens of a text. Behind directives it must be marked. -/
def documentOfTokens? (tokens : List Token) : Option Document :=
  match tokens with
  | [] => none
  | .documentStart :: rest => document? standardHandles rest
  | .version _ _ :: _ | .handle _ _ :: _ =>
    match directives? false [] tokens with
    | some (handles, .documentStart :: rest) => document? (handles ++ standardHandles) rest
    | _ => none
  | .documentEnd :: _ => none
  | _ => document? standardHandles tokens

end Yaml

/-- The document that a YAML text is. -/
def Document.ofYaml? (text : String) : Option Document :=
  (Yaml.tokens? text.toList).bind Yaml.documentOfTokens?

end ResourceQuery
