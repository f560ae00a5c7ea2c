import ResourceQuery.Document.Toml.Scalar
import ResourceQuery.Document.Toml.Table

/-!
# Documents written in TOML

A text is a sequence of statements: a table header, the header of an item of an array of tables, or
a name and its value. Names may be dotted, and each statement adds to the table of the header
before it. A name is given at most once, and a table has at most one header.

An array may be taken for a record, and a table that holds one name with nothing behind it for the
value of that name.

## Main definitions

* `Toml.value?`: a value.
* `Toml.statements?`: the tables of a text.
* `Document.ofToml?`: the document that a text is.
-/

namespace ResourceQuery

namespace Toml

/-- How many arrays and inline tables may be nested, and how many parts a name may have. -/
def nestingLimit : Nat := 79

/-! ### Lines -/

/-- The rest of a text behind blanks, comments and line ends. The first argument says whether a
comment has begun. -/
def skipLines? : Bool → List Char → Option (List Char)
  | _, [] => some []
  | _, '\r' :: '\n' :: rest => skipLines? false rest
  | inComment, c :: rest =>
    if c = '\n' then skipLines? false rest
    else if inComment then if isTextChar c then skipLines? true rest else none
    else if isSpace c then skipLines? false rest
    else if c = '#' then skipLines? true rest
    else some (c :: rest)

/-- What is left of a line must be blank or a comment; the text behind the line. -/
def endLine? (cs : List Char) : Option (List Char) :=
  match skipSpace cs with
  | [] => some []
  | '\n' :: rest => some rest
  | '\r' :: '\n' :: rest => some rest
  | '#' :: rest => skipLines? true rest
  | _ => none

/-! ### Names -/

/-- The characters of a name without quotes. -/
def isNameChar (c : Char) : Bool :=
  c.isAlphanum || c = '_' || c = '-'

/-- One part of a name. -/
def namePart? (cs : List Char) : Option (String × List Char) :=
  match cs with
  | '"' :: rest => (basic? rest).map fun (s, after) => (String.ofList s, after)
  | '\'' :: rest => (literal? rest).map fun (s, after) => (String.ofList s, after)
  | _ =>
    let read := cs.takeWhile isNameChar
    if read = [] then none else some (String.ofList read, cs.dropWhile isNameChar)

/-- The parts of a dotted name and what follows. The first argument bounds their number. -/
def nameParts? : Nat → List Char → Option (List String × List Char)
  | 0, _ => none
  | fuel + 1, cs =>
    match namePart? (skipSpace cs) with
    | none => none
    | some (part, after) =>
      match skipSpace after with
      | '.' :: rest => (nameParts? fuel rest).map fun (parts, after) => (part :: parts, after)
      | after => some ([part], after)

/-- A dotted name and what follows. -/
def name? (cs : List Char) : Option (List String × List Char) :=
  nameParts? nestingLimit cs

/-! ### Values -/

mutual

/-- A value inside of `level` others, and what follows. Here and below the first argument bounds
the number of steps. -/
def value? : Nat → Nat → List Char → Option (Document × List Char)
  | 0, _, _ => none
  | fuel + 1, level, cs =>
    match cs with
    | '[' :: rest =>
      if nestingLimit ≤ level then none
      else
        (items? fuel (level + 1) rest).map fun (items, after) => (.list .loose items, after)
    | '{' :: rest =>
      if nestingLimit ≤ level then none
      else
        match skipSpace rest with
        | '}' :: rest => some (tableOf [], rest)
        | rest =>
          (inlineMembers? fuel (level + 1) [] rest).map fun (members, after) =>
            (tableOf (membersDocument members), after)
    | c :: _ =>
      if c = '"' || c = '\'' then
        (string? cs).map fun (s, after) => (.ofText (String.ofList s), after)
      else
        let (word, after) := takeWord cs
        (word? word).map fun v => (v, after)
    | [] => none

/-- The items of an array up to its end. -/
def items? : Nat → Nat → List Char → Option (List Document × List Char)
  | 0, _, _ => none
  | fuel + 1, level, cs =>
    match skipLines? false cs with
    | none => none
    | some (']' :: rest) => some ([], rest)
    | some cs =>
      match value? fuel level cs with
      | none => none
      | some (item, after) =>
        match skipLines? false after with
        | some (',' :: rest) =>
          (items? fuel level rest).map fun (items, after) => (item :: items, after)
        | some (']' :: rest) => some ([item], rest)
        | _ => none

/-- The members of an inline table up to its end, added to those before. -/
def inlineMembers? : Nat → Nat → Members → List Char → Option (Members × List Char)
  | 0, _, _, _ => none
  | fuel + 1, level, members, cs =>
    match name? cs with
    | some (path, '=' :: rest) =>
      match value? fuel level (skipSpace rest) with
      | none => none
      | some (v, after) =>
        match define? v path members, skipSpace after with
        | some members, ',' :: rest => inlineMembers? fuel level members rest
        | some members, '}' :: rest => some (members, rest)
        | _, _ => none
    | _ => none

end

/-! ### Statements -/

/-- A statement. -/
inductive Statement
  /-- The header of a table. -/
  | table (path : List String)
  /-- The header of an item of an array of tables. -/
  | item (path : List String)
  | define (path : List String) (value : Document)

/-- The statement at the start of a line, and the text behind the line. -/
def statement? (cs : List Char) : Option (Statement × List Char) :=
  match cs with
  | '[' :: '[' :: rest =>
    match name? rest with
    | some (path, ']' :: ']' :: after) => (endLine? after).map fun after => (.item path, after)
    | _ => none
  | '[' :: rest =>
    match name? rest with
    | some (path, ']' :: after) => (endLine? after).map fun after => (.table path, after)
    | _ => none
  | _ =>
    match name? cs with
    | some (path, '=' :: rest) =>
      match value? (2 * cs.length + 2) 0 (skipSpace rest) with
      | some (v, after) => (endLine? after).map fun after => (.define path v, after)
      | none => none
    | _ => none

/-- The tables after a statement, and the path of the header that the next one belongs to. -/
def Statement.run? (header : List String) (members : Members) :
    Statement → Option (List String × Members)
  | .table path => (changeLast? openTable? path members).map fun members => (path, members)
  | .item path => (changeLast? openItem? path members).map fun members => (path, members)
  | .define path v =>
    (changeAt? (define? v path) header members).map fun members => (header, members)

/-- The tables of a text, given those before and the path of the last header. The first argument
bounds the number of statements. -/
def statements? : Nat → List String → Members → List Char → Option Members
  | 0, _, _, _ => none
  | fuel + 1, header, members, cs =>
    match skipLines? false cs with
    | none => none
    | some [] => some members
    | some cs =>
      match statement? cs with
      | none => none
      | some (statement, rest) =>
        match statement.run? header members with
        | none => none
        | some (header, members) => statements? fuel header members rest

end Toml

/-- The document that a TOML text is. A byte order mark in front does not count. -/
def Document.ofToml? (text : String) : Option Document :=
  let cs := match text.toList with | '\uFEFF' :: rest => rest | cs => cs
  (Toml.statements? (cs.length + 1) [] [] cs).map fun members =>
    Toml.tableOf (Toml.membersDocument members)

end ResourceQuery
