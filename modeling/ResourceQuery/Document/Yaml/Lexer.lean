import ResourceQuery.Document.Yaml.Block
import ResourceQuery.Document.Yaml.Scalar
import ResourceQuery.Document.Yaml.Token

/-!
# From characters to tokens

Whether a scalar or a collection is the name of a member is only known at the colon behind it. So
where a name may begin, the place is remembered as a *candidate*; the colon puts the token of a
name there, and in front of it the start of a block mapping, if the name is indented further than
the block collections that are open. A candidate lasts for its line and for 1024 characters. One
that stands where only a name can stand must become one.

Each flow collection has a candidate of its own, and so has the block around them all.

## Main definitions

* `Yaml.Lexer`: how far a text has been cut, and what is open there.
* `Yaml.Lexer.token?`: the lexer behind the next token.
* `Yaml.tokens?`: the tokens of a text.
-/

namespace ResourceQuery.Yaml

/-- A place where the name of a member may have begun. -/
structure Candidate where
  /-- How many tokens stand before it. -/
  position : Nat
  /-- The cell it begins with. -/
  cell : Cell
  /-- Whether nothing but a name can stand there. -/
  isRequired : Bool

/-- How far a candidate reaches in characters. -/
def Candidate.reach : Nat := 1024

/-- Whether the candidate can no longer become a name at a cell. -/
def Candidate.isStaleAt (candidate : Candidate) (c : Cell) : Bool :=
  candidate.cell.line < c.line || candidate.cell.index + Candidate.reach < c.index

/-- How far a text has been cut. -/
structure Lexer where
  /-- The cells that are left. -/
  ahead : List Cell
  tokens : Array Token := #[]
  /-- The columns of the open block collections, the innermost first. -/
  columns : List Nat := []
  /-- The candidate of the innermost open flow collection, or of the block if none is open. -/
  candidate : Option Candidate := none
  /-- The candidates around it, one for each open flow collection, the innermost first. -/
  outer : List (Option Candidate) := []
  /-- Whether a candidate may begin at the next token. -/
  mayBegin : Bool := true

namespace Lexer

/-- Whether a flow collection is open. -/
def inFlow (s : Lexer) : Bool := !s.outer.isEmpty

/-- The first column behind that of the innermost open block collection. -/
def least (s : Lexer) : Nat :=
  match s.columns with
  | [] => 0
  | column :: _ => column + 1

/-! ### Candidates -/

/-- A candidate that is given up, unless it is required. -/
def giveUp? : Option Candidate → Option (Option Candidate)
  | some candidate => if candidate.isRequired then none else some none
  | none => some none

/-- The candidate, if it can still become a name at a cell. -/
def renew? (c : Cell) : Option Candidate → Option (Option Candidate)
  | some candidate => if candidate.isStaleAt c then giveUp? candidate else some (some candidate)
  | none => some none

/-- The lexer without the candidates that can no longer become names. -/
def renewCandidates? (s : Lexer) (c : Cell) : Option Lexer := do
  let candidate ← renew? c s.candidate
  let outer ← s.outer.mapM (renew? c)
  pure { s with candidate, outer }

/-- The lexer without its innermost candidate. -/
def dropCandidate? (s : Lexer) : Option Lexer :=
  (giveUp? s.candidate).map fun candidate => { s with candidate }

/-- The lexer with a candidate at a cell, if one may begin there. -/
def saveCandidate? (s : Lexer) (c : Cell) : Option Lexer :=
  if s.mayBegin then
    (giveUp? s.candidate).map fun _ =>
      { s with candidate := some ⟨s.tokens.size, c, !s.inFlow && s.columns.head? = some c.column⟩ }
  else some s

/-! ### Block collections -/

/-- Ends the block collections that are indented further than a column. -/
def endBlocks (s : Lexer) (column : Nat) : Lexer :=
  if s.inFlow then s
  else
    { s with
      tokens := s.tokens ++ (s.columns.takeWhile (column < ·)).map fun _ => Token.blockEnd
      columns := s.columns.dropWhile (column < ·) }

/-- Ends all block collections. -/
def endAllBlocks (s : Lexer) : Lexer :=
  if s.inFlow then s
  else { s with tokens := s.tokens ++ s.columns.map fun _ => Token.blockEnd, columns := [] }

/-- Starts a block collection at a column, in front of the tokens from a position on, unless one
that is indented as far is open. -/
def startBlock (s : Lexer) (start : Token) (column position : Nat) : Lexer :=
  if s.inFlow || column < s.least then s
  else
    { s with
      tokens := s.tokens.insertIdxIfInBounds position start
      columns := column :: s.columns }

/-! ### Tokens -/

/-- Puts a token at the end. -/
def push (s : Lexer) (token : Token) (ahead : List Cell) (mayBegin : Bool) : Lexer :=
  { s with ahead, tokens := s.tokens.push token, mayBegin }

/-- A token that may be, or begin, the name of a member. -/
def pushNode? (s : Lexer) (c : Cell) (read : Option (Token × List Cell)) : Option Lexer := do
  let s ← s.saveCandidate? c
  let (token, ahead) ← read
  pure (s.push token ahead false)

/-- A separator of documents, or a directive: all block collections end there. -/
def pushMark? (s : Lexer) (read : Option (Token × List Cell)) : Option Lexer := do
  let s ← s.endAllBlocks.dropCandidate?
  let (token, ahead) ← read
  pure (s.push token ahead false)

/-- The start of a flow collection. -/
def openFlow? (s : Lexer) (c : Cell) (token : Token) (rest : List Cell) : Option Lexer := do
  let s ← s.saveCandidate? c
  pure { s.push token rest true with candidate := none, outer := s.candidate :: s.outer }

/-- The end of a flow collection. -/
def closeFlow? (s : Lexer) (token : Token) (rest : List Cell) : Option Lexer := do
  let s := (← s.dropCandidate?).push token rest false
  match s.outer with
  | [] => pure s
  | candidate :: outer => pure { s with candidate, outer }

/-- An indicator of a block collection, which starts one outside of flow collections. -/
def pushIndicator? (s : Lexer) (c : Cell) (start token : Token) (rest : List Cell)
    (mayBegin : Bool) : Option Lexer := do
  if !s.inFlow && !s.mayBegin then none
  else
    let s ← (s.startBlock start c.column s.tokens.size).dropCandidate?
    pure (s.push token rest mayBegin)

/-- The colon in front of a value. The candidate becomes the name; without one the name is not
written or has an indicator of its own. -/
def pushColon? (s : Lexer) (c : Cell) (rest : List Cell) : Option Lexer :=
  match s.candidate with
  | some candidate =>
    let s := { s with
      tokens := s.tokens.insertIdxIfInBounds candidate.position .key
      candidate := none }
    some ((s.startBlock .blockMapping candidate.cell.column candidate.position).push .value rest
      false)
  | none =>
    if s.inFlow then some (s.push .value rest false)
    else if s.mayBegin then
      some ((s.startBlock .blockMapping c.column s.tokens.size).push .value rest true)
    else none

/-- A block scalar. -/
def pushBlockScalar? (s : Lexer) (style : Style) (rest : List Cell) : Option Lexer := do
  let s ← s.dropCandidate?
  let (text, ahead) ← blockScalar? (style = .folded) s.least rest
  pure (s.push (.scalar style (String.ofList text)) ahead true)

/-- A scalar between quotes. -/
def pushQuoted? (s : Lexer) (c : Cell) (read : Option (List Char × List Cell)) :
    Option Lexer :=
  s.pushNode? c (read.map fun (text, ahead) => (.scalar .quoted (String.ofList text), ahead))

/-- A plain scalar, which the cells begin with. When it ends behind a line, a name may begin at the
next token. -/
def pushPlain? (s : Lexer) (c : Cell) (cells : List Cell) : Option Lexer := do
  let s ← s.saveCandidate? c
  let (text, brokeLine, ahead) ← plain? s.inFlow s.least .empty cells
  pure (s.push (.scalar .plain (String.ofList text)) ahead brokeLine)

/-! ### Cutting a text -/

/-- The characters that no plain scalar begins with; the first three may, in front of a character
that is no blank. -/
def indicators : List Char :=
  ['-', '?', ':', ',', '[', ']', '{', '}', '#', '&', '*', '!', '|', '>', '\'', '"', '%', '@', '`']

/-- Whether a plain scalar begins with a character. -/
def beginsPlain (s : Lexer) (c : Cell) (rest : List Cell) : Bool :=
  (!isSpacing c.char && c.char ∉ indicators)
    || (c.char = '-' && !atSpacing rest)
    || (!s.inFlow && (c.char = '?' || c.char = ':') && !atSpacing rest)

/-- The cells from the next token on, and whether a name may begin there. A byte order mark at the
start of a line does not count, and tabs only do where a name may begin. -/
def skip (inFlow : Bool) : (mayBegin inComment : Bool) → List Cell → Bool × List Cell
  | mayBegin, _, [] => (mayBegin, [])
  | mayBegin, inComment, c :: rest =>
    if isBreak c.char then skip inFlow (mayBegin || !inFlow) false rest
    else if inComment || (c.char = '\uFEFF' && c.column = 0) || c.char = ' '
        || (c.char = '\t' && (inFlow || !mayBegin)) then
      skip inFlow mayBegin inComment rest
    else if c.char = '#' then skip inFlow mayBegin true rest
    else (mayBegin, c :: rest)

/-- The lexer behind the token that begins with a cell. -/
def token? (s : Lexer) (c : Cell) (rest : List Cell) : Option Lexer :=
  let isIndicator := s.inFlow || atSpacing rest
  if c.column = 0 && c.char = '%' then s.pushMark? (directive? rest)
  else if startsMarker '-' (c :: rest) then s.pushMark? (some (.documentStart, rest.drop 2))
  else if startsMarker '.' (c :: rest) then s.pushMark? (some (.documentEnd, rest.drop 2))
  else if c.char = '[' then s.openFlow? c .openBracket rest
  else if c.char = '{' then s.openFlow? c .openBrace rest
  else if c.char = ']' then s.closeFlow? .closeBracket rest
  else if c.char = '}' then s.closeFlow? .closeBrace rest
  else if c.char = ',' then s.dropCandidate?.map fun s => s.push .comma rest true
  else if c.char = '-' && atSpacing rest then s.pushIndicator? c .blockSequence .item rest true
  else if c.char = '?' && isIndicator then s.pushIndicator? c .blockMapping .key rest (!s.inFlow)
  else if c.char = ':' && isIndicator then s.pushColon? c rest
  else if c.char = '*' then
    s.pushNode? c ((anchorName? rest).map fun (name, ahead) => (.reference name, ahead))
  else if c.char = '&' then
    s.pushNode? c ((anchorName? rest).map fun (name, ahead) => (.anchor name, ahead))
  else if c.char = '!' then s.pushNode? c (tag? s.inFlow rest)
  else if c.char = '|' && !s.inFlow then s.pushBlockScalar? .literal rest
  else if c.char = '>' && !s.inFlow then s.pushBlockScalar? .folded rest
  else if c.char = '\'' then s.pushQuoted? c (single? .empty rest)
  else if c.char = '"' then s.pushQuoted? c (double? (.text .empty) rest)
  else if s.beginsPlain c rest then s.pushPlain? c (c :: rest)
  else none

/-- The lexer in front of the next token, where candidates may have become too old and blocks may
have ended. -/
def advance? (s : Lexer) : Option Lexer :=
  let (mayBegin, ahead) := skip s.inFlow s.mayBegin false s.ahead
  let s := { s with mayBegin, ahead }
  match ahead with
  | [] => s.endAllBlocks.dropCandidate?
  | c :: _ => (s.renewCandidates? c).map fun s => s.endBlocks c.column

/-- The tokens up to the end of the text. The first argument bounds their number. -/
def run? : Nat → Lexer → Option (List Token)
  | 0, _ => none
  | fuel + 1, s =>
    match s.advance? with
    | none => none
    | some s =>
      match s.ahead with
      | [] => some s.tokens.toList
      | c :: rest => (s.token? c rest).bind (run? fuel)

end Lexer

/-- The tokens of a text: each takes up at least one of its cells. -/
def tokens? (text : List Char) : Option (List Token) :=
  (cells? text).bind fun cells => Lexer.run? (cells.length + 1) { ahead := cells }

end ResourceQuery.Yaml
