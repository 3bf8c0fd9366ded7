import Recital.Yaml.Token

/-!
# From a YAML text to its tokens

Outside brackets the structure of a text is shown by indentation, and a key is recognized only by
the colon behind it.  The lexer therefore remembers for each level of brackets where a key may have
started.  When the colon comes, the mark of the key is put in front of the tokens read since.
-/

namespace Recital.Yaml

/-- A place where a key may have started. -/
structure Candidate where
  /-- The number of the first token of the key. -/
  token : Nat
  /-- The place. -/
  place : Cursor
  /-- It can only be a key, because nothing else may be indented like this. -/
  required : Bool

/-- The state of reading tokens. -/
structure Lexer where
  /-- Where it stands. -/
  cursor : Cursor
  /-- The tokens read so far. -/
  tokens : Array Token := #[]
  /-- The column of the innermost block. -/
  indent : Int := -1
  /-- The columns of the blocks around it. -/
  outer : List Int := []
  /-- A key may start here. -/
  keyAllowed : Bool := true
  /-- Where the key of each open bracket may have started, the innermost first; the last one belongs
  to no bracket. -/
  candidates : List (Option Candidate) := [none]

namespace Lexer

/-- How many bytes a key may stretch over. -/
def keyLimit : Nat := 1024

/-- The lexer stands inside brackets. -/
def inFlow (l : Lexer) : Bool := 1 < l.candidates.length

/-- Adds a token. -/
def push (l : Lexer) (t : Token) : Lexer := { l with tokens := l.tokens.push t }

/-- Inserts a token before the one with the given number. -/
def insert (l : Lexer) (n : Nat) (t : Token) : Lexer :=
  { l with tokens := l.tokens.insertIdxIfInBounds n t }

/-- Passes over characters. -/
def advance (l : Lexer) (n : Nat) : Lexer := { l with cursor := l.cursor.advance n }

/-- Adds the mark of `n` characters that comes next. -/
def mark (l : Lexer) (n : Nat) (t : Token) : Lexer := (l.advance n).push t

/-- Says whether a key may start here. -/
def allowKey (l : Lexer) (allowed : Bool) : Lexer := { l with keyAllowed := allowed }

/-! ### Space between tokens -/

/-- Passes over blanks, comments and line breaks; a key may start in a new line outside brackets.
Where a key may start outside brackets, tabs are not blanks.  A byte order mark may start a line, of
which it takes up a column.  `fuel` bounds the lines. -/
def skipSpace : Nat → Lexer → Lexer
  | 0, l => l
  | fuel + 1, l =>
    let c := l.cursor
    let c := if c.column = 0 && c.peek?.any (·.toNat == 0xFEFF) then c.advance 1 else c
    let tabs := l.inFlow || !l.keyAllowed
    let c := c.skip fun ch => ch == ' ' || (tabs && ch == '\t')
    let c := if c.sees '#' then c.skip (!isBreak ·) else c
    if c.seesBreak then
      skipSpace fuel { l with cursor := c.skipBreak, keyAllowed := l.keyAllowed || !l.inFlow }
    else { l with cursor := c }

/-! ### Keys -/

/-- No key has started at the place any more: it lies in an earlier line or too far back. -/
def isStale (l : Lexer) (k : Candidate) : Bool :=
  k.place.line < l.cursor.line || k.place.index + keyLimit < l.cursor.index

/-- Gives up stale places; one that can only be a key is an error. -/
def dropStale? (l : Lexer) : Option Lexer := do
  let candidates ← l.candidates.mapM fun k => match k with
    | some k => if l.isStale k then if k.required then none else some none else some (some k)
    | none => some none
  return { l with candidates }

/-- Gives up the place at the current level; one that can only be a key is an error. -/
def dropKey? (l : Lexer) : Option Lexer :=
  match l.candidates with
  | some k :: rest => if k.required then none else some { l with candidates := none :: rest }
  | _ => some l

/-- Remembers that a key may start here, if that is so. -/
def saveKey? (l : Lexer) : Option Lexer :=
  if l.keyAllowed then do
    let l ← l.dropKey?
    let k : Candidate :=
      { token := l.tokens.size, place := l.cursor
        required := !l.inFlow && l.indent == (l.cursor.column : Int) }
    return { l with candidates := some k :: l.candidates.drop 1 }
  else some l

/-! ### Indentation -/

/-- Opens a block at a column that lies further in; its mark goes before token number `n`. -/
def indentTo (l : Lexer) (column : Nat) (n : Nat) (t : Token) : Lexer :=
  if !l.inFlow && l.indent < (column : Int) then
    { l with indent := column, outer := l.indent :: l.outer }.insert n t
  else l

/-- Closes the blocks that lie further in than a column, from a list of the columns around. -/
def closeBlocks (column : Int) : List Int → Lexer → Lexer
  | [], l => l
  | i :: outer, l =>
    if column < l.indent then
      closeBlocks column outer ({ l with indent := i, outer }.push .blockEnd)
    else l

/-- Closes the blocks that lie further in than a column. -/
def dedentTo (l : Lexer) (column : Int) : Lexer :=
  if l.inFlow then l else closeBlocks column l.outer l

/-! ### Tokens -/

/-- Ends all blocks before a mark that stands outside every document. -/
def leave? (l : Lexer) : Option Lexer := do
  let l ← (l.dedentTo (-1)).dropKey?
  return l.allowKey false

/-- Reads a directive. -/
def directive? (l : Lexer) : Option Lexer := do
  let l ← l.leave?
  let (t, cursor) ← Token.directive? l.cursor
  return { l with cursor }.push t

/-- Reads an opening bracket. -/
def openFlow? (l : Lexer) (t : Token) : Option Lexer := do
  let l ← l.saveKey?
  return ({ l with candidates := none :: l.candidates }.allowKey true).mark 1 t

/-- Reads a closing bracket. -/
def closeFlow? (l : Lexer) (t : Token) : Option Lexer := do
  let l ← l.dropKey?
  let candidates := if l.inFlow then l.candidates.drop 1 else l.candidates
  return ({ l with candidates }.allowKey false).mark 1 t

/-- Reads a comma. -/
def comma? (l : Lexer) : Option Lexer := do
  let l ← l.dropKey?
  return (l.allowKey true).mark 1 .comma

/-- Opens a block at the current column, where a new one may start. -/
def startBlock? (l : Lexer) (t : Token) : Option Lexer :=
  if l.inFlow then some l
  else if l.keyAllowed then some (l.indentTo l.cursor.column l.tokens.size t)
  else none

/-- Reads a hyphen before an item. -/
def entry? (l : Lexer) : Option Lexer := do
  let l ← (← l.startBlock? .blockSequence).dropKey?
  return (l.allowKey true).mark 1 .entry

/-- Reads a question mark before a key. -/
def key? (l : Lexer) : Option Lexer := do
  let l ← (← l.startBlock? .blockMapping).dropKey?
  return (l.allowKey (!l.inFlow)).mark 1 .key

/-- Reads a colon before a value.  If a key may have started, it has. -/
def value? (l : Lexer) : Option Lexer :=
  match l.candidates with
  | some k :: rest =>
    let l := ({ l with candidates := none :: rest }.insert k.token .key).indentTo
      k.place.column k.token .blockMapping
    some ((l.allowKey false).mark 1 .value)
  | _ => do
    let l ← l.startBlock? .blockMapping
    return (l.allowKey (!l.inFlow)).mark 1 .value

/-- Reads a token that can be the start of a key. -/
def keyPart? (l : Lexer) (read? : Cursor → Option (Token × Cursor)) : Option Lexer := do
  let l ← l.saveKey?
  let (t, cursor) ← read? l.cursor
  return ({ l with cursor }.allowKey false).push t

/-- Reads a name behind its mark. -/
def named? (t : String → Token) (c : Cursor) : Option (Token × Cursor) :=
  (Token.name? (c.advance 1)).map fun (name, c) => (t name, c)

/-- Reads a block scalar. -/
def block? (l : Lexer) (folded : Bool) : Option Lexer := do
  let l ← l.dropKey?
  let (t, cursor) ← Token.block? folded l.indent l.cursor
  return ({ l with cursor }.allowKey true).push t

/-- Reads a plain scalar.  A key may start after one that a line break follows. -/
def plain? (l : Lexer) : Option Lexer := do
  let l ← l.saveKey?
  let (t, broken, cursor) ← Token.plain? l.inFlow l.indent l.cursor
  return ({ l with cursor }.allowKey broken).push t

/-- Reads the token that comes next. -/
def token? (l : Lexer) : Option Lexer :=
  let c := l.cursor
  let flow := l.inFlow
  match c.peek? with
  | none => none
  | some ch =>
    if c.column = 0 && ch == '%' then l.directive?
    else if c.seesDocumentMark then
      l.leave?.map (·.mark 3 (if ch == '-' then .documentStart else .documentEnd))
    else if ch = '[' then l.openFlow? .openBracket
    else if ch = '{' then l.openFlow? .openBrace
    else if ch = ']' then l.closeFlow? .closeBracket
    else if ch = '}' then l.closeFlow? .closeBrace
    else if ch = ',' then l.comma?
    else if ch = '-' && c.blankAfter 1 then l.entry?
    else if ch = '?' && (flow || c.blankAfter 1) then l.key?
    else if ch = ':' && (flow || c.blankAfter 1) then l.value?
    else if ch = '*' then l.keyPart? (named? .reference)
    else if ch = '&' then l.keyPart? (named? .anchor)
    else if ch = '!' then l.keyPart? (Token.tag? flow)
    else if (ch = '|' ∨ ch = '>') && !flow then l.block? (ch == '>')
    else if ch = '\'' ∨ ch = '"' then l.keyPart? (Token.quoted? ch)
    else if Token.startsPlain flow c then l.plain?
    else none

/-- Reads all tokens that are left.  `fuel` bounds their number and that of the lines, since each of
them takes up a character. -/
def run? : Nat → Lexer → Option Lexer
  | 0, _ => none
  | fuel + 1, l => do
    let l ← (skipSpace (fuel + 1) l).dropStale?
    let l := l.dedentTo l.cursor.column
    if l.cursor.rest.isEmpty then l.leave? else run? fuel (← l.token?)

end Lexer

/-- A character that may stand in a text. -/
def isPrintable (c : Char) : Bool :=
  let n := c.toNat
  n == 9 || n == 10 || n == 13 || (0x20 ≤ n && n ≤ 0x7E) || n == 0x85 ||
    (0xA0 ≤ n && n ≤ 0xFFFD) || 0x10000 ≤ n

/-- The tokens of a text. -/
def tokens? (s : String) : Option (List Token) := do
  let cs := s.toList
  if cs.all isPrintable then
    let l ← Lexer.run? (cs.length + 2) { cursor := { rest := cs } }
    return l.tokens.toList
  else none

end Recital.Yaml
