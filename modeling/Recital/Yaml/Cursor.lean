/-!
# Places in a YAML text

A cursor is what is left of a text together with where that stands: how many bytes precede it, and
the line and the column.  Six spellings of a line break are known; the end of the text counts
as blank wherever a blank is looked for.
-/

namespace Recital.Yaml

/-- A space or a tab. -/
def isBlank (c : Char) : Bool := c == ' ' || c == '\t'

/-- The line and paragraph separators, which stay as they are where other breaks become one line
feed. -/
def isSeparator (c : Char) : Bool := c.toNat == 0x2028 || c.toNat == 0x2029

/-- A character that ends a line. -/
def isBreak (c : Char) : Bool :=
  c == '\n' || c == '\r' || c.toNat == 0x85 || isSeparator c

/-- A blank, a line break, or the end of the text. -/
def isBlankOrEnd : Option Char → Bool
  | none => true
  | some c => isBlank c || isBreak c

/-- A letter or digit of ASCII, an underscore or a hyphen. -/
def isNameChar (c : Char) : Bool := c.isAlphanum || c == '_' || c == '-'

/-- A bracket or comma that ends a plain scalar inside brackets. -/
def isFlowMark (c : Char) : Bool := [',', '[', ']', '{', '}'].contains c

/-- A place in a text. -/
structure Cursor where
  /-- What is left of the text. -/
  rest : List Char
  /-- How many bytes of UTF-8 precede it. -/
  index : Nat := 0
  /-- The number of the line, from zero. -/
  line : Nat := 0
  /-- How many characters precede it in the line. -/
  column : Nat := 0

namespace Cursor

/-- The next character. -/
def peek? (c : Cursor) : Option Char := c.rest.head?

/-- The next character is the given one. -/
def sees (c : Cursor) (ch : Char) : Bool := c.peek? == some ch

/-- The next character is a space or a tab. -/
def seesBlank (c : Cursor) : Bool := c.peek?.any isBlank

/-- The next character ends the line. -/
def seesBreak (c : Cursor) : Bool := c.peek?.any isBreak

/-- The character after the next `n` ones is a blank, a line break or the end. -/
def blankAfter (c : Cursor) (n : Nat) : Bool := isBlankOrEnd (c.rest.drop n).head?

/-- Passes over `n` characters of the line. -/
def advance (c : Cursor) (n : Nat) : Cursor :=
  { c with
    rest := c.rest.drop n
    index := (c.rest.take n).foldl (fun bytes ch => bytes + ch.utf8Size) c.index
    column := c.column + n }

/-- The characters of the line up to the first one that does not satisfy `p`, and what follows. -/
def span (p : Char → Bool) (c : Cursor) : List Char × Cursor :=
  let taken := c.rest.takeWhile p
  (taken, c.advance taken.length)

/-- Passes over the characters of the line that satisfy `p`. -/
def skip (p : Char → Bool) (c : Cursor) : Cursor := (c.span p).2

/-- Passes over a line break. -/
def skipBreak (c : Cursor) : Cursor :=
  match c.rest with
  | '\r' :: '\n' :: r => { rest := r, index := c.index + 2, line := c.line + 1 }
  | ch :: r => { rest := r, index := c.index + ch.utf8Size, line := c.line + 1 }
  | [] => c

/-- What the line break that comes next stands for in a text. -/
def breakText (c : Cursor) : List Char :=
  match c.rest with
  | ch :: _ => if isSeparator ch then [ch] else ['\n']
  | [] => []

/-- Passes over the rest of the line, which may hold only blanks and a comment, and over its
break. -/
def skipLineEnd? (c : Cursor) : Option Cursor :=
  let c := c.skip isBlank
  let c := if c.sees '#' then c.skip (!isBreak ·) else c
  if c.seesBreak then some c.skipBreak else if c.rest.isEmpty then some c else none

/-- A mark that starts or ends a document stands here. -/
def seesDocumentMark (c : Cursor) : Bool :=
  c.column == 0 && c.blankAfter 3 &&
    (['-', '-', '-'].isPrefixOf c.rest || ['.', '.', '.'].isPrefixOf c.rest)

end Cursor

/-! ### Gaps -/

/-- What stands between two parts of a scalar: blanks within a line, or line breaks. -/
structure Gap where
  /-- The blanks, if there is no break. -/
  blanks : List Char := []
  /-- There is a line break, written out or escaped. -/
  broken : Bool := false
  /-- The text of the first break. -/
  first : List Char := []
  /-- The texts of the further breaks. -/
  further : List Char := []

namespace Gap

/-- What a gap stands for.  A single break becomes a space, and of several the first is dropped,
except that separators are kept. -/
def text (g : Gap) : List Char :=
  if !g.broken then g.blanks
  else if g.first = ['\n'] then if g.further.isEmpty then [' '] else g.further
  else g.first ++ g.further

/-- Reads a gap, of which a part is known already.  A tab that precedes the column `indent` in a
later line is refused.  `fuel` bounds the number of characters. -/
def read? (indent : Nat) : Nat → Gap → Cursor → Option (Gap × Cursor)
  | 0, g, c => some (g, c)
  | fuel + 1, g, c =>
    match c.peek? with
    | none => some (g, c)
    | some ch =>
      if isBlank ch then
        if g.broken && ch == '\t' && c.column < indent then none
        else read? indent fuel (if g.broken then g else { g with blanks := g.blanks ++ [ch] })
          (c.advance 1)
      else if isBreak ch then
        read? indent fuel
          (if g.broken then { g with further := g.further ++ c.breakText }
            else { broken := true, first := c.breakText }) c.skipBreak
      else some (g, c)

end Gap

end Recital.Yaml
