import Recital.Yaml.Cursor

/-!
# Block scalars

A scalar that takes up whole lines, all indented alike.  A literal one keeps its line breaks and a
folded one joins lines that start with no blank.  Its head can say how far it is indented and what
becomes of the breaks at its end.
-/

namespace Recital.Yaml.Block

/-- What becomes of the breaks at the end. -/
inductive Chomping
  /-- The first is kept. -/
  | clip
  /-- None is kept. -/
  | strip
  /-- All are kept. -/
  | keep
deriving DecidableEq

/-- What the head of a block scalar says. -/
structure Head where
  chomping : Chomping := .clip
  /-- How much further the lines are indented than the surroundings, if that is given. -/
  indent : Option Nat := none

/-- Reads the sign for the breaks at the end, if there is one. -/
def chomping (c : Cursor) : Chomping × Cursor :=
  if c.sees '+' then (.keep, c.advance 1)
  else if c.sees '-' then (.strip, c.advance 1)
  else (.clip, c)

/-- Reads a digit for the indentation, if there is one; a zero is refused. -/
def indentation? (c : Cursor) : Option (Option Nat × Cursor) :=
  match c.peek? with
  | some ch =>
    if ch == '0' then none
    else if ch.isDigit then some (some (ch.toNat - '0'.toNat), c.advance 1)
    else some (none, c)
  | none => some (none, c)

/-- Reads the head: a sign and a digit in either order, blanks and a comment. -/
def head? (c : Cursor) : Option (Head × Cursor) := do
  let (first, c) := chomping c
  let (indent, c) ← indentation? c
  let (last, c) := if first = .clip then chomping c else (.clip, c)
  let c ← c.skipLineEnd?
  return ({ chomping := if first = .clip then last else first, indent }, c)

/-- Reads empty lines and the indentation of the line that follows.  While the indentation is not
known, `indent` is zero and all spaces belong to it.  Gives the texts of the breaks and the greatest
column that was reached.  `fuel` bounds the number of lines. -/
def breaks? (indent : Nat) : Nat → List Char → Nat → Cursor → Option (List Char × Nat × Cursor)
  | 0, held, reached, c => some (held, reached, c)
  | fuel + 1, held, reached, c =>
    let spaces := (c.rest.takeWhile (· == ' ')).length
    let c := c.advance (if indent = 0 then spaces else min spaces (indent - c.column))
    let reached := max reached c.column
    if (indent = 0 || c.column < indent) && c.sees '\t' then none
    else if c.seesBreak then breaks? indent fuel (held ++ c.breakText) reached c.skipBreak
    else some (held, reached, c)

/-- The text read so far, in reverse, and the breaks that follow it. -/
structure Body where
  held : List Char := []
  /-- The text of the break that ends the last line. -/
  first : List Char := []
  /-- The texts of the empty lines after it. -/
  further : List Char := []
  /-- The last line starts with a blank. -/
  blankLine : Bool := false

/-- What the breaks before a line stand for that starts with a blank or not. -/
def Body.joint (folded : Bool) (b : Body) (blankLine : Bool) : List Char :=
  if folded && b.first == ['\n'] && !b.blankLine && !blankLine then
    if b.further.isEmpty then [' '] else b.further
  else b.first ++ b.further

/-- Reads the lines that are indented by `indent`.  `fuel` bounds their number. -/
def lines? (folded : Bool) (indent : Nat) : Nat → Body → Cursor → Option (Body × Cursor)
  | 0, b, c => some (b, c)
  | fuel + 1, b, c =>
    if c.column = indent && !c.rest.isEmpty then do
      let blankLine := c.seesBlank
      let joint := b.joint folded blankLine
      let (line, c) := c.span (!isBreak ·)
      let first := c.breakText
      let c := c.skipBreak
      let (further, _, c) ← breaks? indent c.rest.length [] 0 c
      lines? folded indent fuel
        { held := line.reverse ++ (joint.reverse ++ b.held), first, further, blankLine } c
    else some (b, c)

/-- Reads a block scalar whose mark is already passed, in surroundings indented by `outer`. -/
def read? (folded : Bool) (outer : Int) (c : Cursor) : Option (List Char × Cursor) := do
  let (head, c) ← head? c
  let given := match head.indent with
    | some n => (max outer 0).toNat + n
    | none => 0
  let (further, reached, c) ← breaks? given (c.rest.length + 1) [] 0 c
  let indent := if given = 0 then max (max reached (outer + 1).toNat) 1 else given
  let (b, c) ← lines? folded indent c.rest.length { further } c
  let text := b.held.reverse
  return (match head.chomping with
    | .clip => text ++ b.first
    | .strip => text
    | .keep => text ++ b.first ++ b.further, c)

end Recital.Yaml.Block
