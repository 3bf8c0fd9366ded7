import Recital.Yaml.Cursor

/-!
# Plain scalars

A scalar without quotes ends at a colon or a comment that follows a blank, at a bracket or comma
where it stands in brackets, and at a line that is not indented far enough.  Line breaks in it are
folded.
-/

namespace Recital.Yaml.Plain

/-- How many characters of a plain scalar come next without a gap.  Inside brackets a colon must not
be followed by a bracket, a comma or a question mark. -/
def wordLength? (flow : Bool) : List Char → Option Nat
  | [] => some 0
  | c :: rest =>
    if isBlank c || isBreak c then some 0
    else if flow && c == ':' && rest.head?.any (fun d => isFlowMark d || d == '?') then none
    else if c == ':' && isBlankOrEnd rest.head? then some 0
    else if flow && isFlowMark c then some 0
    else (wordLength? flow rest).map (· + 1)

/-- Reads a plain scalar that must be indented by `indent`.  The characters read so far are held in
reverse, and a gap may follow them.  Tells as well whether the scalar is followed by a line break.
`fuel` bounds the number of words. -/
def read? (flow : Bool) (indent : Nat) :
    Nat → List Char → Gap → Cursor → Option (List Char × Bool × Cursor)
  | 0, held, gap, c => some (held.reverse, gap.broken, c)
  | fuel + 1, held, gap, c =>
    if c.seesDocumentMark || c.sees '#' then some (held.reverse, gap.broken, c)
    else do
      let n ← wordLength? flow c.rest
      if n = 0 then some (held.reverse, gap.broken, c)
      else
        let held := (c.rest.take n).reverse ++ (gap.text.reverse ++ held)
        let c := c.advance n
        let (gap, c) ← Gap.read? indent c.rest.length {} c
        if (gap.blanks.isEmpty && !gap.broken) || (!flow && c.column < indent) then
          some (held.reverse, gap.broken, c)
        else read? flow indent fuel held gap c

end Recital.Yaml.Plain
