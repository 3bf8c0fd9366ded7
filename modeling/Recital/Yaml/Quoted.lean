import Recital.Text.Numeral
import Recital.Yaml.Cursor

/-!
# Quoted scalars

A scalar in single quotes holds its characters as they are, a quote being written twice.  In double
quotes a backslash starts an escape.  In both, line breaks are folded.
-/

namespace Recital.Yaml.Quoted

/-- The character of an escape of one letter. -/
def letter? : Char → Option Char
  | '0' => some (Char.ofNat 0)
  | 'a' => some (Char.ofNat 7)
  | 'b' => some (Char.ofNat 8)
  | 't' => some '\t'
  | '\t' => some '\t'
  | 'n' => some '\n'
  | 'v' => some (Char.ofNat 11)
  | 'f' => some (Char.ofNat 12)
  | 'r' => some '\r'
  | 'e' => some (Char.ofNat 27)
  | ' ' => some ' '
  | '"' => some '"'
  | '/' => some '/'
  | '\\' => some '\\'
  | 'N' => some (Char.ofNat 0x85)
  | '_' => some (Char.ofNat 0xA0)
  | 'L' => some (Char.ofNat 0x2028)
  | 'P' => some (Char.ofNat 0x2029)
  | _ => none

/-- How many hexadecimal digits follow a letter. -/
def width? : Char → Option Nat
  | 'x' => some 2
  | 'u' => some 4
  | 'U' => some 8
  | _ => none

/-- The character with a number, unless that denotes half of a pair or none at all. -/
def ofNumber? (n : Nat) : Option Char := if n.isValidChar then some (Char.ofNat n) else none

/-- The character of the escape whose letter and digits come next, and how many characters it takes
up. -/
def escape? : List Char → Option (Char × Nat)
  | [] => none
  | c :: rest =>
    match letter? c with
    | some ch => some (ch, 1)
    | none => do
      let width ← width? c
      let digits := rest.take width
      if digits.length = width then
        let ch ← (Text.readHexDigits 0 digits).bind ofNumber?
        some (ch, width + 1)
      else none

/-- Reads up to the closing quote.  The characters read so far are held in reverse, and `fuel`
bounds the number of parts. -/
def read? (quote : Char) : Nat → List Char → Cursor → Option (List Char × Cursor)
  | 0, _, _ => none
  | fuel + 1, held, c =>
    let pass (g : Gap) (c : Cursor) : Option (List Char × Cursor) := do
      let (g, c) ← g.read? 0 c.rest.length c
      read? quote fuel (g.text.reverse ++ held) c
    if c.seesDocumentMark then none
    else match c.rest with
      | [] => none
      | ch :: rest =>
        if isBlank ch || isBreak ch then pass {} c
        else if ch == quote then
          if quote == '\'' && rest.head? == some '\'' then
            read? quote fuel ('\'' :: held) (c.advance 2)
          else some (held.reverse, c.advance 1)
        else if quote == '"' && ch == '\\' then
          if rest.head?.any isBreak then pass { broken := true } (c.advance 1).skipBreak
          else do
            let (e, n) ← escape? rest
            read? quote fuel (e :: held) (c.advance (n + 1))
        else read? quote fuel (ch :: held) (c.advance 1)

end Recital.Yaml.Quoted
