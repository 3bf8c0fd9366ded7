import Recital.Text.Numeral
import Recital.Yaml.Block
import Recital.Yaml.Plain
import Recital.Yaml.Quoted

/-!
# YAML tokens

The tokens of a YAML text, and the readers of those that consist of more than a mark: anchors and
aliases, tags, directives and scalars.
-/

namespace Recital.Yaml

/-- A token. -/
inductive Token
  /-- The version that a document is written for. -/
  | version (major minor : Nat)
  /-- An abbreviation for the start of tags. -/
  | handle (name : String) (start : List UInt8)
  | documentStart
  | documentEnd
  | blockSequence
  | blockMapping
  /-- The end of a sequence or mapping that is shown by indentation. -/
  | blockEnd
  | openBracket
  | closeBracket
  | openBrace
  | closeBrace
  /-- A hyphen before an item. -/
  | entry
  /-- A comma. -/
  | comma
  /-- What follows is a key. -/
  | key
  /-- What follows is the value of a key. -/
  | value
  | reference (name : String)
  | anchor (name : String)
  /-- A tag, divided into a handle and the rest; a full tag has no handle. -/
  | tag (handle : String) (rest : List UInt8)
  | scalar (plain : Bool) (text : String)
deriving DecidableEq

namespace Token

/-- Reads the name of an anchor or alias, which something other than a name must follow. -/
def name? (c : Cursor) : Option (String × Cursor) :=
  let (name, c) := c.span isNameChar
  if name.isEmpty then none
  else if c.blankAfter 0 ||
      c.peek?.any (['?', ':', ',', ']', '}', '%', '@', Char.ofNat 0x60].contains ·) then
    some (String.ofList name, c)
  else none

/-! ### Tags -/

/-- A character of a tag.  Commas and brackets belong to it only where it is written in full. -/
def isTagChar (full : Bool) (c : Char) : Bool :=
  isNameChar c ||
    [';', '/', '?', ':', '@', '&', '=', '+', '$', '.', '%', '!', '~', '*', '\'', '(', ')'].contains
      c || (full && [',', '[', ']'].contains c)

/-- How many bytes must follow an escaped byte, where `due` of them were to come. -/
def dueAfter? (due byte : Nat) : Option Nat :=
  if 0 < due then if byte / 64 = 2 then some (due - 1) else none
  else if byte < 0x80 then some 0
  else if byte / 32 = 6 then some 1
  else if byte / 16 = 14 then some 2
  else if byte / 8 = 30 then some 3
  else none

/-- Replaces each percent sign and its two hexadecimal digits by the byte they stand for.  A byte
that starts a character must be followed by as many others as it says, `due` of which are still to
come; that they make a character is not asked for. -/
def bytes? (due : Nat) : List Char → Option (List UInt8)
  | [] => if due = 0 then some [] else none
  | '%' :: a :: b :: rest => do
    let n ← Text.readHexDigits 0 [a, b]
    let due ← dueAfter? due n
    return UInt8.ofNat n :: (← bytes? due rest)
  | c :: rest => if c = '%' ∨ due ≠ 0 then none else do
    return (String.singleton c).toUTF8.toList ++ (← bytes? 0 rest)

/-- Reads the rest of a tag, which ends before a zero byte.  The first characters may be known
already; there must be one. -/
def tagRest? (full : Bool) (known : List Char) (c : Cursor) : Option (List UInt8 × Cursor) := do
  let (cs, c) := c.span (isTagChar full)
  let bytes ← bytes? 0 cs
  if known.isEmpty && cs.isEmpty then none
  else some (((String.ofList (known.drop 1)).toUTF8.toList ++ bytes).takeWhile (· != 0), c)

/-- Reads a handle: an exclamation mark, and where they follow a name and a second one. -/
def handle? (c : Cursor) : Option (List Char × Cursor) :=
  if c.sees '!' then
    let (name, c) := (c.advance 1).span isNameChar
    if c.sees '!' then some ('!' :: name ++ ['!'], c.advance 1) else some ('!' :: name, c)
  else none

/-- The handle is complete: it is more than one mark and ends with one. -/
def isNamedHandle (h : List Char) : Bool := 1 < h.length && h.getLast? == some '!'

/-- Reads a tag without its end. -/
def tagBody? (c : Cursor) : Option (Token × Cursor) :=
  if (c.advance 1).sees '<' then do
    let (text, c) ← tagRest? true [] (c.advance 2)
    if c.sees '>' then some (.tag "" text, c.advance 1) else none
  else do
    let (h, c) ← handle? c
    if isNamedHandle h then
      let (text, c) ← tagRest? false [] c
      some (.tag (String.ofList h) text, c)
    else
      let (text, c) ← tagRest? false h c
      some (if text.isEmpty then .tag "" "!".toUTF8.toList else .tag "!" text, c)

/-- Reads a tag, which a blank must follow, or a comma inside brackets. -/
def tag? (flow : Bool) (c : Cursor) : Option (Token × Cursor) := do
  let (t, c) ← tagBody? c
  if c.blankAfter 0 || (flow && c.sees ',') then some (t, c) else none

/-! ### Directives -/

/-- Reads a number of at most nine digits. -/
def number? (c : Cursor) : Option (Nat × Cursor) := do
  let (ds, c) := c.span Char.isDigit
  if ds.length ≤ 9 then
    let n ← Text.readNat ds
    some (n, c)
  else none

/-- Reads the number of a version. -/
def version? (c : Cursor) : Option (Token × Cursor) := do
  let (major, c) ← number? (c.skip isBlank)
  if c.sees '.' then
    let (minor, c) ← number? (c.advance 1)
    some (.version major minor, c)
  else none

/-- Reads a handle and what it stands for. -/
def abbreviation? (c : Cursor) : Option (Token × Cursor) := do
  let (h, c) ← handle? (c.skip isBlank)
  if (h = ['!'] || isNamedHandle h) && c.seesBlank then
    let (text, c) ← tagRest? true [] (c.skip isBlank)
    if c.blankAfter 0 then some (.handle (String.ofList h) text, c) else none
  else none

/-- Reads a directive, which takes up a line. -/
def directive? (c : Cursor) : Option (Token × Cursor) := do
  let (name, c) := (c.advance 1).span isNameChar
  if !c.blankAfter 0 then none
  else
    let (t, c) ← match String.ofList name with
      | "YAML" => version? c
      | "TAG" => abbreviation? c
      | _ => none
    let c ← c.skipLineEnd?
    some (t, c)

/-! ### Scalars -/

/-- Reads a scalar in quotes. -/
def quoted? (quote : Char) (c : Cursor) : Option (Token × Cursor) := do
  let (cs, c) ← Quoted.read? quote c.rest.length [] (c.advance 1)
  return (.scalar false (String.ofList cs), c)

/-- Reads a block scalar. -/
def block? (folded : Bool) (indent : Int) (c : Cursor) : Option (Token × Cursor) := do
  let (cs, c) ← Block.read? folded indent (c.advance 1)
  return (.scalar false (String.ofList cs), c)

/-- Reads a plain scalar; tells as well whether a line break follows. -/
def plain? (flow : Bool) (indent : Int) (c : Cursor) : Option (Token × Bool × Cursor) := do
  let (cs, broken, c) ← Plain.read? flow (indent + 1).toNat (c.rest.length + 1) [] {} c
  return (.scalar true (String.ofList cs), broken, c)

/-- A plain scalar can start here. -/
def startsPlain (flow : Bool) (c : Cursor) : Bool :=
  match c.rest with
  | [] => false
  | ch :: rest =>
    if ch = '-' then !rest.head?.any isBlank
    else if ch = '?' ∨ ch = ':' then !flow && !isBlankOrEnd rest.head?
    else !(isBlank ch || isBreak ch || isFlowMark ch ||
      ['#', '&', '*', '!', '|', '>', '\'', '"', '%', '@', Char.ofNat 0x60].contains ch)

end Token

end Recital.Yaml
