/-!
# Blank characters and lines

The characters that count as blank are those with the Unicode property `White_Space`.  This module
trims them from a text, cuts a text in two at the first of them, and divides a text into lines.
-/

namespace Recital.Text

/-- A character with the Unicode property `White_Space`. -/
def isBlank (c : Char) : Bool :=
  let n := c.toNat
  (9 ≤ n && n ≤ 13) || n == 0x20 || n == 0x85 || n == 0xA0 || n == 0x1680 ||
    (0x2000 ≤ n && n ≤ 0x200A) || n == 0x2028 || n == 0x2029 || n == 0x202F ||
    n == 0x205F || n == 0x3000

/-- The characters after the leading blanks. -/
def dropBlanks (cs : List Char) : List Char :=
  cs.dropWhile isBlank

/-- The characters before the trailing blanks. -/
def dropBlanksEnd (cs : List Char) : List Char :=
  (dropBlanks cs.reverse).reverse

/-- The text after its leading blanks. -/
def trimStart (s : String) : String :=
  String.ofList (dropBlanks s.toList)

/-- The text before its trailing blanks. -/
def trimEnd (s : String) : String :=
  String.ofList (dropBlanksEnd s.toList)

/-- The text without leading and trailing blanks. -/
def trim (s : String) : String :=
  String.ofList (dropBlanksEnd (dropBlanks s.toList))

/-- Some character of the text is blank. -/
def hasBlank (s : String) : Bool :=
  s.toList.any isBlank

/-- The characters before and after the first character that satisfies `p`, if there is one. -/
def cutAt (p : Char → Bool) : List Char → Option (List Char × List Char)
  | [] => none
  | c :: cs => if p c then some ([], cs) else (cutAt p cs).map fun (l, r) => (c :: l, r)

/-- Removes one carriage return from the front. -/
def dropReturn : List Char → List Char
  | '\r' :: cs => cs
  | cs => cs

/-- The lines of `cs`, the current one being held in reverse in `held`. -/
def linesFrom (held : List Char) : List Char → List (List Char)
  | [] => if held.isEmpty then [] else [held.reverse]
  | '\n' :: cs => (dropReturn held).reverse :: linesFrom [] cs
  | c :: cs => linesFrom (c :: held) cs

/-- The lines of a text.  A line ends at a line feed, which is dropped together with a carriage
return directly before it; a line feed at the very end opens no further line. -/
def lines (s : String) : List String :=
  (linesFrom [] s.toList).map String.ofList

/-- `small` occurs in `cs` as a block of consecutive characters. -/
def occursIn (small : List Char) : List Char → Bool
  | [] => small.isEmpty
  | c :: cs => small.isPrefixOf (c :: cs) || occursIn small cs

/-- `part` occurs somewhere in `whole`. -/
def contains (whole part : String) : Bool :=
  occursIn part.toList whole.toList

end Recital.Text
