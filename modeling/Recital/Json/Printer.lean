import Recital.Json.Basic
import Recital.Decimal.Shortest

/-!
# JSON text

Two written forms of a JSON value: the compact one on a single line, and the spread one with one
item or field a line and two spaces of indentation for each level.
-/

namespace Recital.Json

/-- Numbers in JSON text are positional from `0.00001` up to sixteen digits before the point, keep a
point, and sign a large exponent. -/
def numberLayout : Decimal.Layout where
  tie := .even
  leastPositional := -5
  positionalBound := 16
  pointZero := true
  plusExponent := true
  infinite := "null"
  notANumber := "null"

/-- The text of a number. -/
def Number.render : Number → List Char
  | .integer (.ofNat n) => Text.decimalDigits n
  | .integer (.negSucc n) => '-' :: Text.decimalDigits (n + 1)
  | .real x => if x.isFinite then (numberLayout.render x).toList else ['n', 'u', 'l', 'l']

/-- An escape of four hexadecimal digits. -/
def unicodeEscape (n : Nat) : List Char := ['\\', 'u'] ++ Text.hexDigits 4 n

/-- A character inside a quoted text: quotes, backslashes and control characters are escaped. -/
def escape (c : Char) : List Char :=
  if c = '"' then ['\\', '"']
  else if c = '\\' then ['\\', '\\']
  else if c = '\n' then ['\\', 'n']
  else if c = '\r' then ['\\', 'r']
  else if c = '\t' then ['\\', 't']
  else if c.toNat = 8 then ['\\', 'b']
  else if c.toNat = 12 then ['\\', 'f']
  else if c.toNat < 32 then unicodeEscape c.toNat
  else [c]

/-- A quoted text. -/
def quote (s : String) : List Char :=
  '"' :: s.toList.flatMap escape ++ ['"']

/-- The text of a truth value. -/
def boolText (b : Bool) : List Char :=
  if b then ['t', 'r', 'u', 'e'] else ['f', 'a', 'l', 's', 'e']

mutual

/-- The compact text of a value. -/
def renderChars : Json → List Char
  | .null => ['n', 'u', 'l', 'l']
  | .bool b => boolText b
  | .num n => n.render
  | .str s => quote s
  | .arr [] => ['[', ']']
  | .arr (j :: rest) => '[' :: renderChars j ++ renderItems rest
  | .obj [] => ['{', '}']
  | .obj ((k, j) :: rest) => '{' :: quote k ++ ':' :: renderChars j ++ renderFields rest

/-- The items after the first one, and the closing bracket. -/
def renderItems : List Json → List Char
  | [] => [']']
  | j :: rest => ',' :: renderChars j ++ renderItems rest

/-- The fields after the first one, and the closing brace. -/
def renderFields : List (String × Json) → List Char
  | [] => ['}']
  | (k, j) :: rest => ',' :: quote k ++ ':' :: renderChars j ++ renderFields rest

end

/-- The compact text of a value. -/
def render (j : Json) : String := String.ofList (renderChars j)

/-- A character of a text in which only ASCII may stand; others become one or two escapes. -/
def asciiChars (c : Char) : List Char :=
  let n := c.toNat
  if n < 0x80 then [c]
  else if n < 0x10000 then unicodeEscape n
  else
    unicodeEscape (0xD800 + (n - 0x10000) / 0x400) ++ unicodeEscape (0xDC00 + (n - 0x10000) % 0x400)

/-- The compact text of a value in ASCII. -/
def renderAscii (j : Json) : String := String.ofList ((renderChars j).flatMap asciiChars)

/-- A line feed and the indentation of a level. -/
def newline (level : Nat) : List Char :=
  '\n' :: List.replicate (2 * level) ' '

mutual

/-- The spread text of a value that stands at the given level. -/
def spreadChars (level : Nat) : Json → List Char
  | .null => ['n', 'u', 'l', 'l']
  | .bool b => boolText b
  | .num n => n.render
  | .str s => quote s
  | .arr [] => ['[', ']']
  | .arr (j :: rest) =>
    '[' :: newline (level + 1) ++ spreadChars (level + 1) j ++ spreadItems level rest
  | .obj [] => ['{', '}']
  | .obj ((k, j) :: rest) =>
    '{' :: newline (level + 1) ++ quote k ++ [':', ' '] ++ spreadChars (level + 1) j ++
      spreadFields level rest

/-- The items after the first one, and the closing bracket on a line of its own. -/
def spreadItems (level : Nat) : List Json → List Char
  | [] => newline level ++ [']']
  | j :: rest => ',' :: newline (level + 1) ++ spreadChars (level + 1) j ++ spreadItems level rest

/-- The fields after the first one, and the closing brace on a line of its own. -/
def spreadFields (level : Nat) : List (String × Json) → List Char
  | [] => newline level ++ ['}']
  | (k, j) :: rest =>
    ',' :: newline (level + 1) ++ quote k ++ [':', ' '] ++ spreadChars (level + 1) j ++
      spreadFields level rest

end

/-- The spread text of a value. -/
def spread (j : Json) : String := String.ofList (spreadChars 0 j)

end Recital.Json
