import Recital.Json.Draft

/-!
# Reading JSON text

The reader accepts one value surrounded by spaces, tabs and line breaks, and drafts it.  In the
parts that are looked at, arrays and objects may nest only to a given depth, a `\u` escape may not
denote half of a surrogate pair, and a number must round to a finite one.  Integers that fit a
64-bit word stay integers.
-/

namespace Recital.Json

/-- How deep arrays and objects may nest. -/
def depthLimit : Nat := 127

/-- The characters that may surround a token. -/
def isSpace (c : Char) : Bool := c == ' ' || c == '\t' || c == '\n' || c == '\r'

/-- What follows the leading spaces. -/
def skipSpace (cs : List Char) : List Char := cs.dropWhile isSpace

/-- A decimal digit. -/
def isDigit (c : Char) : Bool := '0' ≤ c && c ≤ '9'

/-- The value of a list of decimal digits. -/
def digitsValue (ds : List Char) : Nat :=
  ds.foldl (fun n c => 10 * n + (c.toNat - '0'.toNat)) 0

/-- The leading digits, at least one, and the rest. -/
def readDigits1 (cs : List Char) : Option (List Char × List Char) :=
  match cs.takeWhile isDigit with
  | [] => none
  | ds => some (ds, cs.dropWhile isDigit)

/-- The integer part of a number: a zero alone, or digits that do not start with a zero. -/
def readInteger (cs : List Char) : Option (List Char × List Char) := do
  let (ds, rest) ← readDigits1 cs
  match ds with
  | '0' :: _ :: _ => none
  | _ => some (ds, rest)

/-- The digits behind a point; none when there is no point. -/
def readFraction : List Char → Option (List Char × List Char)
  | '.' :: cs => readDigits1 cs
  | cs => some ([], cs)

/-- The exponent; `none` inside when there is none. -/
def readExponent : List Char → Option (Option Int × List Char)
  | c :: cs =>
    if c = 'e' ∨ c = 'E' then
      let (negative, digits) := match cs with
        | '-' :: r => (true, r)
        | '+' :: r => (false, r)
        | r => (false, r)
      (readDigits1 digits).map fun (ds, rest) =>
        (some (if negative then -(digitsValue ds : Int) else (digitsValue ds : Int)), rest)
    else some (none, c :: cs)
  | [] => some (none, [])

/-- A finite real number. -/
def realNumber (negative : Bool) (digits : Nat) (exponent : Int) : Option Number :=
  let x := Binary64.ofDecimal negative digits exponent
  if x.isFinite then some (.real x) else none

/-- The number of an integer text: an integer where a 64-bit word holds it, except that a negative
zero is a real number. -/
def integerNumber (negative : Bool) (n : Nat) : Option Number :=
  if negative then
    if n = 0 ∨ Nat.pow 2 63 < n then realNumber true n 0 else some (.integer (-n))
  else if n < Nat.pow 2 64 then some (.integer n)
  else realNumber false n 0

/-- Reads a number; `none` inside when it does not round to a finite one. -/
def readNumber (cs : List Char) : Option (Option Number × List Char) := do
  let (negative, cs) := match cs with
    | '-' :: r => (true, r)
    | r => (false, r)
  let (whole, cs) ← readInteger cs
  let (fraction, cs) ← readFraction cs
  let (exponent, cs) ← readExponent cs
  let number :=
    if fraction.isEmpty && exponent.isNone then integerNumber negative (digitsValue whole)
    else
      realNumber negative (digitsValue (whole ++ fraction))
        (exponent.getD 0 - fraction.length)
  return (number, cs)

/-- The value of four hexadecimal digits. -/
def hex4 (a b c d : Char) : Option Nat := Text.readHexDigits 0 [a, b, c, d]

/-- The character of a one-letter escape. -/
def simpleEscape (c : Char) : Option Char :=
  if c = '"' ∨ c = '\\' ∨ c = '/' then some c
  else if c = 'b' then some (Char.ofNat 8)
  else if c = 'f' then some (Char.ofNat 12)
  else if c = 'n' then some '\n'
  else if c = 'r' then some '\r'
  else if c = 't' then some '\t'
  else none

/-- The first code unit of a surrogate pair. -/
def isHighSurrogate (n : Nat) : Bool := 0xD800 ≤ n && n < 0xDC00

/-- The second code unit of a surrogate pair. -/
def isLowSurrogate (n : Nat) : Bool := 0xDC00 ≤ n && n < 0xE000

/-- The character of a surrogate pair. -/
def pairedChar (high low : Nat) : Char :=
  Char.ofNat (0x10000 + (high - 0xD800) * 0x400 + (low - 0xDC00))

/-- The part of a quoted text that is already read. -/
structure Quote where
  /-- The characters in reverse; none once half of a surrogate pair was left alone. -/
  chars : Option (List Char) := some []
  /-- The first code unit of a pair that is waiting for the second. -/
  high : Option Nat := none

namespace Quote

/-- The characters, given that no code unit follows. -/
def settled (q : Quote) : Option (List Char) := if q.high.isNone then q.chars else none

/-- Adds a character. -/
def push (q : Quote) (c : Char) : Quote := ⟨q.settled.map (c :: ·), none⟩

/-- Adds a code unit. -/
def pushUnit (q : Quote) (n : Nat) : Quote :=
  if isHighSurrogate n then ⟨q.settled, some n⟩
  else if isLowSurrogate n then ⟨q.high.bind fun h => q.chars.map (pairedChar h n :: ·), none⟩
  else q.push (Char.ofNat n)

/-- The text, unless it holds half of a surrogate pair. -/
def text? (q : Quote) : Option String := q.settled.map fun cs => String.ofList cs.reverse

end Quote

/-- Reads up to the closing quote. -/
def readQuoted (q : Quote) : List Char → Option (Option String × List Char)
  | [] => none
  | '"' :: rest => some (q.text?, rest)
  | '\\' :: 'u' :: a :: b :: c :: d :: rest =>
    match hex4 a b c d with
    | none => none
    | some n => readQuoted (q.pushUnit n) rest
  | '\\' :: c :: rest =>
    match simpleEscape c with
    | none => none
    | some c => readQuoted (q.push c) rest
  | c :: rest => if c = '\\' ∨ c.toNat < 32 then none else readQuoted (q.push c) rest

/-- Reads a quoted text whose opening quote is already consumed; `none` inside when it holds half of
a surrogate pair. -/
def readText (cs : List Char) : Option (Option String × List Char) := readQuoted {} cs

/-- Consumes the given character after spaces. -/
def expect (c : Char) (cs : List Char) : Option (List Char) :=
  match skipSpace cs with
  | d :: rest => if d = c then some rest else none
  | [] => none

/-- Consumes the given word. -/
def expectWord : List Char → List Char → Option (List Char)
  | [], cs => some cs
  | w :: ws, c :: cs => if w = c then expectWord ws cs else none
  | _ :: _, [] => none

mutual

/-- Reads a value. -/
def readValue : Nat → List Char → Option (Draft × List Char)
  | 0, _ => none
  | fuel + 1, cs =>
    match skipSpace cs with
    | [] => none
    | '"' :: rest => (readText rest).map fun (s, rest) => (.str s, rest)
    | '[' :: rest =>
      match skipSpace rest with
      | ']' :: rest => some (.arr [], rest)
      | rest => readItems fuel [] rest
    | '{' :: rest =>
      match skipSpace rest with
      | '}' :: rest => some (.obj [], rest)
      | rest => readFields fuel [] rest
    | 'n' :: rest => (expectWord ['u', 'l', 'l'] rest).map fun rest => (.null, rest)
    | 't' :: rest => (expectWord ['r', 'u', 'e'] rest).map fun rest => (.bool true, rest)
    | 'f' :: rest => (expectWord ['a', 'l', 's', 'e'] rest).map fun rest => (.bool false, rest)
    | rest => (readNumber rest).map fun (n, rest) => (.num n, rest)

/-- Reads the remaining items of an array, at least one; earlier ones are held in reverse. -/
def readItems : Nat → List Draft → List Char → Option (Draft × List Char)
  | 0, _, _ => none
  | fuel + 1, held, cs => do
    let (d, cs) ← readValue fuel cs
    match skipSpace cs with
    | ',' :: rest => readItems fuel (d :: held) rest
    | ']' :: rest => some (.arr (d :: held).reverse, rest)
    | _ => none

/-- Reads the remaining fields of an object, at least one; earlier ones are held in reverse. -/
def readFields : Nat → List (Option String × Draft) → List Char → Option (Draft × List Char)
  | 0, _, _ => none
  | fuel + 1, held, cs => do
    let cs ← expect '"' cs
    let (k, cs) ← readText cs
    let cs ← expect ':' cs
    let (d, cs) ← readValue fuel cs
    match skipSpace cs with
    | ',' :: rest => readFields fuel ((k, d) :: held) rest
    | '}' :: rest => some (.obj ((k, d) :: held).reverse, rest)
    | _ => none

end

/-- The draft of a text that is one value. -/
def draft? (s : String) : Option Draft := do
  let cs := s.toList
  let (d, rest) ← readValue (cs.length + 1) cs
  if (skipSpace rest).isEmpty then some d else none

/-- Reads a text that is one value nesting at most `depth` levels. -/
def readDeep? (depth : Nat) (s : String) : Option Json :=
  (draft? s).bind fun d => d.value? .all depth

/-- Reads the parts of interest of a text that is one value. -/
def readFor? (interest : Interest) (s : String) : Option Json :=
  (draft? s).bind fun d => d.value? interest depthLimit

/-- Reads a text that is one value. -/
def read? (s : String) : Option Json := readFor? .all s

/-- Reads a text that is one value, in normal form. -/
def parse? (s : String) : Option Json := (read? s).map normalize

end Recital.Json
