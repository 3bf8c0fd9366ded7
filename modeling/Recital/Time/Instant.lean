import Recital.Text.Blank
import Recital.Json.Shape

/-!
# Instants

An instant counts seconds from the start of 1970 in UTC, and nanoseconds within the second; during a
leap second the nanoseconds run past one second.  The text form is a date and a time of day joined
by `T`.
-/

namespace Recital

/-- A point in time. -/
structure Instant where
  /-- Seconds since the start of 1970 in UTC. -/
  seconds : Int
  /-- Nanoseconds within the second, beyond a second inside a leap second. -/
  nanos : Nat
deriving DecidableEq

namespace Instant

/-- The start of 1970. -/
def epoch : Instant := ⟨0, 0⟩

instance : Inhabited Instant := ⟨epoch⟩

/-- The year has a twenty-ninth of February. -/
def isLeapYear (y : Int) : Bool := (y % 4 == 0 && y % 100 != 0) || y % 400 == 0

/-- The number of days of a month. -/
def daysInMonth (y : Int) (m : Nat) : Nat :=
  if m = 2 then (if isLeapYear y then 29 else 28)
  else if m = 4 ∨ m = 6 ∨ m = 9 ∨ m = 11 then 30 else 31

/-- Days from the start of 1970 to a date.  Years are taken to start in March, so that a leap day
ends its year. -/
def daysOfDate (y : Int) (m d : Nat) : Int :=
  let y' := if m ≤ 2 then y - 1 else y
  let era := y' / 400
  let yearOfEra := y' % 400
  let month : Nat := if m ≤ 2 then m + 9 else m - 3
  let dayOfYear : Int := ((153 * month + 2) / 5 + (d - 1) : Nat)
  let dayOfEra := yearOfEra * 365 + yearOfEra / 4 - yearOfEra / 100 + dayOfYear
  era * 146097 + dayOfEra - 719468

/-- The date that lies a number of days after the start of 1970. -/
def dateOfDays (days : Int) : Int × Nat × Nat :=
  let z := days + 719468
  let era := z / 146097
  let dayOfEra := z % 146097
  let yearOfEra :=
    (dayOfEra - dayOfEra / 1460 + dayOfEra / 36524 - dayOfEra / 146096) / 365
  let dayOfYear := dayOfEra - (365 * yearOfEra + yearOfEra / 4 - yearOfEra / 100)
  let month := (5 * dayOfYear + 2) / 153
  let day := dayOfYear - (153 * month + 2) / 5 + 1
  let m := if month < 10 then month + 3 else month - 9
  let y := yearOfEra + era * 400 + (if m ≤ 2 then 1 else 0)
  (y, m.toNat, day.toNat)

/-- The years that a date may lie in. -/
def yearInRange (y : Int) : Bool := -262143 ≤ y && y ≤ 262142

/-! ### Writing -/

/-- A year has at least four digits; outside of them it carries a sign. -/
def yearText (y : Int) : List Char :=
  if 0 ≤ y ∧ y ≤ 9999 then Text.padded 4 y.toNat
  else (if y < 0 then '-' else '+') :: Text.padded 4 y.natAbs

/-- A fraction of a second with zero, three, six or nine digits. -/
def fractionText (n : Nat) : List Char :=
  if n = 0 then []
  else if n % 1000000 = 0 then '.' :: Text.padded 3 (n / 1000000)
  else if n % 1000 = 0 then '.' :: Text.padded 6 (n / 1000)
  else '.' :: Text.padded 9 n

/-- The text of an instant in UTC. -/
def text (t : Instant) : String :=
  let (y, m, d) := dateOfDays (t.seconds / 86400)
  let s := (t.seconds % 86400).toNat
  let leap := t.nanos / 1000000000
  String.ofList <|
    yearText y ++ '-' :: Text.padded 2 m ++ '-' :: Text.padded 2 d ++
      'T' :: Text.padded 2 (s / 3600) ++ ':' :: Text.padded 2 (s / 60 % 60) ++
      ':' :: Text.padded 2 (s % 60 + leap) ++ fractionText (t.nanos % 1000000000) ++ ['Z']

/-! ### Reading -/

/-- Blanks, then between one and `width` digits. -/
def readNumber (width : Nat) (cs : List Char) : Option (Nat × List Char) :=
  let cs := Text.dropBlanks cs
  let ds := (cs.takeWhile fun c => (Text.digitValue? c).isSome).take width
  (Text.readNat ds).map fun n => (n, cs.drop ds.length)

/-- A year: four digits at most, or a sign and any number of digits. -/
def readYear (cs : List Char) : Option (Int × List Char) :=
  match Text.dropBlanks cs with
  | '-' :: rest => (readSigned rest).map fun (n, r) => (-(n : Int), r)
  | '+' :: rest => (readSigned rest).map fun (n, r) => ((n : Int), r)
  | rest => (readNumber 4 rest).map fun (n, r) => ((n : Int), r)
where
  /-- Digits directly behind a sign. -/
  readSigned (rest : List Char) : Option (Nat × List Char) :=
    match rest with
    | c :: _ => if (Text.digitValue? c).isSome then readNumber rest.length rest else none
    | [] => none

/-- Blanks, then the given character. -/
def readMark (mark : Char) (cs : List Char) : Option (List Char) :=
  match Text.dropBlanks cs with
  | c :: rest => if c = mark then some rest else none
  | [] => none

/-- A fraction of a second; digits beyond the ninth are dropped. -/
def readFraction : List Char → Option (Nat × List Char)
  | '.' :: cs =>
    let all := cs.takeWhile fun c => (Text.digitValue? c).isSome
    let ds := all.take 9
    (Text.readNat ds).map fun n => (n * Nat.pow 10 (9 - ds.length), cs.drop all.length)
  | cs => some (0, cs)

/-- Two digits. -/
def readPair : List Char → Option (Nat × List Char)
  | a :: b :: rest => do
    let x ← Text.digitValue? a
    let y ← Text.digitValue? b
    return (10 * x + y, rest)
  | _ => none

/-- A distance from UTC in seconds: `Z`, `UTC`, or a sign with hours and minutes. -/
def readOffset (cs : List Char) : Option (Int × List Char) :=
  match Text.dropBlanks cs with
  | 'Z' :: rest => some (0, rest)
  | 'z' :: rest => some (0, rest)
  | '+' :: rest => readParts 1 rest
  | '-' :: rest => readParts (-1) rest
  | '−' :: rest => readParts (-1) rest
  | a :: b :: c :: rest =>
    if [a.toUpper, b.toUpper, c.toUpper] = ['U', 'T', 'C'] then some (0, rest) else none
  | _ => none
where
  /-- Hours and minutes behind a sign. -/
  readParts (sign : Int) (rest : List Char) : Option (Int × List Char) := do
    let (h, rest) ← readPair rest
    let (m, rest) ← readPair (rest.dropWhile fun c => c == ':' || Text.isBlank c)
    if m < 60 ∧ h < 24 then some (sign * (h * 3600 + m * 60 : Nat), rest) else none

/-- Reads a date, a `T` or a space, a time of day and a distance from UTC.  Blanks may stand before
most of the parts. -/
def ofText? (s : String) : Option Instant := do
  let (y, cs) ← readYear s.toList
  let cs ← readMark '-' cs
  let (mo, cs) ← readNumber 2 cs
  let cs ← readMark '-' cs
  let (d, cs) ← readNumber 2 cs
  let cs ← match cs with
    | c :: rest => if c = 'T' ∨ c = 't' ∨ c = ' ' then some rest else none
    | [] => none
  let (h, cs) ← readNumber 2 cs
  let cs ← readMark ':' cs
  let (mi, cs) ← readNumber 2 cs
  let cs ← readMark ':' cs
  let (sec, cs) ← readNumber 2 cs
  let (n, cs) ← readFraction cs
  let (offset, cs) ← readOffset cs
  let dateFits := yearInRange y && 1 ≤ mo && mo ≤ 12 && 1 ≤ d && d ≤ daysInMonth y mo
  let timeFits := h < 24 && mi < 60 && sec ≤ 60
  if !dateFits || !timeFits || !(Text.dropBlanks cs).isEmpty then none
  let ofDay : Nat := h * 3600 + mi * 60 + min sec 59
  let nanos := if sec = 60 then n + 1000000000 else n
  let t : Instant := ⟨daysOfDate y mo d * 86400 + ofDay - offset, nanos⟩
  if yearInRange (dateOfDays (t.seconds / 86400)).1 then some t else none

/-- An instant is written as its text. -/
def toJson (t : Instant) : Json := .str t.text

/-- Reads the text of an instant. -/
def ofJson? (j : Json) : Option Instant := j.str?.bind ofText?

/-- A number of milliseconds after the start of 1970. -/
def ofMillis (ms : Nat) : Instant := ⟨(ms / 1000 : Nat), ms % 1000 * 1000000⟩

end Instant

end Recital
