import Recital.Binary64
import Recital.Json.Shape

/-!
# Spans of time

A span is a whole number of nanoseconds, at most a 64-bit word of seconds and a fraction.
-/

namespace Recital

/-- A length of time in nanoseconds. -/
structure Span where
  /-- The number of nanoseconds. -/
  nanos : Nat
deriving DecidableEq

namespace Span

/-- Nanoseconds in a second. -/
def perSecond : Nat := 1000000000

/-- The longest span. -/
def longest : Span := ⟨Nat.pow 2 64 * perSecond - 1⟩

/-- No time at all. -/
def zero : Span := ⟨0⟩

instance : Inhabited Span := ⟨zero⟩

/-- A number of milliseconds. -/
def ofMillis (ms : Nat) : Span := ⟨ms * 1000000⟩

/-- A number of seconds. -/
def ofSeconds (s : Nat) : Span := ⟨s * perSecond⟩

/-- The whole seconds. -/
def secs (d : Span) : Nat := d.nanos / perSecond

/-- The nanoseconds beyond the whole seconds. -/
def subsec (d : Span) : Nat := d.nanos % perSecond

/-- The whole milliseconds. -/
def millis (d : Span) : Nat := d.nanos / 1000000

/-- The span in milliseconds, rounded up. -/
def millisUp (d : Span) : Nat := (d.nanos + 999999) / 1000000

/-- The span in seconds, each part rounded on its own. -/
def seconds (d : Span) : Binary64 :=
  Binary64.addNonneg (Binary64.ofNat d.secs)
    (Binary64.divPositive (Binary64.ofNat d.subsec) (Binary64.ofNat perSecond))

/-- The span nearest to a non-negative number of seconds, a tie going to the even nanosecond; none
when the number is negative, not finite or too large. -/
def ofFloatSeconds? (x : Binary64) : Option Span :=
  if !x.isFinite || (x.isNegative && x.magnitudeBits != 0) then none
  else
    let n := Binary64.roundDiv (x.numerator * perSecond) Binary64.denominator
    if n ≤ longest.nanos then some ⟨n⟩ else none

/-- A number with the given unit size: its integer part, and the fraction without trailing zeros. -/
def inUnit (nanos unit : Nat) (places : Nat) : List Char :=
  let fraction := (Text.padded places (nanos % unit)).reverse.dropWhile (· == '0') |>.reverse
  Text.decimalDigits (nanos / unit) ++ (if fraction.isEmpty then [] else '.' :: fraction)

/-- The span in the largest unit of which it holds at least one. -/
def text (d : Span) : String :=
  let n := d.nanos
  if perSecond ≤ n then String.ofList (inUnit n perSecond 9) ++ "s"
  else if 1000000 ≤ n then String.ofList (inUnit n 1000000 6) ++ "ms"
  else if 1000 ≤ n then String.ofList (inUnit n 1000 3) ++ "µs"
  else String.ofList (Text.decimalDigits n) ++ "ns"

/-- A record of whole seconds and remaining nanoseconds. -/
def toJson (d : Span) : Json :=
  .obj [("secs", .nat d.secs), ("nanos", .nat d.subsec)]

/-- Reads whole seconds and nanoseconds, which may exceed a second.  Other fields are refused. -/
def ofJson? (j : Json) : Option Span := do
  let known ← match j with
    | .obj fields => some (fields.all fun e => e.1 == "secs" || e.1 == "nanos")
    | .arr _ => some true
    | _ => none
  let r ← Json.record? ["secs", "nanos"] j
  let secs ← r.required "secs" Json.word?
  let nanos ← r.required "nanos" Json.word32?
  let total := secs * perSecond + nanos
  if known && total ≤ longest.nanos then some ⟨total⟩ else none

end Span

end Recital
