import Recital.Json.Reader

/-!
# Reading decimal numbers

The lenient written form of a floating-point number: an optional sign, then digits with an optional
point anywhere among or around them and an optional exponent, or a word for an infinity or for a
number that is none, in any case.
-/

namespace Recital.Decimal

/-- The text in lower case, as far as the letters are those of the Latin alphabet. -/
def lowerCase (cs : List Char) : List Char := cs.map Char.toLower

/-- The number that a word stands for. -/
def word? (negative : Bool) (cs : List Char) : Option Binary64 :=
  match String.ofList (lowerCase cs) with
  | "inf" | "infinity" => some (if negative then .negInfinity else .infinity)
  | "nan" => some .nan
  | _ => none

/-- Reads digits with an optional point and an optional exponent; there must be a digit. -/
def unsigned? (negative : Bool) (cs : List Char) : Option Binary64 := do
  let whole := cs.takeWhile Json.isDigit
  let (fraction, rest) := match cs.dropWhile Json.isDigit with
    | '.' :: r => (r.takeWhile Json.isDigit, r.dropWhile Json.isDigit)
    | r => ([], r)
  if whole.isEmpty && fraction.isEmpty then none
  else
    let (exponent, rest) ← Json.readExponent rest
    if rest.isEmpty then
      some (.ofDecimal negative (Json.digitsValue (whole ++ fraction))
        (exponent.getD 0 - fraction.length))
    else none

/-- Reads a number that takes up the whole text. -/
def read? (cs : List Char) : Option Binary64 :=
  let (negative, body) := match cs with
    | '-' :: r => (true, r)
    | '+' :: r => (false, r)
    | r => (false, r)
  (word? negative body).or (unsigned? negative body)

end Recital.Decimal
