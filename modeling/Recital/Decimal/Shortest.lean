import Recital.Binary64

/-!
# Shortest decimal text of a binary number

The decimal text of a finite number uses the fewest significant digits that still read back as the
number, and among the decimals with that many digits the one nearest to it.  Which of two equally
near decimals is taken, and how the digits are laid out (positional or scientific notation), is
decided by a `Layout`.
-/

namespace Recital.Decimal

/-- A positive decimal `digits * 10 ^ exponent`. -/
structure Scaled where
  /-- The significant digits as one number. -/
  digits : Nat
  /-- The power of ten that they are multiplied with. -/
  exponent : Int
deriving DecidableEq

namespace Scaled

/-- The decimal without trailing zeros in its digits; `fuel` bounds how many are removed. -/
def strip : Nat → Scaled → Scaled
  | 0, d => d
  | fuel + 1, d =>
    if d.digits ≠ 0 ∧ d.digits % 10 = 0 then strip fuel ⟨d.digits / 10, d.exponent + 1⟩ else d

/-- The decimal reads back as the given number. -/
def readsAs (d : Scaled) (x : Binary64) : Bool :=
  (Binary64.ofDecimal false d.digits d.exponent).bits == x.bits

end Scaled

/-- Which of two decimals is taken that are equally near. -/
inductive Tie
  /-- The one whose last digit is even. -/
  | even
  /-- The one of the greater magnitude. -/
  | away
deriving DecidableEq

/-- The upper one of the decimals `low` and `low + 1` is taken, given how the remainder beyond `low`
compares with one half. -/
def Tie.upper (tie : Tie) (low : Nat) : Ordering → Bool
  | .lt => false
  | .gt => true
  | .eq => tie = .away || low % 2 == 1

/-- The integer part of `num / den * 10 ^ shift`, and how the remainder compares with one half. -/
def neighbours (num den : Nat) (shift : Int) : Nat × Ordering :=
  let n := if 0 ≤ shift then num * Nat.pow 10 shift.toNat else num
  let d := if 0 ≤ shift then den else den * Nat.pow 10 (-shift).toNat
  (n / d, compare (2 * (n % d)) d)

/-- A decimal with the given exponent that reads back as the positive number `x`: the nearer of the
two neighbours of `x` if it does, else the other one. -/
def onGrid (tie : Tie) (x : Binary64) (exponent : Int) : Option Scaled :=
  let (low, half) := neighbours x.numerator Binary64.denominator (-exponent)
  let below : Scaled := ⟨low, exponent⟩
  let above : Scaled := ⟨low + 1, exponent⟩
  let (first, second) := if tie.upper low half then (above, below) else (below, above)
  if first.readsAs x then some first else if second.readsAs x then some second else none

/-- Tries ever finer grids, starting with the exponent `start`. -/
def search (tie : Tie) (x : Binary64) : Nat → Int → Scaled
  | 0, start => ⟨(neighbours x.numerator Binary64.denominator (-start)).1, start⟩
  | fuel + 1, start => (onGrid tie x start).getD (search tie x fuel (start - 1))

/-- The least number `k` with `x < 10 ^ k`, up to one; `x` is positive. -/
def magnitude (x : Binary64) : Int :=
  let whole := x.numerator / Binary64.denominator
  if 0 < whole then (Text.decimalDigits whole).length
  else
    let inverse := Binary64.denominator / x.numerator
    1 - ((Text.decimalDigits inverse).length : Int)

/-- The shortest decimal that reads back as the positive finite number `x`. -/
def shortest (tie : Tie) (x : Binary64) : Scaled :=
  (search tie x 18 (magnitude x)).strip 20

/-- How a number becomes text. -/
structure Layout where
  /-- Which of two equally near decimals is written. -/
  tie : Tie
  /-- Positional notation is used when the decimal exponent of the first digit is at least this. -/
  leastPositional : Int
  /-- Positional notation is used when the decimal exponent of the first digit is below this. -/
  positionalBound : Int
  /-- A whole number is followed by `.0` in positional notation. -/
  pointZero : Bool
  /-- A positive exponent is written with a plus sign. -/
  plusExponent : Bool
  /-- The text of infinity. -/
  infinite : String
  /-- The text of a NaN. -/
  notANumber : String

/-- Positional notation: a point inside the digits, or zeros around them. -/
def Scaled.positional (layout : Layout) (d : Scaled) : List Char :=
  let ds := Text.decimalDigits d.digits
  let tail := if layout.pointZero then ['.', '0'] else []
  if 0 ≤ d.exponent then ds ++ List.replicate d.exponent.toNat '0' ++ tail
  else
    let places := (-d.exponent).toNat
    if places < ds.length then
      ds.take (ds.length - places) ++ '.' :: ds.drop (ds.length - places)
    else '0' :: '.' :: List.replicate (places - ds.length) '0' ++ ds

/-- Scientific notation: one digit, the others behind a point, and the exponent. -/
def Scaled.scientific (layout : Layout) (d : Scaled) : List Char :=
  let ds := Text.decimalDigits d.digits
  let e : Int := d.exponent + (ds.length - 1 : Nat)
  let body := match ds with
    | [] => []
    | [c] => [c]
    | c :: cs => c :: '.' :: cs
  let sign := if e < 0 then ['-'] else if layout.plusExponent then ['+'] else []
  body ++ 'e' :: sign ++ Text.decimalDigits e.natAbs

/-- The text of a positive decimal. -/
def Scaled.text (layout : Layout) (d : Scaled) : List Char :=
  let first : Int := d.exponent + ((Text.decimalDigits d.digits).length - 1 : Nat)
  if layout.leastPositional ≤ first ∧ first < layout.positionalBound then d.positional layout
  else d.scientific layout

/-- The text of a number under a layout. -/
def Layout.render (layout : Layout) (x : Binary64) : String :=
  if x.isNaN then layout.notANumber
  else
    let sign := if x.isNegative then ['-'] else []
    if !x.isFinite then String.ofList sign ++ layout.infinite
    else if x.magnitudeBits = 0 then
      String.ofList (sign ++ '0' :: if layout.pointZero then ['.', '0'] else [])
    else
      String.ofList (sign ++ (shortest layout.tie (Binary64.ofNatBits x.magnitudeBits)).text layout)

/-- Numbers in messages are always positional, and whole numbers have no point. -/
def plain : Layout where
  tie := .away
  leastPositional := -400
  positionalBound := 400
  pointZero := false
  plusExponent := false
  infinite := "inf"
  notANumber := "NaN"

end Recital.Decimal
