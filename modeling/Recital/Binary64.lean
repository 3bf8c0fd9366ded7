import Recital.Text.Numeral

/-!
# Binary floating-point numbers of 64 bits

A number is its bit pattern: a sign, eleven exponent bits and fifty-two fraction bits.  All
arithmetic is exact integer arithmetic followed by one rounding to the nearest number, a tie going
to the even fraction.
-/

namespace Recital

/-- A floating-point number in the 64-bit binary interchange format. -/
structure Binary64 where
  /-- The bit pattern. -/
  bits : UInt64
deriving DecidableEq

namespace Binary64

/-- The weight of the sign bit. -/
def signBit : Nat := Nat.pow 2 63

/-- The pattern of positive infinity; finite magnitudes are below it. -/
def infinityBits : Nat := 0x7FF0000000000000

/-- The number whose pattern is the given natural number. -/
def ofNatBits (n : Nat) : Binary64 := ⟨UInt64.ofNat n⟩

/-- The sign bit is set. -/
def isNegative (x : Binary64) : Bool := signBit ≤ x.bits.toNat

/-- The pattern without the sign bit. -/
def magnitudeBits (x : Binary64) : Nat := x.bits.toNat % signBit

/-- Neither an infinity nor a NaN. -/
def isFinite (x : Binary64) : Bool := x.magnitudeBits < infinityBits

/-- Not a number. -/
def isNaN (x : Binary64) : Bool := infinityBits < x.magnitudeBits

/-- The number `0`, positive. -/
def zero : Binary64 := ⟨0⟩

instance : Inhabited Binary64 := ⟨zero⟩

/-- Positive infinity. -/
def infinity : Binary64 := ofNatBits infinityBits

/-- Negative infinity. -/
def negInfinity : Binary64 := ofNatBits (signBit + infinityBits)

/-- A NaN. -/
def nan : Binary64 := ofNatBits 0x7FF8000000000000

/-- The integer significand `m` of a finite magnitude `m * 2 ^ q`. -/
def significand (x : Binary64) : Nat :=
  let e := x.magnitudeBits / Nat.pow 2 52
  let f := x.magnitudeBits % Nat.pow 2 52
  if e = 0 then f else Nat.pow 2 52 + f

/-- How far the exponent `q` of a finite magnitude `m * 2 ^ q` lies above the least one, `-1074`. -/
def scale (x : Binary64) : Nat :=
  x.magnitudeBits / Nat.pow 2 52 - 1

/-- The numerator of a finite magnitude over the denominator `2 ^ 1074`. -/
def numerator (x : Binary64) : Nat := x.significand * Nat.pow 2 x.scale

/-- The common denominator of all finite magnitudes. -/
def denominator : Nat := Nat.pow 2 1074

/-- The quotient of `num` by `den`, rounded to the nearest integer, a tie to the even one. -/
def roundDiv (num den : Nat) : Nat :=
  let m := num / den
  let r := 2 * (num % den)
  if r < den then m else if den < r then m + 1 else m + m % 2

/-- The magnitude pattern nearest to `num / den`, for a positive `den`.  `scale` is chosen so that
the significand has fifty-three bits where the format allows it. -/
def nearestBits (num den : Nat) : Nat :=
  if num = 0 then 0
  else
    -- `num / den` lies strictly between `2 ^ (up - down - 1)` and `2 ^ (up - down + 1)`.
    let up := num.log2 + 1074
    let down := den.log2
    let low := up - down - 53
    let scaled (s : Nat) : Nat × Nat := (num * Nat.pow 2 1074, den * Nat.pow 2 s)
    let fits := (scaled low).1 / (scaled low).2 < Nat.pow 2 53
    let s := if fits then low else low + 1
    let m := roundDiv (scaled s).1 (scaled s).2
    min (s * Nat.pow 2 52 + m) infinityBits

/-- The number nearest to the quotient of two natural numbers, with the given sign.  Magnitudes too
large for the format become infinite. -/
def ofRatio (negative : Bool) (num den : Nat) : Binary64 :=
  ofNatBits ((if negative then signBit else 0) + nearestBits num den)

/-- The number nearest to a natural number. -/
def ofNat (n : Nat) : Binary64 := ofRatio false n 1

/-- The number nearest to an integer. -/
def ofInt (i : Int) : Binary64 := ofRatio (i < 0) i.natAbs 1

/-- The number nearest to `digits * 10 ^ exponent`.  Exponents far outside the format's range are
settled without raising ten to them. -/
def ofDecimal (negative : Bool) (digits : Nat) (exponent : Int) : Binary64 :=
  let sign := if negative then signBit else 0
  let places : Int := (Text.decimalDigits digits).length + exponent
  if digits = 0 ∨ places < -400 then ofNatBits sign
  else if 400 < places then ofNatBits (sign + infinityBits)
  else if 0 ≤ exponent then ofRatio negative (digits * Nat.pow 10 exponent.toNat) 1
  else ofRatio negative digits (Nat.pow 10 (-exponent).toNat)

/-- The quotient of two finite positive numbers. -/
def divPositive (x y : Binary64) : Binary64 := ofRatio false x.numerator y.numerator

/-- The sum of two finite non-negative numbers. -/
def addNonneg (x y : Binary64) : Binary64 :=
  ofRatio false (x.numerator + y.numerator) denominator

/-- Both numbers are positive or zero, and `x` is at most `y`. -/
def leNonneg (x y : Binary64) : Bool :=
  !x.isNegative && !y.isNegative && !x.isNaN && !y.isNaN && x.magnitudeBits ≤ y.magnitudeBits

/-- The sixteen lower-case hexadecimal digits of the pattern. -/
def hex (x : Binary64) : String := String.ofList (Text.hexDigits 16 x.bits.toNat)

/-- The number whose pattern has the given hexadecimal digits. -/
def ofHex? (s : String) : Option Binary64 := (Text.readHexDigits 0 s.toList).map ofNatBits

end Binary64

end Recital
