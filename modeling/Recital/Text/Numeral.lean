/-!
# Decimal numerals

Natural numbers as text: a lenient reader (an optional plus sign, then digits) with a size limit,
and helpers that print a number with leading zeros or in hexadecimal.
-/

namespace Recital.Text

/-- The largest value of an unsigned 64-bit word. -/
def wordMax : Nat := Nat.pow 2 64 - 1

/-- The value of a decimal digit. -/
def digitValue? (c : Char) : Option Nat :=
  if '0' ≤ c ∧ c ≤ '9' then some (c.toNat - '0'.toNat) else none

/-- Reads digits only, continuing from the value `acc`. -/
def readDigits (acc : Nat) : List Char → Option Nat
  | [] => some acc
  | c :: cs => (digitValue? c).bind fun d => readDigits (10 * acc + d) cs

/-- Reads one or more digits. -/
def readNat : List Char → Option Nat
  | [] => none
  | cs => readDigits 0 cs

/-- Reads an optional plus sign and one or more digits, with a value of at most `wordMax`. -/
def readWord (s : String) : Option Nat :=
  let digits := match s.toList with
    | '+' :: cs => cs
    | cs => cs
  (readNat digits).filter (· ≤ wordMax)

/-- The digit of a value below sixteen, in lower case. -/
def hexDigit (n : Nat) : Char :=
  if n < 10 then Char.ofNat ('0'.toNat + n) else Char.ofNat ('a'.toNat + (n - 10))

/-- The value of a hexadecimal digit in either case. -/
def hexValue? (c : Char) : Option Nat :=
  if '0' ≤ c ∧ c ≤ '9' then some (c.toNat - '0'.toNat)
  else if 'a' ≤ c ∧ c ≤ 'f' then some (c.toNat - 'a'.toNat + 10)
  else if 'A' ≤ c ∧ c ≤ 'F' then some (c.toNat - 'A'.toNat + 10)
  else none

/-- The `width` lowest hexadecimal digits of `n`, the highest first. -/
def hexDigits (width n : Nat) : List Char :=
  (List.range width).reverse.map fun i => hexDigit (n / Nat.pow 16 i % 16)

/-- Reads hexadecimal digits, continuing from the value `acc`. -/
def readHexDigits (acc : Nat) : List Char → Option Nat
  | [] => some acc
  | c :: cs => (hexValue? c).bind fun d => readHexDigits (16 * acc + d) cs

/-- The bytes of which each has two hexadecimal digits. -/
def hexBytes? : List Char → Option (List UInt8)
  | [] => some []
  | a :: b :: rest => do
    let n ← readHexDigits 0 [a, b]
    return UInt8.ofNat n :: (← hexBytes? rest)
  | _ => none

/-- The decimal digits of a number. -/
def decimalDigits (n : Nat) : List Char :=
  Nat.toDigits 10 n

/-- The decimal digits of `n`, filled up with zeros to at least `width` characters. -/
def padded (width n : Nat) : List Char :=
  let ds := decimalDigits n
  List.replicate (width - ds.length) '0' ++ ds

/-- The decimal text of a number. -/
def ofNat (n : Nat) : String :=
  String.ofList (decimalDigits n)

end Recital.Text
