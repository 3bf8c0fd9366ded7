import Recital.Decimal.Reader
import Recital.Yaml.Basic

/-!
# YAML scalars

What a scalar stands for.  A plain one is a null, a truth value, an integer, a real number or else
a text; a quoted one is a text.  A tag of the core schema asks for one of these kinds, and any other
tag that is not the application's own makes the scalar a text.
-/

namespace Recital.Yaml

/-- The words for nothing. -/
def nullWords : List String := ["null", "Null", "NULL", "~"]

/-- The truth value of a word. -/
def truth? (s : String) : Option Bool :=
  if ["true", "True", "TRUE"].contains s then some true
  else if ["false", "False", "FALSE"].contains s then some false
  else none

/-- Digits that start with a superfluous zero, after an optional sign.  They are no number. -/
def isPaddedDigits (cs : List Char) : Bool :=
  let body := match cs with
    | '-' :: r => r
    | '+' :: r => r
    | r => r
  match body with
  | '0' :: c :: r => (c :: r).all Json.isDigit
  | _ => false

/-- The value of digits in a base of at most sixteen; there must be at least one. -/
def digitsIn? (base : Nat) : List Char → Option Nat
  | [] => none
  | cs => cs.foldlM (fun n c => do
      let d ← Text.hexValue? c
      if d < base then some (base * n + d) else none) 0

/-- The value of digits behind the mark of their base, if there is one. -/
def magnitude? : List Char → Option Nat
  | '0' :: 'x' :: r => digitsIn? 16 r
  | '0' :: 'o' :: r => digitsIn? 8 r
  | '0' :: 'b' :: r => digitsIn? 2 r
  | r => digitsIn? 10 r

/-- The integer that a plain scalar stands for, of any size up to 128 bits. -/
def integer? (cs : List Char) : Option Int :=
  if isPaddedDigits cs then none
  else match cs with
    | '-' :: r => ((magnitude? r).filter (· ≤ Nat.pow 2 127)).map fun n => -(n : Int)
    | '+' :: r => ((magnitude? r).filter (· < Nat.pow 2 128)).map fun n => (n : Int)
    | r => ((magnitude? r).filter (· < Nat.pow 2 128)).map fun n => (n : Int)

/-- The real number that a plain scalar stands for.  Infinities and what is no number have words of
their own, and a number too large for the format is none. -/
def real? (s : String) : Option Binary64 :=
  if [".inf", ".Inf", ".INF", "+.inf", "+.Inf", "+.INF"].contains s then some .infinity
  else if ["-.inf", "-.Inf", "-.INF"].contains s then some .negInfinity
  else if [".nan", ".NaN", ".NAN"].contains s then some .nan
  else match s.toList with
    | '+' :: '+' :: _ => none
    | '+' :: '-' :: _ => none
    | cs => (Decimal.read? cs).filter Binary64.isFinite

/-- An integer as a value, refused where no 64-bit word holds it. -/
def ofInteger? (i : Int) : Option Yaml :=
  let limit := if i < 0 then Nat.pow 2 63 else Text.wordMax
  if i.natAbs ≤ limit then some (.int i) else none

/-- What a plain scalar without a tag stands for. -/
def ofPlain? (s : String) : Option Yaml :=
  if s.isEmpty || nullWords.contains s then some .null
  else match truth? s with
    | some b => some (.bool b)
    | none => match integer? s.toList with
      | some i => ofInteger? i
      | none =>
        if isPaddedDigits s.toList then some (.str s)
        else match real? s with
          | some x => some (.real x)
          | none => some (.str s)

/-- The bytes that the tags of the core schema start with. -/
def coreStart : List UInt8 := "tag:yaml.org,2002:".toUTF8.toList

/-- The bytes of a tag of the core schema. -/
def coreTag (name : String) : List UInt8 := coreStart ++ name.toUTF8.toList

/-- What a scalar stands for whose tag, if it has one, is not the application's own. -/
def ofScalar? (tag : Option (List UInt8)) (plain : Bool) (s : String) : Option Yaml :=
  match tag with
  | none => if plain then ofPlain? s else some (.str s)
  | some t =>
    if t = coreTag "bool" then (truth? s).map .bool
    else if t = coreTag "int" then (integer? s.toList).bind ofInteger?
    else if t = coreTag "float" then (real? s).map .real
    else if t = coreTag "null" then if nullWords.contains s then some .null else none
    else some (.str s)

end Recital.Yaml
