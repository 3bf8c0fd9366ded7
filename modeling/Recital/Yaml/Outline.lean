import Recital.Decimal.Shortest
import Recital.Text.Extending
import Recital.Yaml.Basic

/-!
# YAML values in messages

The form in which a message shows a value: its kind, and what it holds in brackets.
-/

namespace Recital.Yaml

/-- Real numbers are positional from `0.00001` up to sixteen digits before the point. -/
def realLayout : Decimal.Layout where
  tie := .even
  leastPositional := -5
  positionalBound := 16
  pointZero := true
  plusExponent := false
  infinite := ".inf"
  notANumber := ".nan"

/-- A character of a text in quotes.  One that extends the character before it, or has no sign of
its own, is written by its code point. -/
def quoteChar (c : Char) : List Char :=
  if c = '"' ∨ c = '\\' then ['\\', c]
  else if c = '\n' then ['\\', 'n']
  else if c = '\r' then ['\\', 'r']
  else if c = '\t' then ['\\', 't']
  else if c = Char.ofNat 0 then ['\\', '0']
  else if Text.isExtending c || !Text.isGraphic c then
    "\\u\x7b".toList ++ Nat.toDigits 16 c.toNat ++ ['}']
  else [c]

/-- A text in quotes. -/
def quote (s : String) : String := String.ofList ('"' :: s.toList.flatMap quoteChar ++ ['"'])

/-- The number of a value, if it is one. -/
def numeral? : Yaml → Option String
  | int i => some (toString i)
  | real x => some (realLayout.render x)
  | _ => none

/-- The texts with commas between them. -/
def listed (parts : List String) : String := String.intercalate ", " parts

/-- A key is shown without its kind if it is a truth value, a number or a text. -/
def keyOutline (k : Yaml) (full : String) : String :=
  match k with
  | bool b => toString b
  | str s => quote s
  | k => (numeral? k).getD full

mutual

/-- A value with its kind. -/
def outline : Yaml → String
  | null => "Null"
  | bool b => "Bool(" ++ toString b ++ ")"
  | int i => "Number(" ++ toString i ++ ")"
  | real x => "Number(" ++ realLayout.render x ++ ")"
  | str s => "String(" ++ quote s ++ ")"
  | seq items => "Sequence [" ++ listed (itemOutlines items) ++ "]"
  | map entries => "Mapping \x7b" ++ listed (entryOutlines entries) ++ "\x7d"
  | tagged tag y => "TaggedValue \x7b tag: !" ++ tag ++ ", value: " ++ outline y ++ " \x7d"

/-- The values with their kinds. -/
def itemOutlines : List Yaml → List String
  | [] => []
  | y :: rest => outline y :: itemOutlines rest

/-- The entries with the kinds of their values. -/
def entryOutlines : List (Yaml × Yaml) → List String
  | [] => []
  | (k, v) :: rest => (keyOutline k (outline k) ++ ": " ++ outline v) :: entryOutlines rest

end

end Recital.Yaml
