import Recital.Json.Basic

/-!
# Drafts of JSON values

A draft is what the grammar of a JSON text alone gives.  Its nesting is not limited yet, a number in
it may be too large for the format, and a quoted text may hold half of a surrogate pair.  Such parts
do no harm where nobody looks at them.  An `Interest` says which parts of a text are looked at, and
`Draft.value?` turns those into a value, leaving out fields that are of no interest.
-/

namespace Recital.Json

/-- A JSON value as it is written. -/
inductive Draft
  | null
  | bool (value : Bool)
  /-- A number, unless it does not round to a finite one. -/
  | num (value : Option Number)
  /-- A text, unless it holds half of a surrogate pair. -/
  | str (value : Option String)
  | arr (items : List Draft)
  | obj (fields : List (Option String × Draft))
deriving Inhabited

/-- Which parts of a value are looked at. -/
inductive Interest
  /-- Every part. -/
  | all
  /-- The fields of a record that is written as an object, or as an array in this order. -/
  | fields (known : List (String × Interest))
  /-- The items of an array, each alike. -/
  | items (each : Interest)
deriving Inhabited

namespace Interest

/-- A record all of whose fields are looked at as a whole. -/
def record (names : List String) : Interest := .fields (names.map fun n => (n, .all))

/-- A record some of whose fields are looked at in parts. -/
def recordWith (names : List String) (parts : List (String × Interest)) : Interest :=
  .fields (names.map fun n => (n, (parts.lookup n).getD .all))

/-- What is looked at in the field with the given name, if it is looked at. -/
def field? : Interest → String → Option Interest
  | .fields known, name => known.lookup name
  | _, _ => some .all

/-- What is looked at in the item with the given position. -/
def item : Interest → Nat → Interest
  | .all, _ => .all
  | .fields known, n => (known[n]?.map (·.2)).getD .all
  | .items each, _ => each

end Interest

namespace Draft

mutual

/-- The value of the parts that are looked at, where arrays and objects nest at most `depth` levels.
Each of those parts must be a value. -/
def value? : Draft → Interest → Nat → Option Json
  | .null, _, _ => some .null
  | .bool b, _, _ => some (.bool b)
  | .num n, _, _ => n.map .num
  | .str s, _, _ => s.map .str
  | .arr _, _, 0 => none
  | .arr items, interest, depth + 1 => (items? items interest 0 depth).map .arr
  | .obj _, _, 0 => none
  | .obj fields, interest, depth + 1 => (fields? fields interest depth).map .obj

/-- The values of the items of an array, of which the first has the position `n`. -/
def items? : List Draft → Interest → Nat → Nat → Option (List Json)
  | [], _, _, _ => some []
  | d :: rest, interest, n, depth => do
    let j ← value? d (interest.item n) depth
    let js ← items? rest interest (n + 1) depth
    return j :: js

/-- The fields that are looked at, with their values.  The key of every field must be a text. -/
def fields? : List (Option String × Draft) → Interest → Nat → Option (List (String × Json))
  | [], _, _ => some []
  | (none, _) :: _, _, _ => none
  | (some key, d) :: rest, interest, depth =>
    match interest.field? key with
    | none => fields? rest interest depth
    | some part => do
      let j ← value? d part depth
      let js ← fields? rest interest depth
      return (key, j) :: js

end

end Draft

end Recital.Json
