import Recital.Binary64
import Recital.Table

/-!
# JSON values

A JSON value as it stands in a text: the fields of an object keep their order and may repeat.  A
value is *normal* when every object lists its keys in increasing order; `Json.normalize` sorts each
object and keeps the last of several fields with one key.
-/

namespace Recital

/-- A number of a JSON value. -/
inductive Json.Number
  /-- An integer between the least signed and the greatest unsigned 64-bit word. -/
  | integer (value : Int)
  /-- Any other number, rounded to a finite binary number. -/
  | real (value : Binary64)
deriving DecidableEq

/-- A JSON value with the fields of its objects in the order of the text. -/
inductive Json
  | null
  | bool (value : Bool)
  | num (value : Json.Number)
  | str (value : String)
  | arr (items : List Json)
  | obj (fields : List (String × Json))
deriving Inhabited

namespace Json

/-- The number of a natural number. -/
def nat (n : Nat) : Json := .num (.integer n)

/-- The number of a floating-point number; one that is not finite is written as `null`. -/
def float (x : Binary64) : Json := if x.isFinite then .num (.real x) else .null

/-- `null`, or the image of the value. -/
def ofOption {α : Type} (f : α → Json) : Option α → Json
  | none => .null
  | some a => f a

/-- The object of a table. -/
def ofTable {α : Type} (f : α → Json) (t : Table α) : Json :=
  .obj (t.entries.map fun e => (e.1, f e.2))

/-- The value of the first field with the given key. -/
def get? (j : Json) (key : String) : Option Json :=
  match j with
  | .obj fields => fields.lookup key
  | _ => none

mutual

/-- Sorts the fields of every object; of several fields with one key the last is kept. -/
def normalize : Json → Json
  | .arr items => .arr (normalizeItems items)
  | .obj fields => .obj (normalizeFields fields [])
  | .null => .null
  | .bool b => .bool b
  | .num n => .num n
  | .str s => .str s

/-- Normalizes each of the values. -/
def normalizeItems : List Json → List Json
  | [] => []
  | j :: rest => normalize j :: normalizeItems rest

/-- Adds normalized fields to the sorted ones in `done`. -/
def normalizeFields : List (String × Json) → List (String × Json) → List (String × Json)
  | [], done => done
  | (k, j) :: rest, done => normalizeFields rest (Table.insertSorted k (normalize j) done)

end

/-- The fields of a value as a table of normal values, if it is an object. -/
def toTable? : Json → Option (Table Json)
  | .obj fields => some (Table.ofList (fields.map fun e => (e.1, e.2.normalize)))
  | _ => none

end Json

end Recital
