import Recital.Json.Basic

/-!
# Shapes of JSON values

Readers that turn a JSON value into data.  A record is written as an object or as an array of its
fields in order; a choice is written as its name, or as an object whose only field is named for it
and holds what belongs to it; a tagged choice is a record with one more field that holds the name.
-/

namespace Recital.Json

/-- A natural number of at most `limit`. -/
def natUpTo? (limit : Nat) : Json → Option Nat
  | .num (.integer i) => if 0 ≤ i ∧ i.toNat ≤ limit then some i.toNat else none
  | _ => none

/-- An unsigned 64-bit word. -/
def word? : Json → Option Nat := natUpTo? Text.wordMax

/-- An unsigned 32-bit word. -/
def word32? : Json → Option Nat := natUpTo? (Nat.pow 2 32 - 1)

/-- Any number, rounded to a floating-point one. -/
def float? : Json → Option Binary64
  | .num (.integer i) => some (Binary64.ofInt i)
  | .num (.real x) => some x
  | _ => none

/-- A text. -/
def str? : Json → Option String
  | .str s => some s
  | _ => none

/-- A truth value. -/
def bool? : Json → Option Bool
  | .bool b => some b
  | _ => none

/-- An array whose items all have the given shape. -/
def list? {α : Type} (item : Json → Option α) : Json → Option (List α)
  | .arr items => items.mapM item
  | _ => none

/-- `null`, or a value of the given shape. -/
def option? {α : Type} (value : Json → Option α) : Json → Option (Option α)
  | .null => some none
  | j => (value j).map some

/-- An object whose values all have the given shape; of several fields with one key the last
counts. -/
def table? {α : Type} (value : Json → Option α) : Json → Option (Table α)
  | .obj fields =>
    (fields.mapM fun e => (value e.2).map fun a => (e.1, a)).map Table.ofList
  | _ => none

/-- The fields of a record that is being read. -/
structure Record where
  /-- The record was written as an array. -/
  listed : Bool
  /-- The known fields that are present. -/
  fields : List (String × Json)

/-- No field is given twice. -/
def distinctKeys : List (String × Json) → Bool
  | [] => true
  | e :: rest => !(rest.any (·.1 == e.1)) && distinctKeys rest

/-- Opens a record with the given field names.  Unknown fields of an object are ignored; a known one
given twice, or more items than fields, is refused. -/
def record? (names : List String) : Json → Option Record
  | .obj fields =>
    let known := fields.filter fun e => names.contains e.1
    if distinctKeys known then some ⟨false, known⟩ else none
  | .arr items => if items.length ≤ names.length then some ⟨true, names.zip items⟩ else none
  | _ => none

namespace Record

variable {α : Type}

/-- A field that must be present. -/
def required (r : Record) (name : String) (value : Json → Option α) : Option α :=
  (r.fields.lookup name).bind value

/-- A field that may be missing, with the value it then has. -/
def defaulted (r : Record) (name : String) (value : Json → Option α) (missing : α) : Option α :=
  match r.fields.lookup name with
  | none => some missing
  | some j => value j

/-- A field that may be `null`, or missing from an object; in an array it must be present. -/
def optional (r : Record) (name : String) (value : Json → Option α) : Option (Option α) :=
  match r.fields.lookup name with
  | none => if r.listed then none else some none
  | some j => option? value j

end Record

/-- A choice: its name and what belongs to it. -/
def choice? : Json → Option (String × Option Json)
  | .str name => some (name, none)
  | .obj [(name, j)] => some (name, some j)
  | _ => none

/-- Where a choice stands. -/
inductive Site
  /-- On its own or in a record. -/
  | free
  /-- Somewhere within a tagged choice. -/
  | tagged
deriving DecidableEq

/-- Nothing belongs to the choice: it is a name alone, or its field holds `null`.  Within a tagged
choice an empty object says the same. -/
def isBare (site : Site) : Option Json → Bool
  | none => true
  | some .null => true
  | some (.obj []) => site == .tagged
  | _ => false

/-- A choice to which nothing belongs, looked up by its name among all of them. -/
def named? {α : Type} (name : α → String) (all : List α) (site : Site) (j : Json) : Option α :=
  (choice? j).bind fun (s, payload) =>
    if isBare site payload then all.find? fun a => name a == s else none

/-- A tagged choice: its name and the record without the tag. -/
def tagged? (tag : String) : Json → Option (String × Json)
  | .obj fields =>
    match fields.filter fun e => e.1 == tag with
    | [(_, .str name)] => some (name, .obj (fields.filter fun e => e.1 != tag))
    | _ => none
  | .arr (.str name :: items) => some (name, .arr items)
  | _ => none

/-- A field that is written only when there is a value. -/
def fieldIfSome {α : Type} (name : String) (f : α → Json) : Option α → List (String × Json)
  | none => []
  | some a => [(name, f a)]

end Recital.Json
