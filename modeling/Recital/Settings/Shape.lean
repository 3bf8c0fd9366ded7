import Recital.Json.Basic
import Recital.Yaml.Basic

/-!
# The shape of settings

Settings written in YAML have the shape of a configuration record, which is known from its JSON
form.  A shape says how a value of that form is written in YAML; reading a value by a shape gives
the JSON form.

Tags do not matter where a single value, a list or a record is expected, and nothing at all stands
for an empty list or record.  A choice is written as its name, or as a tag on nothing.
-/

namespace Recital.Settings

/-- How a part of a configuration is written. -/
inductive Shape
  /-- A text, a number or a truth value. -/
  | single
  /-- The name of a choice. -/
  | choice
  /-- Nothing, which must not carry a tag, or a value of the given shape. -/
  | optional (shape : Shape)
  /-- A list of values. -/
  | list (item : Shape)
  /-- A record; fields that it does not know are passed over. -/
  | record (fields : List (String × Shape))
  /-- Values under names. -/
  | table (value : Shape)
  /-- A record of one of several kinds, which a field of its own names. -/
  | kinded (tag : String) (kinds : List (String × List String))

namespace Shape

/-- A single value in its JSON form. -/
def single? : Yaml → Option Json
  | .null => some .null
  | .bool b => some (.bool b)
  | .int i => some (.num (.integer i))
  | .real x => some (.num (.real x))
  | .str s => some (.str s)
  | _ => none

/-- The JSON form of nothing. -/
def isNull : Json → Bool
  | .null => true
  | _ => false

/-- A choice in its JSON form. -/
def choice? : Yaml → Option Json
  | .str s => some (.str s)
  | .tagged tag .null => some (.obj [(tag, .null)])
  | _ => none

/-- The items of a list. -/
def items? (y : Yaml) : Option (List Yaml) :=
  match y.untag with
  | .null => some []
  | .seq items => some items
  | _ => none

/-- A key that is a text. -/
def name? (k : Yaml) : Option String :=
  match k.untag with
  | .str s => some s
  | _ => none

/-- The entries of a mapping whose keys are texts. -/
def entries? (y : Yaml) : Option (List (String × Yaml)) :=
  match y.untag with
  | .null => some []
  | .map entries => entries.mapM fun e => (name? e.1).map (·, e.2)
  | _ => none

/-- A part of a record of several kinds.  It may not carry tags, and only single values are
looked at. -/
def part? (y : Yaml) : Option Json :=
  if y.hasTag then none else some ((single? y).getD (.arr []))

/-- A field of a record of several kinds: a known one can be given by its number, and an unknown one
is passed over. -/
def field? (names : List String) : Yaml × Yaml → Option (Option (String × Json))
  | (.str s, v) => (part? v).map fun j => some (s, j)
  | (.int i, v) =>
    if i < 0 then none else (part? v).map fun j => (names[i.toNat]?).map (·, j)
  | _ => none

/-- A record of several kinds in its JSON form; a list gives the kind first.  Where a kind has no
fields they may have any keys. -/
def kinded? (tag : String) (kinds : List (String × List String)) : Yaml → Option Json
  | .map entries => do
    let kind ← (entries.find? fun e => e.1.same (.str tag)).bind (name? ·.2)
    let others := entries.filter fun e => !e.1.same (.str tag)
    match ← kinds.lookup kind with
    | [] => if Yaml.entriesHaveTag others then none else some (.obj [(tag, .str kind)])
    | names => do
      let fields ← others.mapM (field? names)
      some (.obj ((tag, .str kind) :: fields.filterMap id))
  | .seq (kind :: items) => do
    let kind ← name? kind
    let items ← items.mapM part?
    some (.arr (.str kind :: items))
  | _ => none

mutual

/-- The JSON form of a value that is written in the given shape. -/
def toJson? : Shape → Yaml → Option Json
  | single, y => single? y.untag
  | choice, y => choice? y
  | optional shape, y => match y with
    | .null => some .null
    | y => (shape.toJson? y).filter (!isNull ·)
  | list item, y => (items? y).bind fun items => (items.mapM (item.toJson? ·)).map .arr
  | record fields, y => do
    let entries ← entries? y
    let known ← entries.mapM fun e => fieldJson? fields e.1 e.2
    return .obj (known.filterMap id)
  | table value, y => do
    let entries ← entries? y
    let known ← entries.mapM fun e => (value.toJson? e.2).map (e.1, ·)
    return .obj known
  | kinded tag kinds, y => kinded? tag kinds y

/-- The JSON form of a field, unless the record does not know it. -/
def fieldJson? : List (String × Shape) → String → Yaml → Option (Option (String × Json))
  | [], _, _ => some none
  | (name, shape) :: rest, key, y =>
    if name = key then (shape.toJson? y).map fun j => some (name, j) else fieldJson? rest key y

end

/-! ### The shape of a configuration -/

/-- A policy. -/
def policy : Shape :=
  record
    [("timeout_ms", single), ("max_retries", single),
      ("backoff", kinded "kind"
        [("none", []), ("fixed", ["delay_ms"]), ("linear", ["base_ms"]),
          ("exponential", ["base_ms", "max_ms", "jitter"])]),
      ("retry_on", list choice), ("category_hint", optional choice), ("on_error", optional choice)]

/-- A configuration. -/
def config : Shape :=
  record
    [("playback", record
        [("line_delay_ms", single), ("playback_speed", single),
          ("autosave_interval_secs", optional single), ("autosave_key", single)]),
      ("errors", record
        [("continue_on_error", single), ("raise_on_preprocess_errors", single),
          ("recovery_enabled", single), ("max_recovery_retries", single)]),
      ("performance", record [("slow_command_threshold_ms", single)]),
      ("commands", record [("defaults", policy), ("types", table policy)])]

end Shape

end Recital.Settings
