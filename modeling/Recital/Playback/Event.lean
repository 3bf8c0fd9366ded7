import Recital.Playback.Snapshot
import Recital.Playback.State

/-!
# Events

What a playback publishes.  An event carries the run that produced it: every playback has a run of
its own, and a script called from another one has a child of the caller's run.
-/

namespace Recital

/-- One playback, as subscribers tell playbacks apart (the `Context` of an event). -/
structure Run where
  /-- What identifies the run. -/
  id : String
  /-- The run that this one was started from. -/
  parent : Option String := none
deriving DecidableEq, Inhabited

namespace Run

/-- The digits of identifiers, in increasing order. -/
def alphabet : List Char := "0123456789ABCDEFGHJKMNPQRSTVWXYZ".toList

/-- The `n`-th identifier: twenty-six digits to the base thirty-two. -/
def serial (n : Nat) : String :=
  String.ofList <| (List.range 26).reverse.map fun i => alphabet.getD (n / Nat.pow 32 i % 32) '0'

/-- The run with the `n`-th identifier. -/
def numbered (n : Nat) : Run := ⟨serial n, none⟩

/-- A child of a run, with the `n`-th identifier. -/
def child (r : Run) (n : Nat) : Run := ⟨serial n, some r.id⟩

/-- A record; the parent is left out when there is none. -/
def toJson (r : Run) : Json :=
  .obj (("id", .str r.id) :: Json.fieldIfSome "parent_id" .str r.parent)

/-- The names of the fields in their written order. -/
def fieldNames : List String := ["id", "parent_id"]

/-- Reads the record of a run. -/
def ofJson? (j : Json) : Option Run := do
  let r ← Json.record? fieldNames j
  return { id := ← r.required "id" Json.str?, parent := ← r.optional "parent_id" Json.str? }

/-- The fields of the record. -/
def interest : Json.Interest := .record fieldNames

end Run

/-- The kinds of events that can be subscribed to (`EventKind`). -/
inductive Event.Kind
  | scriptStarted
  | scriptCompleted
  | scriptFailed
  | lineExecuting
  | lineExecuted
  | lineFailed
  | commandExecuting
  | commandExecuted
  | commandRetrying
  | stateChanged
  | progressChanged
  | breakpointHit
  | variableChanged
deriving DecidableEq, Inhabited

namespace Event.Kind

/-- The name of a kind. -/
def name : Kind → String
  | scriptStarted => "script_started"
  | scriptCompleted => "script_completed"
  | scriptFailed => "script_failed"
  | lineExecuting => "line_executing"
  | lineExecuted => "line_executed"
  | lineFailed => "line_failed"
  | commandExecuting => "command_executing"
  | commandExecuted => "command_executed"
  | commandRetrying => "command_retrying"
  | stateChanged => "state_changed"
  | progressChanged => "progress_changed"
  | breakpointHit => "breakpoint_hit"
  | variableChanged => "variable_changed"

/-- All kinds. -/
def all : List Kind :=
  [scriptStarted, scriptCompleted, scriptFailed, lineExecuting, lineExecuted, lineFailed,
    commandExecuting, commandExecuted, commandRetrying, stateChanged, progressChanged,
    breakpointHit, variableChanged]

/-- A kind is written as its name. -/
def toJson (k : Kind) : Json := .str k.name

/-- Reads the name of a kind. -/
def ofJson? : Json → Option Kind := Json.named? name all .free

end Event.Kind

/-- What happened (`EngineEvent`). -/
inductive Event.Payload
  | scriptStarted (script : String)
  /-- A playback ended without a fault. -/
  | scriptCompleted (script : String) (report : Report)
  | scriptFailed (script : String) (fault : Fault)
  | lineExecuting (index : Nat) (line : String)
  | lineExecuted (index : Nat) (line : String)
  /-- A fault was passed over. -/
  | lineFailed (index : Nat) (fault : Fault)
  | commandExecuting (index : Nat) (commandType : String)
  | commandExecuted (index : Nat) (commandType : String) (success : Bool)
  | commandRetrying (index : Nat) (commandType : String) (attempt delayMs : Nat)
  | stateChanged (before after : State)
  | progressChanged (progress : Binary64)
  | breakpointHit (index : Nat)
  /-- A variable was set, or removed when there is no value. -/
  | variableChanged (name : String) (value : Option Json)

namespace Event.Payload

/-- The kind of a payload. -/
def kind : Payload → Kind
  | scriptStarted .. => .scriptStarted
  | scriptCompleted .. => .scriptCompleted
  | scriptFailed .. => .scriptFailed
  | lineExecuting .. => .lineExecuting
  | lineExecuted .. => .lineExecuted
  | lineFailed .. => .lineFailed
  | commandExecuting .. => .commandExecuting
  | commandExecuted .. => .commandExecuted
  | commandRetrying .. => .commandRetrying
  | stateChanged .. => .stateChanged
  | progressChanged .. => .progressChanged
  | breakpointHit .. => .breakpointHit
  | variableChanged .. => .variableChanged

/-- The fields of a payload besides its kind. -/
def fields : Payload → List (String × Json)
  | scriptStarted script => [("script", .str script)]
  | scriptCompleted script report => [("script", .str script), ("result", report.toJson)]
  | scriptFailed script fault => [("script", .str script), ("error", fault.toJson)]
  | lineExecuting index line => [("index", .nat index), ("line", .str line)]
  | lineExecuted index line => [("index", .nat index), ("line", .str line)]
  | lineFailed index fault => [("index", .nat index), ("error", fault.toJson)]
  | commandExecuting index type => [("index", .nat index), ("command_type", .str type)]
  | commandExecuted index type success =>
    [("index", .nat index), ("command_type", .str type), ("success", .bool success)]
  | commandRetrying index type attempt delay =>
    [("index", .nat index), ("command_type", .str type), ("attempt", .nat attempt),
      ("delay_ms", .nat delay)]
  | stateChanged before after => [("old", before.toJson), ("new", after.toJson)]
  | progressChanged progress => [("progress", .float progress)]
  | breakpointHit index => [("index", .nat index)]
  | variableChanged name value => [("name", .str name), ("value", Json.ofOption id value)]

/-- A record tagged with the kind. -/
def toJson (p : Payload) : Json := .obj (("type", p.kind.toJson) :: p.fields)

/-- Reads the record of a payload of a given kind. -/
def ofRecord? (kind : Kind) (j : Json) : Option Payload :=
  match kind with
  | .scriptStarted => do
    let r ← Json.record? ["script"] j
    return scriptStarted (← r.required "script" Json.str?)
  | .scriptCompleted => do
    let r ← Json.record? ["script", "result"] j
    return scriptCompleted (← r.required "script" Json.str?)
      (← r.required "result" (Report.ofJsonAt? .tagged))
  | .scriptFailed => do
    let r ← Json.record? ["script", "error"] j
    return scriptFailed (← r.required "script" Json.str?)
      (← r.required "error" (Fault.ofJsonAt? .tagged))
  | .lineExecuting => do
    let r ← Json.record? ["index", "line"] j
    return lineExecuting (← r.required "index" Json.word?) (← r.required "line" Json.str?)
  | .lineExecuted => do
    let r ← Json.record? ["index", "line"] j
    return lineExecuted (← r.required "index" Json.word?) (← r.required "line" Json.str?)
  | .lineFailed => do
    let r ← Json.record? ["index", "error"] j
    return lineFailed (← r.required "index" Json.word?)
      (← r.required "error" (Fault.ofJsonAt? .tagged))
  | .commandExecuting => do
    let r ← Json.record? ["index", "command_type"] j
    return commandExecuting (← r.required "index" Json.word?)
      (← r.required "command_type" Json.str?)
  | .commandExecuted => do
    let r ← Json.record? ["index", "command_type", "success"] j
    return commandExecuted (← r.required "index" Json.word?)
      (← r.required "command_type" Json.str?) (← r.required "success" Json.bool?)
  | .commandRetrying => do
    let r ← Json.record? ["index", "command_type", "attempt", "delay_ms"] j
    return commandRetrying (← r.required "index" Json.word?)
      (← r.required "command_type" Json.str?) (← r.required "attempt" Json.word32?)
      (← r.required "delay_ms" Json.word?)
  | .stateChanged => do
    let r ← Json.record? ["old", "new"] j
    return stateChanged (← r.required "old" (State.ofJsonAt? .tagged))
      (← r.required "new" (State.ofJsonAt? .tagged))
  | .progressChanged => do
    let r ← Json.record? ["progress"] j
    return progressChanged (← r.required "progress" Json.float?)
  | .breakpointHit => do
    let r ← Json.record? ["index"] j
    return breakpointHit (← r.required "index" Json.word?)
  | .variableChanged => do
    let r ← Json.record? ["name", "value"] j
    return variableChanged (← r.required "name" Json.str?)
      (← r.optional "value" fun j => some j.normalize)

/-- Reads a record tagged with the kind. -/
def ofJson? (j : Json) : Option Payload := do
  let (tag, rest) ← Json.tagged? "type" j
  let kind ← Kind.all.find? fun k => k.name == tag
  ofRecord? kind rest

end Event.Payload

/-- An event as subscribers receive it (`Event`). -/
structure Event where
  /-- What happened. -/
  payload : Event.Payload
  /-- When it was published. -/
  firedAt : Instant
  /-- The run that published it. -/
  run : Run

namespace Event

/-- The kind of an event. -/
def kind (e : Event) : Kind := e.payload.kind

/-- A record of all fields. -/
def toJson (e : Event) : Json :=
  .obj [("data", e.payload.toJson), ("time_fired", e.firedAt.toJson), ("context", e.run.toJson)]

/-- The names of the fields in their written order. -/
def fieldNames : List String := ["data", "time_fired", "context"]

/-- Reads the record of an event. -/
def ofJson? (j : Json) : Option Event := do
  let r ← Json.record? fieldNames j
  return {
    payload := ← r.required "data" Payload.ofJson?
    firedAt := ← r.required "time_fired" Instant.ofJson?
    run := ← r.required "context" Run.ofJson? }

/-- The fields of the record, with those of the run.  The whole payload is looked at, because its
kind may come last. -/
def interest : Json.Interest := .recordWith fieldNames [("context", Run.interest)]

end Event

end Recital
