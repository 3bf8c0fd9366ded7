import Recital.Text.Numeral
import Recital.Json.Draft
import Recital.Json.Shape

/-!
# Faults

A fault is a classified failure of a script line: how bad it is, what kind it is, where it happened,
whether another attempt may help, and what should be done about it.
-/

namespace Recital

/-- Where a redirection of the playback leads (`JumpTarget`). -/
inductive Target
  /-- A line by its index. -/
  | line (index : Nat)
  /-- The line that carries a label. -/
  | label (name : String)
deriving DecidableEq

namespace Target

/-- A target in words. -/
def text : Target → String
  | line n => "line " ++ Text.ofNat n
  | label name => "#" ++ name

/-- A choice of line or label. -/
def toJson : Target → Json
  | line n => .obj [("line", .nat n)]
  | label name => .obj [("label", .str name)]

/-- Reads a choice of line or label. -/
def ofJson? (j : Json) : Option Target :=
  match Json.choice? j with
  | some ("line", some v) => v.word?.map line
  | some ("label", some v) => v.str?.map label
  | _ => none

end Target

/-- What is done about a fault when no attempt is left (`RecoveryAction`). -/
inductive Remedy
  /-- Treat the line as done. -/
  | skip
  /-- Continue elsewhere. -/
  | jump (target : Target)
  /-- End the playback. -/
  | stop
  /-- Return to the last checkpoint. -/
  | rollback
  /-- Execute the line once more. -/
  | retry
deriving DecidableEq

namespace Remedy

/-- A remedy in words. -/
def text : Remedy → String
  | skip => "skip"
  | jump target => "jump to " ++ target.text
  | stop => "stop"
  | rollback => "rollback"
  | retry => "retry"

/-- A choice of remedy. -/
def toJson : Remedy → Json
  | skip => .str "skip"
  | jump target => .obj [("jump", target.toJson)]
  | stop => .str "stop"
  | rollback => .str "rollback"
  | retry => .str "retry"

/-- The remedy with a name to which nothing belongs. -/
def ofName? : String → Option Remedy
  | "skip" => some skip
  | "stop" => some stop
  | "rollback" => some rollback
  | "retry" => some retry
  | _ => none

/-- Reads a choice of remedy where it stands. -/
def ofJsonAt? (site : Json.Site) (j : Json) : Option Remedy :=
  match Json.choice? j with
  | some ("jump", some v) => (Target.ofJson? v).map jump
  | some (name, payload) => if Json.isBare site payload then ofName? name else none
  | none => none

/-- Reads a choice of remedy. -/
def ofJson? : Json → Option Remedy := ofJsonAt? .free

end Remedy

/-- What kind of failure a fault is (`ErrorCategory`). -/
inductive Fault.Category
  | timeout
  | validation
  | stateManagement
  | security
  | resourceLoading
  | network
  | configuration
  | unknown
deriving DecidableEq, Inhabited

namespace Fault.Category

/-- The name of a category. -/
def name : Category → String
  | timeout => "timeout"
  | validation => "validation"
  | stateManagement => "state_management"
  | security => "security"
  | resourceLoading => "resource_loading"
  | network => "network"
  | configuration => "configuration"
  | unknown => "unknown"

/-- All categories. -/
def all : List Category :=
  [timeout, validation, stateManagement, security, resourceLoading, network, configuration, unknown]

/-- A category is written as its name. -/
def toJson (c : Category) : Json := .str c.name

/-- Reads the name of a category where it stands. -/
def ofJsonAt? : Json.Site → Json → Option Category := Json.named? name all

/-- Reads the name of a category. -/
def ofJson? : Json → Option Category := ofJsonAt? .free

end Fault.Category

/-- How bad a fault is, from the mildest to the worst (`ErrorSeverity`). -/
inductive Fault.Severity
  /-- Another attempt may well succeed. -/
  | recoverable
  /-- Attempted again only where the policy says so. -/
  | critical
  /-- Never attempted again and never remedied. -/
  | fatal
deriving DecidableEq, Inhabited

namespace Fault.Severity

/-- The name of a severity. -/
def name : Severity → String
  | recoverable => "recoverable"
  | critical => "critical"
  | fatal => "fatal"

/-- All severities. -/
def all : List Severity := [recoverable, critical, fatal]

/-- The place of a severity in their order. -/
def rank : Severity → Nat
  | recoverable => 0
  | critical => 1
  | fatal => 2

/-- A severity is written as its name. -/
def toJson (s : Severity) : Json := .str s.name

/-- Reads the name of a severity where it stands. -/
def ofJsonAt? : Json.Site → Json → Option Severity := Json.named? name all

/-- Reads the name of a severity. -/
def ofJson? : Json → Option Severity := ofJsonAt? .free

end Fault.Severity

/-- A classified failure of a script line (`ScriptExecutionError`). -/
structure Fault where
  /-- What went wrong. -/
  message : String
  /-- How bad it is. -/
  severity : Fault.Severity
  /-- What kind of failure it is. -/
  category : Fault.Category
  /-- The type of the command that failed. -/
  commandType : Option String := none
  /-- The line that failed. -/
  lineIndex : Option Nat := none
  /-- The script of the line. -/
  scriptName : Option String := none
  /-- Another attempt may be made. -/
  retryable : Bool := false
  /-- What should be done about it. -/
  remedy : Option Remedy := none
  /-- A hint for whoever reads it. -/
  suggestion : String := ""
  /-- How many attempts were made. -/
  attempts : Nat := 0
  /-- Further facts by name. -/
  context : Table String := ∅

namespace Fault

/-- A critical validation fault. -/
def validation (message : String) : Fault :=
  { message, severity := .critical, category := .validation }

/-- A critical configuration fault. -/
def configuration (message : String) : Fault :=
  { message, severity := .critical, category := .configuration }

/-- The fault, located at a line of a script. -/
def located (f : Fault) (index : Nat) (script : String) : Fault :=
  { f with lineIndex := some index, scriptName := some script }

/-- The fault with a further fact. -/
def withContext (f : Fault) (key value : String) : Fault :=
  { f with context := f.context.insert key value }

/-- The worst severity. -/
def isFatal (f : Fault) : Bool := f.severity == .fatal

/-- The fault on one line. -/
def text (f : Fault) : String :=
  "[" ++ f.category.name ++ "/" ++ f.severity.name ++ "] " ++ f.message

/-- The names of the fields in their written order. -/
def fieldNames : List String :=
  ["message", "severity", "category", "command_type", "line_index", "script_name", "retryable",
    "recovery_action", "suggestion", "retry_attempts", "context"]

/-- A record; fields that hold nothing are left out. -/
def toJson (f : Fault) : Json :=
  .obj <|
    [("message", .str f.message), ("severity", f.severity.toJson),
      ("category", f.category.toJson)] ++
    Json.fieldIfSome "command_type" .str f.commandType ++
    Json.fieldIfSome "line_index" .nat f.lineIndex ++
    Json.fieldIfSome "script_name" .str f.scriptName ++
    [("retryable", .bool f.retryable)] ++
    Json.fieldIfSome "recovery_action" Remedy.toJson f.remedy ++
    (if f.suggestion.isEmpty then [] else [("suggestion", .str f.suggestion)]) ++
    [("retry_attempts", .nat f.attempts)] ++
    (if f.context.isEmpty then [] else [("context", Json.ofTable .str f.context)])

/-- Reads the record of a fault where it stands. -/
def ofJsonAt? (site : Json.Site) (j : Json) : Option Fault := do
  let r ← Json.record? fieldNames j
  return {
    message := ← r.required "message" Json.str?
    severity := ← r.required "severity" (Severity.ofJsonAt? site)
    category := ← r.required "category" (Category.ofJsonAt? site)
    commandType := ← r.optional "command_type" Json.str?
    lineIndex := ← r.optional "line_index" Json.word?
    scriptName := ← r.optional "script_name" Json.str?
    retryable := ← r.required "retryable" Json.bool?
    remedy := ← r.optional "recovery_action" (Remedy.ofJsonAt? site)
    suggestion := ← r.defaulted "suggestion" Json.str? ""
    attempts := ← r.defaulted "retry_attempts" Json.word32? 0
    context := ← r.defaulted "context" (Json.table? Json.str?) ∅ }

/-- Reads the record of a fault. -/
def ofJson? : Json → Option Fault := ofJsonAt? .free

/-- The fields of the record. -/
def interest : Json.Interest := .record fieldNames

end Fault

end Recital
